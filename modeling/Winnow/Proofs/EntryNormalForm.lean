import Winnow.Proofs.FailingSteps
import Winnow.Select.Query

namespace Winnow

def joinParts (parts : List (List Char)) : List Char :=
  List.intercalate [' ', 'a', 's', ' '] parts

/-- What follows the word `as` and the blanks behind it, where it comes next, behind blanks or at
once. -/
def nextAs? (cs : List Char) : Option (List Char) :=
  match cs.dropWhile isBlank with
  | a :: s :: b :: rest =>
    if (a = 'a' || a = 'A') && isSmallS s && isBlank b then some (rest.dropWhile isBlank) else none
  | _ => none

theorem afterAs?_cons (c : Char) (cs : List Char) :
    afterAs? (c :: cs) = if isBlank c then nextAs? cs else none := rfl

theorem nextAs?_blank {c : Char} (h : isBlank c = true) (cs : List Char) :
    nextAs? (c :: cs) = nextAs? cs := by
  unfold nextAs?
  rw [List.dropWhile_cons_of_pos h]

theorem nextAs?_of_not_blank {c : Char} (h : isBlank c = false) (cs : List Char) :
    nextAs? (c :: cs) = match cs with
      | s :: b :: rest =>
        if (c = 'a' || c = 'A') && isSmallS s && isBlank b then some (rest.dropWhile isBlank)
        else none
      | _ => none := by
  unfold nextAs?
  rw [List.dropWhile_cons_of_neg (by simp [h])]
  match cs with
  | [] => rfl
  | [s] => rfl
  | s :: b :: rest => rfl

theorem aliasParts_ne_nil (cs : List Char) : aliasParts cs ≠ [] := by
  fun_induction aliasParts cs with
  | case1 => simp
  | case2 => simp
  | case3 c cs h ih =>
    cases hp : aliasParts cs <;> simp [consHead]

@[simp] theorem aliasParts_nil : aliasParts [] = [[]] := by
  generalize hx : ([] : List Char) = xs
  fun_cases aliasParts xs with
  | case1 => rfl
  | case2 => cases hx
  | case3 => cases hx

theorem aliasParts_of_some {c : Char} {cs rest : List Char} (h : afterAs? (c :: cs) = some rest) :
    aliasParts (c :: cs) = [] :: aliasParts rest := by
  generalize hx : c :: cs = xs at h ⊢
  fun_cases aliasParts xs with
  | case1 => cases hx
  | case2 c' cs' other ho =>
    cases h.symm.trans ho
    rfl
  | case3 c' cs' ho => cases h.symm.trans ho

theorem aliasParts_of_none {c : Char} {cs : List Char} (h : afterAs? (c :: cs) = none) :
    aliasParts (c :: cs) = consHead c (aliasParts cs) := by
  generalize hx : c :: cs = xs at h ⊢
  fun_cases aliasParts xs with
  | case1 => cases hx
  | case2 c' cs' other ho => cases h.symm.trans ho
  | case3 c' cs' ho =>
    obtain ⟨rfl, rfl⟩ := List.cons.inj hx
    rfl

theorem joinParts_nil_cons {parts : List (List Char)} (h : parts ≠ []) :
    joinParts ([] :: parts) = ' ' :: 'a' :: 's' :: ' ' :: joinParts parts := by
  obtain ⟨p, ps, rfl⟩ := List.exists_cons_of_ne_nil h
  unfold joinParts
  rw [List.intercalate_cons_cons]
  rfl

theorem joinParts_consHead {parts : List (List Char)} (h : parts ≠ []) (c : Char) :
    joinParts (consHead c parts) = c :: joinParts parts := by
  obtain ⟨p, ps, rfl⟩ := List.exists_cons_of_ne_nil h
  unfold joinParts consHead
  cases ps with
  | nil => rw [List.intercalate_singleton, List.intercalate_singleton]
  | cons q qs =>
    rw [List.intercalate_cons_cons, List.intercalate_cons_cons]
    rfl

theorem isBlank_of_afterAs? {c : Char} {cs rest : List Char}
    (h : afterAs? (c :: cs) = some rest) : isBlank c = true ∧ nextAs? cs = some rest := by
  rw [afterAs?_cons] at h
  split at h
  next hc => exact ⟨hc, h⟩
  next => cases h

/-- Whether a text begins with a blank. -/
def leads (cs : List Char) : Bool := cs.head?.any isBlank

theorem leads_dropWhile (cs : List Char) : leads (cs.dropWhile isBlank) = false := by
  induction cs with
  | nil => rfl
  | cons c cs ih =>
    by_cases hc : isBlank c
    · rwa [List.dropWhile_cons_of_pos hc]
    · rw [List.dropWhile_cons_of_neg hc]
      simpa [leads] using hc

theorem dropWhile_of_leads {cs : List Char} (h : leads cs = false) : cs.dropWhile isBlank = cs := by
  cases cs with
  | nil => rfl
  | cons c cs => exact List.dropWhile_cons_of_neg (by simpa [leads] using h)

theorem nextAs?_some {cs rest : List Char} (h : nextAs? cs = some rest) :
    leads rest = false ∧ ∃ front b, cs = front ++ b :: rest ∧ isBlank b = true := by
  unfold nextAs? at h
  split at h
  next a s b tail hcs =>
    split at h
    next hw =>
      cases h
      refine ⟨leads_dropWhile tail, ?_⟩
      have hblanks : ∀ x ∈ b :: tail.takeWhile isBlank, isBlank x = true := by
        simp only [Bool.and_eq_true] at hw
        exact List.forall_mem_cons.mpr ⟨hw.2, List.all_eq_true.mp List.all_takeWhile⟩
      -- the blank that stands right before the rest: the first one behind the word, or one dropped
      obtain ⟨before, last, hlast⟩ : ∃ before last, b :: tail.takeWhile isBlank =
          before ++ [last] := ⟨_, _, (List.dropLast_concat_getLast (by simp)).symm⟩
      refine ⟨cs.takeWhile isBlank ++ a :: s :: before, last, ?_, hblanks _ (by simp [hlast])⟩
      calc cs = cs.takeWhile isBlank ++ cs.dropWhile isBlank :=
            List.takeWhile_append_dropWhile.symm
        _ = cs.takeWhile isBlank ++ a :: s :: ((b :: tail.takeWhile isBlank) ++
              tail.dropWhile isBlank) := by
            rw [hcs, List.cons_append, List.takeWhile_append_dropWhile]
        _ = _ := by simp [hlast]
    next => cases h
  next => cases h

theorem leads_joinParts (cs : List Char) : leads (joinParts (aliasParts cs)) = leads cs := by
  fun_cases aliasParts cs with
  | case1 => rfl
  | case2 c cs rest h =>
    rw [joinParts_nil_cons (aliasParts_ne_nil rest)]
    exact (isBlank_of_afterAs? h).1.symm
  | case3 c cs h =>
    rw [joinParts_consHead (aliasParts_ne_nil cs)]
    rfl

theorem joinParts_ne_nil {cs : List Char} (h : cs ≠ []) : joinParts (aliasParts cs) ≠ [] := by
  fun_cases aliasParts cs with
  | case1 => exact h
  | case2 c cs rest hr =>
    rw [joinParts_nil_cons (aliasParts_ne_nil rest)]
    simp
  | case3 c cs hr =>
    rw [joinParts_consHead (aliasParts_ne_nil cs)]
    simp

/-- Whether a text ends with a blank. -/
def trails (cs : List Char) : Bool := cs.getLast?.any isBlank

theorem trails_append {ys : List Char} (h : ys ≠ []) (xs : List Char) :
    trails (xs ++ ys) = trails ys := by
  unfold trails
  rw [List.getLast?_append, List.getLast?_eq_some_getLast h]
  rfl

theorem trails_joinParts (cs : List Char) : trails (joinParts (aliasParts cs)) = trails cs := by
  fun_induction aliasParts cs with
  | case1 => rfl
  | case2 c cs rest hr ih =>
    rw [joinParts_nil_cons (aliasParts_ne_nil rest)]
    obtain ⟨-, front, b, rfl, hb⟩ := nextAs?_some (isBlank_of_afterAs? hr).2
    -- with nothing behind the word, both texts end with the blank that ends the word
    by_cases hrest : rest = []
    · subst hrest
      rw [← List.cons_append, trails_append (by simp)]
      simpa [joinParts, trails, hb] using (by decide : isBlank ' ' = true)
    · rw [← List.cons_append, show b :: rest = [b] ++ rest from rfl, ← List.append_assoc,
        trails_append hrest, ← ih]
      exact trails_append (joinParts_ne_nil hrest) [' ', 'a', 's', ' ']
  | case3 c cs hr ih =>
    rw [joinParts_consHead (aliasParts_ne_nil cs)]
    by_cases hcs : cs = []
    · subst hcs
      simp [joinParts]
    · rw [show c :: cs = [c] ++ cs from rfl, trails_append hcs, ← ih]
      exact trails_append (joinParts_ne_nil hcs) [c]

theorem not_blank_of_isSmallS {c : Char} (h : isSmallS c = true) : isBlank c = false := by
  simp only [isSmallS, Bool.or_eq_true, decide_eq_true_eq] at h
  rcases h with (rfl | rfl) | rfl <;> decide

/-- What stands at the front of the joined parts stood there before, up to the kind of a blank. -/
theorem front_of_joinParts {cs rest : List Char} {s b : Char}
    (h : joinParts (aliasParts cs) = s :: b :: rest) (hs : isBlank s = false) :
    ∃ t e tail, cs = t :: e :: tail ∧ s = t ∧ isBlank e = isBlank b := by
  have hhead := leads_joinParts cs
  rw [h] at hhead
  cases cs with
  | nil => simp [joinParts] at h
  | cons t cs =>
    simp only [leads, List.head?_cons, Option.any_some, hs] at hhead
    have hnone : afterAs? (t :: cs) = none := by
      rw [afterAs?_cons, ← hhead]
      rfl
    rw [aliasParts_of_none hnone, joinParts_consHead (aliasParts_ne_nil cs)] at h
    obtain ⟨rfl, hrest⟩ := List.cons.inj h
    have hnext := leads_joinParts cs
    rw [hrest] at hnext
    cases cs with
    | nil => simp [joinParts] at hrest
    | cons e tail => exact ⟨t, e, tail, rfl, rfl, by simpa [leads] using hnext.symm⟩

theorem nextAs?_joinParts {cs : List Char} (h : nextAs? cs = none) :
    nextAs? (joinParts (aliasParts cs)) = none := by
  fun_induction aliasParts cs with
  | case1 => rfl
  | case2 c cs rest hr =>
    obtain ⟨hc, hn⟩ := isBlank_of_afterAs? hr
    rw [nextAs?_blank hc, hn] at h
    cases h
  | case3 c cs hr ih =>
    rw [joinParts_consHead (aliasParts_ne_nil cs)]
    cases hc : isBlank c with
    | true =>
      rw [nextAs?_blank hc] at h ⊢
      exact ih h
    | false =>
      rw [nextAs?_of_not_blank hc] at h ⊢
      split
      next s b rest hx =>
        -- the two characters that would spell the word stand at the front of `cs` as well
        by_cases hw : ((c = 'a' || c = 'A') && isSmallS s && isBlank b) = true
        · obtain ⟨t, e, tail, rfl, hs, he⟩ := front_of_joinParts hx (not_blank_of_isSmallS (by
            simp only [Bool.and_eq_true] at hw
            exact hw.1.2))
          rw [hs, ← he] at hw
          simp [hw] at h
        · rw [if_neg hw]
      next => rfl

theorem aliasParts_joinParts (cs : List Char) :
    aliasParts (joinParts (aliasParts cs)) = aliasParts cs := by
  fun_induction aliasParts cs with
  | case1 => simp [joinParts]
  | case2 c cs rest hr ih =>
    have hlead : leads (joinParts (aliasParts rest)) = false := by
      rw [leads_joinParts]
      exact (nextAs?_some (isBlank_of_afterAs? hr).2).1
    have hnext : afterAs? (' ' :: 'a' :: 's' :: ' ' :: joinParts (aliasParts rest)) =
        some (joinParts (aliasParts rest)) := by
      have hspace : isBlank ' ' = true := by decide
      rw [afterAs?_cons, if_pos hspace, nextAs?_of_not_blank (by decide)]
      simp only [hspace, dropWhile_of_leads hlead]
      rfl
    rw [joinParts_nil_cons (aliasParts_ne_nil rest), aliasParts_of_some hnext, ih]
  | case3 c cs hr ih =>
    rw [joinParts_consHead (aliasParts_ne_nil cs)]
    have hnone : afterAs? (c :: joinParts (aliasParts cs)) = none := by
      rw [afterAs?_cons] at hr ⊢
      split
      next hc =>
        rw [if_pos hc] at hr
        exact nextAs?_joinParts hr
      next => rfl
    rw [aliasParts_of_none hnone, ih]

theorem leads_of_begins {xs ys : List Char} (h : xs <+: ys) (hy : leads ys = false) :
    leads xs = false := by
  obtain ⟨rest, rfl⟩ := h
  cases xs with
  | nil => rfl
  | cons x xs => exact hy

theorem ends_trim (cs : List Char) : leads (trim cs) = false ∧ trails (trim cs) = false := by
  unfold trim trimRight
  constructor
  · refine leads_of_begins ?_ (leads_dropWhile cs)
    rw [← List.reverse_suffix, List.reverse_reverse]
    exact List.dropWhile_suffix isBlank
  · unfold trails
    rw [List.getLast?_reverse]
    exact leads_dropWhile _

theorem trim_of_ends {cs : List Char} (hl : leads cs = false) (ht : trails cs = false) :
    trim cs = cs := by
  have hreverse : leads cs.reverse = false := by
    unfold leads
    rwa [List.head?_reverse]
  unfold trim trimRight
  rw [dropWhile_of_leads hl, dropWhile_of_leads hreverse, List.reverse_reverse]

theorem entryParts_normalizeEntry (entry : String) :
    entryParts (normalizeEntry entry) = entryParts entry := by
  unfold normalizeEntry entryParts
  rw [String.toList_ofList]
  change aliasParts (trim (joinParts (aliasParts (trim entry.toList)))) = _
  obtain ⟨hl, ht⟩ := ends_trim entry.toList
  rw [trim_of_ends (by rwa [leads_joinParts]) (by rwa [trails_joinParts]), aliasParts_joinParts]

theorem not_isWordChar_of_isBlank {c : Char} (h : isBlank c = true) : isWordChar c = false := by
  have hc : c.toNat ∈ [9, 10, 11, 12, 13, 28, 29, 30, 31, 32, 0x85, 0xA0, 0x1680, 0x2000, 0x2001,
      0x2002, 0x2003, 0x2004, 0x2005, 0x2006, 0x2007, 0x2008, 0x2009, 0x200A, 0x2028, 0x2029,
      0x202F, 0x205F, 0x3000] := by
    simp only [isBlank, Bool.or_eq_true, Bool.and_eq_true, decide_eq_true_eq, beq_iff_eq] at h
    simp only [List.mem_cons, List.not_mem_nil, or_false]
    omega
  have hall : ∀ n ∈ [9, 10, 11, 12, 13, 28, 29, 30, 31, 32, 0x85, 0xA0, 0x1680, 0x2000, 0x2001,
      0x2002, 0x2003, 0x2004, 0x2005, 0x2006, 0x2007, 0x2008, 0x2009, 0x200A, 0x2028, 0x2029,
      0x202F, 0x205F, 0x3000], isWordChar (Char.ofNat n) = false := by decide +kernel
  have hone := hall _ hc
  rwa [Char.ofNat_toNat] at hone

theorem not_blank_of_isWord {cs : List Char} (h : isWord cs = true) {c : Char} (hc : c ∈ cs) :
    isBlank c = false := by
  simp only [isWord, Bool.and_eq_true, List.all_eq_true] at h
  cases hb : isBlank c with
  | false => rfl
  | true => cases (not_isWordChar_of_isBlank hb).symm.trans (h.2 c hc)

namespace Select

theorem not_blank_of_isReference {cs : List Char} (h : isReference cs = true) {c : Char}
    (hc : c ∈ cs) : isBlank c = false := by
  unfold isReference at h
  split at h
  next table column hcut =>
    rw [Bool.and_eq_true] at h
    rw [(eq_of_cutList hcut).1] at hc
    rcases List.mem_append.mp hc with ht | hr
    · exact not_blank_of_isWord h.1 ht
    · rcases List.mem_cons.mp hr with rfl | hk
      · decide
      · exact not_blank_of_isWord h.2 hk
  next => cases h

end Select

theorem aliasParts_of_no_blank {cs : List Char} (h : ∀ c ∈ cs, isBlank c = false) :
    aliasParts cs = [cs] := by
  induction cs with
  | nil => exact aliasParts_nil
  | cons c cs ih =>
    have hnone : afterAs? (c :: cs) = none := by
      rw [afterAs?_cons, if_neg (by simp [h c (by simp)])]
    rw [aliasParts_of_none hnone, ih fun c hc => h c (by simp [hc])]
    rfl

/-- The source of a select entry; an entry without an alias is its own. -/
def entrySource (entry : String) : String := ((sourceAndAlias? entry).map (·.1)).getD entry

/-- The column that a source text names, unless it is raw text. -/
def Select.reference? (source : String) : Option String :=
  if isReference (trim source.toList) then some (stripped source) else none

/-- The column that a select entry names, unless its source is raw text. -/
def Select.entryColumn? (entry : String) : Option String := reference? (entrySource entry)

theorem sourceAndAlias?_normalizeEntry (entry : String) :
    sourceAndAlias? (normalizeEntry entry) = sourceAndAlias? entry := by
  unfold sourceAndAlias?
  rw [entryParts_normalizeEntry]

theorem toList_normalizeEntry (entry : String) :
    (normalizeEntry entry).toList = joinParts (entryParts entry) := by
  unfold normalizeEntry joinParts
  rw [String.toList_ofList]

theorem trim_normalizeEntry (entry : String) :
    trim (normalizeEntry entry).toList = (normalizeEntry entry).toList := by
  obtain ⟨hl, ht⟩ := ends_trim entry.toList
  rw [toList_normalizeEntry]
  exact trim_of_ends (by rwa [entryParts, leads_joinParts]) (by rwa [entryParts, trails_joinParts])

theorem trim_of_entryParts {entry : String} {cs : List Char} (h : entryParts entry = [cs]) :
    trim entry.toList = cs := by
  have hparts : ∀ xs : List Char, ∀ cs, aliasParts xs = [cs] → xs = cs := by
    intro xs
    fun_induction aliasParts xs with
    | case1 =>
      intro cs he
      exact List.head_eq_of_cons_eq he
    | case2 c xs rest hr ih =>
      intro cs he
      exact absurd (List.tail_eq_of_cons_eq he) (aliasParts_ne_nil rest)
    | case3 c xs hr ih =>
      intro cs he
      obtain ⟨p, ps, hp⟩ := List.exists_cons_of_ne_nil (aliasParts_ne_nil xs)
      rw [hp] at he
      obtain ⟨rfl, rfl⟩ := List.cons.inj he
      rw [ih p hp]
  exact hparts _ _ h

theorem entryParts_of_isReference {entry : String}
    (h : Select.isReference (trim entry.toList) = true) :
    entryParts entry = [trim entry.toList] :=
  aliasParts_of_no_blank fun _ hc => Select.not_blank_of_isReference h hc

theorem Select.reference?_of_trim {source other : String}
    (h : trim source.toList = trim other.toList) : reference? source = reference? other := by
  unfold reference? stripped
  rw [h]

theorem Select.entryColumn?_normalizeEntry (entry : String) :
    entryColumn? (normalizeEntry entry) = entryColumn? entry := by
  unfold entryColumn? entrySource
  rw [sourceAndAlias?_normalizeEntry]
  cases sourceAndAlias? entry with
  | some pair => rfl
  | none =>
    simp only [Option.map_none, Option.getD_none]
    have hone : ∀ cs, entryParts entry = [cs] →
        trim (normalizeEntry entry).toList = trim entry.toList := by
      intro cs hcs
      rw [trim_normalizeEntry, toList_normalizeEntry, hcs, trim_of_entryParts hcs]
      exact List.intercalate_singleton
    -- a reference has no blank, so it is the only part of its entry
    have hparts : isReference (trim (normalizeEntry entry).toList) = true →
        entryParts entry = [trim (normalizeEntry entry).toList] := by
      intro h
      rw [← entryParts_normalizeEntry]
      exact entryParts_of_isReference h
    by_cases hn : isReference (trim (normalizeEntry entry).toList) = true
    · exact reference?_of_trim (hone _ (hparts hn))
    · by_cases hp : isReference (trim entry.toList) = true
      · exact reference?_of_trim (hone _ (entryParts_of_isReference hp))
      · unfold reference?
        rw [if_neg hn, if_neg hp]

theorem Select.findOutput_eq (q : Select) (entry : String) : q.findOutput entry =
    (q.findExpr (entrySource entry)).map (⟨·, (sourceAndAlias? entry).map (·.2)⟩) := by
  unfold findOutput entrySource
  cases sourceAndAlias? entry <;> rfl

theorem Select.findOutput_ok_iff {q : Select} {entry : String} :
    (∃ o, q.findOutput entry = .ok o) ↔
      ∀ column ∈ entryColumn? entry, ∃ c, q.findColumn column = .ok c := by
  rw [findOutput_eq]
  unfold entryColumn? reference? findExpr
  split
  next =>
    simp only [Option.mem_some_iff, forall_eq']
    cases q.findColumn (stripped (entrySource entry)) with
    | ok c => exact ⟨fun _ => ⟨c, rfl⟩, fun _ => ⟨_, rfl⟩⟩
    | error e => exact ⟨nofun, nofun⟩
  next => exact ⟨fun _ _ h => (nomatch h), fun _ => ⟨_, rfl⟩⟩

theorem Select.findOutputs_ok_iff {q : Select} {entries : List String} :
    (∃ os, q.findOutputs entries = .ok os) ↔
      ∀ entry ∈ entries, ∀ column ∈ entryColumn? entry, ∃ c, q.findColumn column = .ok c := by
  induction entries with
  | nil => exact ⟨fun _ _ h => (nomatch h), fun _ => ⟨[], rfl⟩⟩
  | cons entry entries ih =>
    rw [List.forall_mem_cons, ← ih, ← findOutput_ok_iff]
    constructor
    · rintro ⟨os, h⟩
      obtain ⟨o, ho, h⟩ := ok_of_bind h
      obtain ⟨os, hos, -⟩ := ok_of_bind h
      exact ⟨⟨o, ho⟩, os, hos⟩
    · rintro ⟨⟨o, ho⟩, os, hos⟩
      exact ⟨o :: os, by unfold findOutputs; rw [ho, hos]; rfl⟩

end Winnow
