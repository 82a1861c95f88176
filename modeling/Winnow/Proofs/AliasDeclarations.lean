import Winnow.Proofs.TextReach
import Winnow.Proofs.EntryNormalForm

namespace Winnow

/-- Whether two characters spell the word `as`, in any case. -/
def spellsAs (x y : Char) : Bool := (x = 'a' || x = 'A') && isSmallS y

/-- Whether a text begins with a blank and the word `as`, at its end or before a blank. -/
def beginsAs : List Char → Bool
  | b :: x :: y :: rest => isBlank b && spellsAs x y && rest.head?.all isBlank
  | _ => false

/-- Whether a text holds the word `as` behind a blank, at its end or before a blank. -/
def holdsAs : List Char → Bool
  | [] => false
  | c :: cs => beginsAs (c :: cs) || holdsAs cs

/-- A source, the word `as` and a name with blanks between them. -/
structure Declaration where
  source : String
  before : List Char
  a : Char
  s : Char
  behind : List Char
  name : String
  source_ne : source ≠ ""
  source_ends : leads source.toList = false ∧ trails source.toList = false
  before_blank : before ≠ [] ∧ ∀ c ∈ before, isBlank c = true
  word : spellsAs a s = true
  behind_blank : behind ≠ [] ∧ ∀ c ∈ behind, isBlank c = true
  name_ne : name ≠ ""
  name_word : ∀ c ∈ name.toList, isBlank c = false

namespace Declaration

/-- What follows the source. -/
def tail (d : Declaration) : List Char := d.before ++ d.a :: d.s :: (d.behind ++ d.name.toList)

/-- The select entry that says it. -/
def entry (d : Declaration) : String := String.ofList (d.source.toList ++ d.tail)

end Declaration

/-- The source that an entry gives to an alias. -/
def declared? (name entry : String) : Option String :=
  (sourceAndAlias? entry).bind fun p => if p.2 = name then some p.1 else none

section Parts

variable {b x y : Char} {cs gap rest : List Char}

theorem not_blank_of_spellsAs (h : spellsAs x y = true) : isBlank x = false := by
  simp only [spellsAs, Bool.and_eq_true, Bool.or_eq_true, decide_eq_true_eq] at h
  rcases h.1 with rfl | rfl <;> decide

theorem ends_of_no_blank (h : ∀ c ∈ cs, isBlank c = false) :
    leads cs = false ∧ trails cs = false := by
  constructor
  · cases cs with
    | nil => rfl
    | cons c cs => exact h c (by simp)
  · unfold trails
    cases hlast : cs.getLast? with
    | none => rfl
    | some c => exact h c (List.mem_of_getLast? hlast)

theorem nextAs?_append (h : ∀ c ∈ gap, isBlank c = true) (cs : List Char) :
    nextAs? (gap ++ cs) = nextAs? cs := by
  induction gap with
  | nil => rfl
  | cons c gap ih =>
    obtain ⟨hc, hgap⟩ := List.forall_mem_cons.mp h
    rw [List.cons_append, nextAs?_blank hc, ih hgap]

theorem nextAs?_word (hw : spellsAs x y = true) (hb : isBlank b = true) (cs : List Char) :
    nextAs? (x :: y :: b :: cs) = some (cs.dropWhile isBlank) := by
  rw [nextAs?_of_not_blank (not_blank_of_spellsAs hw)]
  exact if_pos (by rw [hb, Bool.and_true]; exact hw)

/-- Inside a text that does not hold the word and ends without a blank, the word does not come
next, whatever follows behind a blank. -/
theorem nextAs?_inside (hb : isBlank b = true) (h : holdsAs (b :: cs) = false)
    (ht : trails (b :: cs) = false) (hr : leads rest = true) : nextAs? (cs ++ rest) = none := by
  induction cs generalizing b with
  | nil => simp [trails, hb] at ht
  | cons c cs ih =>
    have hrest : holdsAs (c :: cs) = false := (Bool.or_eq_false_iff.mp h).2
    rw [List.cons_append]
    cases hc : isBlank c with
    | true =>
      rw [nextAs?_blank hc]
      rw [show b :: c :: cs = [b] ++ c :: cs from rfl, trails_append (by simp)] at ht
      exact ih hc hrest ht
    | false =>
      rw [nextAs?_of_not_blank hc]
      split
      next s e more heq =>
        refine if_neg fun hw => ?_
        simp only [Bool.and_eq_true] at hw
        cases cs with
        | nil =>
          -- the second letter would be the blank that follows
          rw [List.nil_append] at heq
          have hs : isBlank s = true := by simpa [heq, leads] using hr
          cases (not_blank_of_isSmallS hw.1.2).symm.trans hs
        | cons s' tail =>
          obtain ⟨rfl, hmore⟩ := List.cons.inj heq
          have hend : tail.head?.all isBlank = true := by
            cases tail with
            | nil => rfl
            | cons t tail =>
              obtain ⟨rfl, -⟩ := List.cons.inj hmore
              exact hw.2
          have hbegins : beginsAs (b :: c :: s' :: tail) = true := by
            simp only [beginsAs, spellsAs, hb, hw.1.1, hw.1.2, hend, Bool.and_self]
          cases (Bool.or_eq_false_iff.mp h).1.symm.trans hbegins
      next => rfl

theorem trails_of_cons {c : Char} (h : trails (c :: cs) = false) : trails cs = false := by
  cases cs with
  | nil => rfl
  | cons d cs => rwa [show c :: d :: cs = [c] ++ d :: cs from rfl, trails_append (by simp)] at h

theorem aliasParts_append {part : List Char} {parts : List (List Char)}
    (h : holdsAs cs = false) (ht : trails cs = false) (hr : leads rest = true)
    (hparts : aliasParts rest = part :: parts) :
    aliasParts (cs ++ rest) = (cs ++ part) :: parts := by
  induction cs with
  | nil => exact hparts
  | cons c cs ih =>
    have hnone : afterAs? (c :: (cs ++ rest)) = none := by
      rw [afterAs?_cons]
      split
      next hc => exact nextAs?_inside hc h ht hr
      next => rfl
    rw [List.cons_append, aliasParts_of_none hnone,
      ih (Bool.or_eq_false_iff.mp h).2 (trails_of_cons ht)]
    rfl

theorem length_lt_of_holdsAs (h : holdsAs cs = true) (hr : leads rest = true) :
    ∃ part parts, aliasParts (cs ++ rest) = part :: parts ∧ part.length < cs.length := by
  induction cs with
  | nil => cases h
  | cons c cs ih =>
    rw [List.cons_append]
    cases hnext : afterAs? (c :: (cs ++ rest)) with
    | some more => exact ⟨[], _, aliasParts_of_some hnext, Nat.succ_pos _⟩
    | none =>
      have hnot : beginsAs (c :: cs) = false := by
        by_contra hbegins
        rw [Bool.not_eq_false] at hbegins
        unfold beginsAs at hbegins
        split at hbegins
        next b x y tail heq =>
          obtain ⟨rfl, rfl⟩ := List.cons.inj heq
          simp only [Bool.and_eq_true] at hbegins
          obtain ⟨e, more, hmore, he⟩ : ∃ e more, tail ++ rest = e :: more ∧ isBlank e = true := by
            cases tail with
            | nil =>
              cases rest with
              | nil => cases hr
              | cons e more => exact ⟨e, more, rfl, by simpa [leads] using hr⟩
            | cons e tail => exact ⟨e, tail ++ rest, rfl, by simpa using hbegins.2⟩
          rw [afterAs?_cons, if_pos hbegins.1.1, List.cons_append, List.cons_append, hmore,
            nextAs?_word hbegins.1.2 he] at hnext
          cases hnext
        next => cases hbegins
      have hlater : holdsAs cs = true := by simpa [holdsAs, hnot] using h
      obtain ⟨part, parts, hparts, hlt⟩ := ih hlater
      refine ⟨c :: part, parts, ?_, Nat.succ_lt_succ hlt⟩
      rw [aliasParts_of_none hnext, hparts]
      rfl

end Parts

theorem sourceAndAlias?_eq_some_iff {entry source name : String} :
    sourceAndAlias? entry = some (source, name) ↔
      entryParts entry = [source.toList, name.toList] ∧ source ≠ "" ∧ name ≠ "" := by
  unfold sourceAndAlias?
  constructor
  · intro h
    split at h
    next a as b bs hparts =>
      obtain ⟨rfl, rfl⟩ := Prod.mk.inj (Option.some.inj h)
      refine ⟨by rw [hparts, String.toList_ofList, String.toList_ofList], ?_, ?_⟩ <;>
        exact fun he => by simpa using congrArg String.toList he
    next => cases h
  · rintro ⟨hparts, hs, hn⟩
    have cons_of_ne : ∀ t : String, t ≠ "" → ∃ c cs, t.toList = c :: cs := fun t ht =>
      List.exists_cons_of_ne_nil fun he => ht (String.toList_eq_nil_iff.mp he)
    obtain ⟨a, as, has⟩ := cons_of_ne source hs
    obtain ⟨b, bs, hbs⟩ := cons_of_ne name hn
    rw [hparts, has, hbs]
    simp only [← has, ← hbs, String.ofList_toList]

namespace Declaration

variable (d : Declaration)

theorem leads_tail : leads d.tail = true := by
  obtain ⟨c, before, hc⟩ := List.exists_cons_of_ne_nil d.before_blank.1
  have hblank : isBlank c = true := d.before_blank.2 c (by simp [hc])
  simp [tail, hc, leads, hblank]

theorem aliasParts_tail : aliasParts d.tail = [[], d.name.toList] := by
  obtain ⟨c, before, hc⟩ := List.exists_cons_of_ne_nil d.before_blank.1
  obtain ⟨b, behind, hb⟩ := List.exists_cons_of_ne_nil d.behind_blank.1
  have hbefore := d.before_blank.2
  have hbehind := d.behind_blank.2
  rw [hc, List.forall_mem_cons] at hbefore
  rw [hb, List.forall_mem_cons] at hbehind
  have hafter : afterAs? (c :: (before ++ d.a :: d.s :: b :: (behind ++ d.name.toList))) =
      some d.name.toList := by
    rw [afterAs?_cons, if_pos hbefore.1, nextAs?_append hbefore.2, nextAs?_word d.word hbehind.1,
      List.dropWhile_append_of_pos hbehind.2, dropWhile_of_leads (ends_of_no_blank d.name_word).1]
  rw [tail, hc, hb, List.cons_append, List.cons_append, aliasParts_of_some hafter,
    aliasParts_of_no_blank d.name_word]

theorem entryParts_entry : entryParts d.entry = aliasParts (d.source.toList ++ d.tail) := by
  have hsource : d.source.toList ≠ [] := fun he => d.source_ne (String.toList_eq_nil_iff.mp he)
  have hname : d.name.toList ≠ [] := fun he => d.name_ne (String.toList_eq_nil_iff.mp he)
  have hl : leads (d.source.toList ++ d.tail) = false := by
    obtain ⟨c, cs, hc⟩ := List.exists_cons_of_ne_nil hsource
    have h := d.source_ends.1
    rw [hc] at h ⊢
    exact h
  have ht : trails (d.source.toList ++ d.tail) = false := by
    rw [show d.source.toList ++ d.tail =
      (d.source.toList ++ d.before ++ d.a :: d.s :: d.behind) ++ d.name.toList by simp [tail],
      trails_append hname, (ends_of_no_blank d.name_word).2]
  rw [entryParts, entry, String.toList_ofList, trim_of_ends hl ht]

theorem sourceAndAlias?_entry :
    sourceAndAlias? d.entry = some (d.source, d.name) ↔ holdsAs d.source.toList = false := by
  rw [sourceAndAlias?_eq_some_iff, entryParts_entry]
  constructor
  · rintro ⟨hparts, -⟩
    by_contra h
    rw [Bool.not_eq_false] at h
    obtain ⟨part, parts, hsplit, hlt⟩ := length_lt_of_holdsAs h d.leads_tail
    rw [hparts] at hsplit
    obtain ⟨rfl, -⟩ := List.cons.inj hsplit
    exact Nat.lt_irrefl _ hlt
  · intro h
    refine ⟨?_, d.source_ne, d.name_ne⟩
    rw [aliasParts_append h d.source_ends.2 d.leads_tail d.aliasParts_tail, List.append_nil]

end Declaration

namespace AliasMap

theorem lookup_ofEntries (entries : List String) (name : String) :
    (ofEntries entries).lookup name = entries.reverse.findSome? (declared? name) := by
  have hfold : ∀ m : AliasMap, ((entries.filterMap sourceAndAlias?).foldl
      (fun m p => put p.2 p.1 m) m).lookup name =
        (entries.reverse.findSome? (declared? name)).or (m.lookup name) := by
    induction entries with
    | nil => exact fun _ => rfl
    | cons e entries ih =>
      intro m
      rw [List.reverse_cons, List.findSome?_append, List.findSome?_singleton, Option.or_assoc]
      cases hp : sourceAndAlias? e with
      | none =>
        rw [List.filterMap_cons_none hp, ih, declared?, hp, Option.bind_none, Option.none_or]
      | some p =>
        rw [List.filterMap_cons_some hp, List.foldl_cons, ih, lookup_put, declared?, hp,
          Option.bind_some]
        by_cases hn : name = p.2
        · rw [if_pos hn, if_pos hn.symm, Option.some_or]
        · rw [if_neg hn, if_neg (Ne.symm hn), Option.none_or]
  exact (hfold []).trans Option.or_none

end AliasMap

/-- A reference that is read as a field of a relation with a hop: one that the relation offers and
that is not in the list of columns to be used as they are. -/
structure Catalog.Offers (cat : Catalog) (use : Use) (given relation field : String)
    (rel : Relation) : Prop where
  unlisted : given ∉ cat.allowed use
  offered : cat.book.offeredField? use given = some (relation, field)
  known : cat.book.relation? (.text relation) = some rel
  hops : cat.hops rel ≠ []

section Offers

variable {cat : Catalog} {use : Use} {given relation field source : String} {rel : Relation}

theorem Catalog.fieldOf?_of_lookup (known : cat.book.relation? (.text relation) = some rel)
    (hhops : cat.hops rel ≠ [])
    (hs : (AliasMap.ofEntries rel.entries).lookup field = some source) :
    cat.book.fieldOf? relation field = some ⟨source, .aliased, some relation⟩ := by
  have haliases : cat.book.aliasMap (.named (.text relation)) = AliasMap.ofEntries rel.entries := by
    simp only [RelationBook.aliasMap, RelationBook.relationOf?, known]
  unfold RelationBook.fieldOf? RelationBook.fieldOf Route.target
  rw [Catalog.hops_of_relation? known, List.getLast?_eq_some_getLast hhops, haliases]
  simp only [Option.map_some, hs]

theorem Catalog.Offers.columnOf? (h : cat.Offers use given relation field rel)
    (hs : (AliasMap.ofEntries rel.entries).lookup field = some source) :
    cat.columnOf? use given = some ⟨source, .aliased, some relation⟩ := by
  unfold Catalog.columnOf? RelationBook.columnOf?
  rw [if_neg h.unlisted, h.offered, Option.bind_some]
  exact Catalog.fieldOf?_of_lookup h.known h.hops hs

end Offers

/-- An entry that declares an alias is read as its source and its alias exactly if the source does
not hold the word `as` itself. Where no later entry of a relation declares the alias again, the
alias then stands for the source, and so does a reference to it by which a client filters or sorts.
-/
theorem Declaration.read_iff (d : Declaration) :
    (sourceAndAlias? d.entry = some (d.source, d.name) ↔ holdsAs d.source.toList = false) ∧
      ∀ earlier later : List String, holdsAs d.source.toList = false →
        (∀ e ∈ later, declared? d.name e = none) →
        (AliasMap.ofEntries (earlier ++ d.entry :: later)).lookup d.name = some d.source ∧
          ∀ (cat : Catalog) (use : Use) (given relation : String) (rel : Relation),
            rel.entries = earlier ++ d.entry :: later →
            cat.Offers use given relation d.name rel →
            cat.columnOf? use given = some ⟨d.source, .aliased, some relation⟩ := by
  refine ⟨d.sourceAndAlias?_entry, fun earlier later h hlater => ?_⟩
  have hlookup :
      (AliasMap.ofEntries (earlier ++ d.entry :: later)).lookup d.name = some d.source := by
    have hlast : later.reverse.findSome? (declared? d.name) = none :=
      List.findSome?_eq_none_iff.mpr fun e he => hlater e (List.mem_reverse.mp he)
    rw [AliasMap.lookup_ofEntries, List.reverse_append, List.reverse_cons, List.append_assoc,
      List.findSome?_append, hlast, Option.none_or, List.singleton_append, List.findSome?_cons,
      declared?, d.sourceAndAlias?_entry.mpr h, Option.bind_some, if_pos rfl]
  refine ⟨hlookup, fun cat use given relation rel hentries hoffers => hoffers.columnOf? ?_⟩
  rw [hentries]
  exact hlookup

def photoEntry : Declaration where
  source := "COALESCE(user_pictures.path, '')"
  before := ['\t']
  a := 'A'
  s := 's'
  behind := [' ', ' ']
  name := "photo"
  source_ne := by decide
  source_ends := by decide +kernel
  before_blank := ⟨by decide, List.all_eq_true.mp (by decide)⟩
  word := by decide
  behind_blank := ⟨by decide, List.all_eq_true.mp (by decide)⟩
  name_ne := by decide
  name_word c hc := eq_false_of_ne_true (List.any_eq_false.mp (by decide +kernel) c hc)

def sizeEntry : Declaration where
  source := "CAST(user_pictures.width AS TEXT)"
  before := [' ']
  a := 'A'
  s := 'S'
  behind := [' ']
  name := "size"
  source_ne := by decide
  source_ends := by decide +kernel
  before_blank := ⟨by decide, List.all_eq_true.mp (by decide)⟩
  word := by decide
  behind_blank := ⟨by decide, List.all_eq_true.mp (by decide)⟩
  name_ne := by decide
  name_word c hc := eq_false_of_ne_true (List.any_eq_false.mp (by decide +kernel) c hc)

def Relation.sized : Relation where
  chain := [("users.pic_id", "user_pictures.id")]
  entries := ["user_pictures.path as photo", photoEntry.entry, sizeEntry.entry]
  filterable := ["photo", "size"]

def Catalog.ofSized : Catalog where
  book := ⟨"users", [("profile", .sized)]⟩

theorem read_iff_photo :
    sourceAndAlias? photoEntry.entry = some ("COALESCE(user_pictures.path, '')", "photo") ∧
      Catalog.ofSized.columnOf? .filter "profile.photo" =
        some ⟨"COALESCE(user_pictures.path, '')", .aliased, some "profile"⟩ := by
  have hplain : holdsAs photoEntry.source.toList = false := by decide +kernel
  have hlater : ∀ e ∈ [sizeEntry.entry], declared? photoEntry.name e = none := by decide +kernel
  have hoffers : Catalog.ofSized.Offers .filter "profile.photo" "profile" photoEntry.name .sized :=
    ⟨by decide, by decide +kernel, rfl, by decide +kernel⟩
  obtain ⟨hread, hcolumn⟩ := Declaration.read_iff photoEntry
  obtain ⟨-, hfound⟩ := hcolumn ["user_pictures.path as photo"] [sizeEntry.entry] hplain hlater
  exact ⟨hread.mpr hplain, hfound _ _ _ _ _ rfl hoffers⟩

/-- The size is not read as a declaration, and a filter on it tests another column. -/
theorem size_not_read :
    sizeEntry.entry = "CAST(user_pictures.width AS TEXT) AS size" ∧
      sourceAndAlias? sizeEntry.entry = none ∧
      Catalog.ofSized.columnOf? .filter "profile.size" =
        some ⟨"user_pictures.size", .relation, some "profile"⟩ :=
  ⟨by decide +kernel, by decide +kernel, by decide +kernel⟩

end Winnow
