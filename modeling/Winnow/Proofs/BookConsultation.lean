import Winnow.Proofs.DeskRuns

namespace Winnow.RelationBook

/-- What a book may be asked, or told. -/
inductive Question where
  | route (ref : RelationRef)
  | aliases (ref : RelationRef)
  | relation (name : RelationName)
  | forget
  deriving DecidableEq

/-- What an answer says. -/
inductive Reply where
  | route (r : Route)
  | aliases (names : AliasMap)
  | relation (found : Option Relation)
  | refused (e : Failure)
  | done

/-- What an answer says, with the stamp of the object that says it, if the book made one. -/
structure Answer where
  reply : Reply
  stamp : Option Nat := none

variable {book : RelationBook} {m : Memory} {q kept : Question} {n : Nat}

/-- The answer of a consultation and the memory after it; one that fails leaves the memory alone.
-/
def answered {α : Type} (say : α → Reply) (m : Memory) :
    Except Failure (Found (Kept α)) → Answer × Memory
  | .ok found => (⟨say found.answer.value, some found.answer.stamp⟩, found.memory)
  | .error e => (⟨.refused e, none⟩, m)

namespace Question

/-- A question's answer and the memory after it. -/
def ask (book : RelationBook) (m : Memory) : Question → Answer × Memory
  | route ref => answered .route m (book.consult ref m)
  | aliases ref => answered .aliases m (book.consultAliases ref m)
  | relation name => (⟨.relation (book.relation? name), none⟩, m)
  | forget => (⟨.done, none⟩, m.clear)

/-- What the relations alone say to a question. -/
def reply (book : RelationBook) : Question → Reply
  | route (.unnameable kind) | aliases (.unnameable kind) => .refused (.unnameable kind)
  | route ref => .route (book.route ref)
  | aliases ref => .aliases (book.aliasMap ref)
  | relation name => .relation (book.relation? name)
  | forget => .done

/-- Whether a question is one for the route or the aliases of a registered name. -/
def IsRegistered (book : RelationBook) (q : Question) : Prop :=
  ∃ name, (book.relation? name).isSome ∧ (q = route (.named name) ∨ q = aliases (.named name))

/-- Whether a question is one about a relation given on the spot or about an unknown name. -/
def IsForeign (book : RelationBook) (q : Question) : Prop :=
  ∃ ref, (∀ name, ref = .named name → book.relation? name = none) ∧
    (q = route ref ∨ q = aliases ref)

/-- The stamp of what is kept for a question. -/
def stampIn (m : Memory) : Question → Option Nat
  | route (.named (.text s)) => (m.routes.lookup s).map (·.stamp)
  | aliases (.named name) => (m.aliases.lookup name).map (·.stamp)
  | _ => none

end Question

open Question

/-- The memory after some questions. -/
def memoryAfter (book : RelationBook) (questions : List Question) (m : Memory) : Memory :=
  questions.foldl (fun m q => (q.ask book m).2) m

theorem memoryAfter_append (xs ys : List Question) :
    book.memoryAfter (xs ++ ys) m = book.memoryAfter ys (book.memoryAfter xs m) :=
  List.foldl_append

theorem Reaches.ask (h : book.Reaches m) (q : Question) : book.Reaches (q.ask book m).2 := by
  cases q with
  | route ref =>
    cases hr : book.consult ref m with
    | ok found => simpa only [Question.ask, hr, answered] using h.consult hr
    | error e => simpa only [Question.ask, hr, answered] using h
  | aliases ref =>
    cases hr : book.consultAliases ref m with
    | ok found => simpa only [Question.ask, hr, answered] using h.aliases hr
    | error e => simpa only [Question.ask, hr, answered] using h
  | relation name => exact h
  | forget => exact h.clear

theorem Reaches.memoryAfter (h : book.Reaches m) (questions : List Question) :
    book.Reaches (book.memoryAfter questions m) := by
  induction questions generalizing m with
  | nil => exact h
  | cons q questions ih => exact ih (h.ask q)

theorem reply_ask (h : book.Reaches m) (q : Question) : (q.ask book m).1.reply = q.reply book := by
  cases q with
  | route ref =>
    cases ref with
    | unnameable kind => rfl
    | named name => exact congrArg Reply.route (consult_answer h.faithful rfl).1
    | inline rel => exact congrArg Reply.route (consult_answer h.faithful rfl).1
  | aliases ref =>
    cases ref with
    | unnameable kind => rfl
    | named name => exact congrArg Reply.aliases (consultAliases_answer h.faithful rfl).1
    | inline rel => exact congrArg Reply.aliases (consultAliases_answer h.faithful rfl).1
  | relation name => rfl
  | forget => rfl

section Memory

variable {name : RelationName} {s : String} {rel : Relation}

theorem text_of_registered (h : (book.relation? name).isSome) :
    ∃ s rel, name = .text s ∧ book.relations.lookup s = some rel := by
  cases name with
  | text s => exact ⟨s, _, rfl, (Option.some_get h).symm⟩
  | null | bool _ | int _ | real _ => cases h

/-- The route of a registered name is the one that is kept, or it is new and kept from now on. -/
theorem consultName_kept (h : book.relations.lookup s = some rel) :
    let found := book.consultName (.text s) m
    found.answer.stamp = ((m.routes.lookup s).map (·.stamp)).getD m.next ∧
      found.memory.routes.lookup s = some found.answer ∧
      found.memory.next = if (m.routes.lookup s).isSome then m.next else m.next + 1 := by
  simp only [consultName]
  cases hk : m.routes.lookup s with
  | some kept => simp [hk]
  | none => simp [h]

theorem consultName_others (book : RelationBook) (name : RelationName) (m : Memory) :
    let found := book.consultName name m
    found.memory.aliases = m.aliases ∧ m.next ≤ found.memory.next ∧
      ∀ s, .text s ≠ name → found.memory.routes.lookup s = m.routes.lookup s := by
  unfold consultName
  split
  next s =>
    split
    next => simp
    next =>
      split
      next => simp [fresh]
      next =>
        refine ⟨rfl, Nat.le_succ _, fun t ht => ?_⟩
        rw [List.lookup_cons, beq_eq_false_iff_ne.mpr fun he => ht (congrArg _ he)]
  next => simp [fresh]

theorem consultAliasesOfName_kept (book : RelationBook) (name : RelationName) (m : Memory) :
    let found := book.consultAliasesOfName name m
    found.answer.stamp = ((m.aliases.lookup name).map (·.stamp)).getD m.next ∧
      found.memory.aliases.lookup name = some found.answer ∧
      found.memory.next = if (m.aliases.lookup name).isSome then m.next else m.next + 1 := by
  unfold consultAliasesOfName
  cases hk : m.aliases.lookup name with
  | some kept => simp [hk]
  | none => simp

theorem consultAliasesOfName_others (book : RelationBook) (name : RelationName) (m : Memory) :
    let found := book.consultAliasesOfName name m
    found.memory.routes = m.routes ∧ m.next ≤ found.memory.next ∧
      ∀ other ≠ name, found.memory.aliases.lookup other = m.aliases.lookup other := by
  unfold consultAliasesOfName
  split
  next => simp
  next =>
    refine ⟨rfl, Nat.le_succ _, fun other ho => ?_⟩
    rw [List.lookup_cons, beq_eq_false_iff_ne.mpr ho]

end Memory

/-- A question for a registered name is answered with the stamp kept for it, or with the next
stamp, which is kept for it from then on. -/
theorem ask_registered (h : q.IsRegistered book) :
    ∃ n, (q.ask book m).1.stamp = some n ∧ q.stampIn (q.ask book m).2 = some n ∧
      n = (q.stampIn m).getD m.next ∧
      (q.ask book m).2.next = if (q.stampIn m).isSome then m.next else m.next + 1 := by
  obtain ⟨name, hr, rfl | rfl⟩ := h
  · obtain ⟨s, rel, rfl, hs⟩ := text_of_registered hr
    obtain ⟨hstamp, hkept, hnext⟩ := consultName_kept (m := m) hs
    refine ⟨_, rfl, congrArg (Option.map _) hkept, hstamp, hnext.trans ?_⟩
    rw [stampIn, Option.isSome_map]
  · obtain ⟨hstamp, hkept, hnext⟩ := consultAliasesOfName_kept book name m
    refine ⟨_, rfl, congrArg (Option.map _) hkept, hstamp, hnext.trans ?_⟩
    rw [stampIn, Option.isSome_map]

theorem stampIn_ask_of_ne (hf : q ≠ .forget) (hne : kept ≠ q) :
    kept.stampIn (q.ask book m).2 = kept.stampIn m := by
  have hsame : ∀ m' : Memory, m'.routes = m.routes → m'.aliases = m.aliases →
      kept.stampIn m' = kept.stampIn m := by
    intro m' hr ha
    unfold stampIn
    split <;> simp only [hr, ha]
  cases q with
  | route ref =>
    cases ref with
    | unnameable kind => rfl
    | inline rel => exact hsame _ rfl rfl
    | named name =>
      obtain ⟨haliases, -, hroutes⟩ := consultName_others book name m
      unfold stampIn
      split
      next s =>
        have hname : RelationName.text s ≠ name := fun he => hne (by rw [he])
        exact congrArg (Option.map _) (hroutes s hname)
      next other => exact congrArg (fun l => (l.lookup other).map (·.stamp)) haliases
      next => rfl
  | aliases ref =>
    cases ref with
    | unnameable kind => rfl
    | inline rel => exact hsame _ rfl rfl
    | named name =>
      obtain ⟨hroutes, -, haliases⟩ := consultAliasesOfName_others book name m
      unfold stampIn
      split
      next s => exact congrArg (fun l => (l.lookup s).map (·.stamp)) hroutes
      next other =>
        have hname : other ≠ name := fun he => hne (by rw [he])
        exact congrArg (Option.map _) (haliases other hname)
      next => rfl
  | relation name => rfl
  | forget => exact absurd rfl hf

theorem next_le_ask (book : RelationBook) (m : Memory) (q : Question) :
    m.next ≤ (q.ask book m).2.next := by
  cases q with
  | route ref =>
    cases ref with
    | unnameable kind => exact Nat.le_refl _
    | inline rel => exact Nat.le_succ _
    | named name => exact (consultName_others book name m).2.1
  | aliases ref =>
    cases ref with
    | unnameable kind => exact Nat.le_refl _
    | inline rel => exact Nat.le_succ _
    | named name => exact (consultAliasesOfName_others book name m).2.1
  | relation name => exact Nat.le_refl _
  | forget => exact Nat.le_refl _

theorem stampIn_forget : kept.stampIn (Question.forget.ask book m).2 = none := by
  unfold stampIn
  split <;> rfl

/-- What is kept for a question, if anything, was stamped within some bounds. -/
structure Within (kept : Question) (low : Nat) (m : Memory) : Prop where
  next : low ≤ m.next
  kept : ∀ n ∈ kept.stampIn m, low ≤ n ∧ n < m.next

theorem Within.ask {low : Nat} (hk : kept.IsRegistered book) (h : Within kept low m)
    (q : Question) : Within kept low (q.ask book m).2 := by
  have hnext := next_le_ask book m q
  refine ⟨Nat.le_trans h.next hnext, fun n hn => ?_⟩
  by_cases hf : q = .forget
  · subst hf
    rw [stampIn_forget] at hn
    cases hn
  · by_cases he : kept = q
    · subst he
      obtain ⟨n', -, hafter, hn', hcount⟩ := ask_registered (m := m) hk
      obtain rfl : n' = n := Option.some.inj (hafter.symm.trans hn)
      cases hs : kept.stampIn m with
      | some old =>
        obtain rfl : n' = old := by simpa [hs] using hn'
        exact ⟨(h.kept _ hs).1, Nat.lt_of_lt_of_le (h.kept _ hs).2 hnext⟩
      | none =>
        obtain rfl : n' = m.next := by simpa [hs] using hn'
        have hone : (kept.ask book m).2.next = m.next + 1 := by simpa [hs] using hcount
        exact ⟨h.next, by omega⟩
    · rw [stampIn_ask_of_ne hf he] at hn
      exact ⟨(h.kept n hn).1, Nat.lt_of_lt_of_le (h.kept n hn).2 hnext⟩

theorem Within.memoryAfter {low : Nat} (hk : kept.IsRegistered book) (h : Within kept low m)
    (questions : List Question) : Within kept low (book.memoryAfter questions m) := by
  induction questions generalizing m with
  | nil => exact h
  | cons q questions ih => exact ih (h.ask hk q)

theorem stampIn_memoryAfter (hk : kept.IsRegistered book) {questions : List Question}
    (hf : .forget ∉ questions) (h : kept.stampIn m = some n) :
    kept.stampIn (book.memoryAfter questions m) = some n := by
  induction questions generalizing m with
  | nil => exact h
  | cons q questions ih =>
    obtain ⟨hq, hrest⟩ := not_or.mp (mt List.mem_cons.mpr hf)
    refine ih hrest ?_
    by_cases he : kept = q
    · subst he
      obtain ⟨n', -, hafter, hn', -⟩ := ask_registered (m := m) hk
      rw [hafter, hn', h]
      rfl
    · rw [stampIn_ask_of_ne (Ne.symm hq) he]
      exact h

theorem next_le_memoryAfter (book : RelationBook) (m : Memory) (questions : List Question) :
    m.next ≤ (book.memoryAfter questions m).next := by
  induction questions generalizing m with
  | nil => exact Nat.le_refl _
  | cons q questions ih => exact Nat.le_trans (next_le_ask book m q) (ih _)

/-- A question asked again is answered by the same object exactly if nothing was forgotten in
between. -/
theorem stamp_again (hk : kept.IsRegistered book) (hm : Within kept 0 m) (between : List Question) :
    (kept.ask book (book.memoryAfter between (kept.ask book m).2)).1.stamp =
      (kept.ask book m).1.stamp ↔ .forget ∉ between := by
  obtain ⟨n, hstamp, hkept, -, -⟩ := ask_registered (m := m) hk
  obtain ⟨n', hstamp', hkept', hn', -⟩ :=
    ask_registered (m := book.memoryAfter between (kept.ask book m).2) hk
  rw [hstamp, hstamp', Option.some_inj]
  constructor
  · intro he hf
    obtain ⟨early, late, rfl⟩ := List.append_of_mem hf
    have hold : n < (kept.ask book m).2.next := ((hm.ask hk kept).kept n hkept).2
    -- nothing is kept once the book forgot, so what is kept later is newer than the first answer
    have hforgot : Within kept (kept.ask book m).2.next
        (Question.forget.ask book (book.memoryAfter early (kept.ask book m).2)).2 := by
      refine ⟨next_le_memoryAfter book _ early, fun k hc => ?_⟩
      rw [stampIn_forget] at hc
      cases hc
    have hlate := (hforgot.memoryAfter hk late).ask hk kept
    rw [memoryAfter_append] at hkept'
    have hnew : (kept.ask book m).2.next ≤ n' := (hlate.kept n' hkept').1
    omega
  · intro hf
    rw [hn', stampIn_memoryAfter hk hf hkept]
    rfl

theorem Question.IsForeign.ne_registered (hf : q.IsForeign book) (hk : kept.IsRegistered book) :
    kept ≠ q := by
  obtain ⟨ref, hunknown, hq⟩ := hf
  obtain ⟨name, hname, hkept⟩ := hk
  have hne : ref ≠ .named name := by
    rintro rfl
    rw [hunknown name rfl] at hname
    cases hname
  rintro rfl
  rcases hq with rfl | rfl <;> rcases hkept with he | he <;> cases he <;> exact hne rfl

/-- Whatever a book was asked before, it says what a new book says. For a registered name the same
object is handed out again exactly if the book did not forget in between. And what is said and kept
for registered names is not changed by a question about a relation given on the spot or about an
unknown name. -/
theorem consulted_afresh (book : RelationBook) (history : List Question) :
    let m := book.memoryAfter history {}
    (∀ q : Question, (q.ask book m).1.reply = (q.ask book {}).1.reply) ∧
      (∀ q : Question, q.IsRegistered book → ∀ between : List Question,
        ((q.ask book (book.memoryAfter between (q.ask book m).2)).1.stamp =
          (q.ask book m).1.stamp ↔ .forget ∉ between)) ∧
      ∀ foreign q : Question, foreign.IsForeign book → q.IsRegistered book →
        (q.ask book (foreign.ask book m).2).1.reply = (q.ask book m).1.reply ∧
          q.stampIn (foreign.ask book m).2 = q.stampIn m := by
  intro m
  have hm : book.Reaches m := Reaches.empty.memoryAfter history
  refine ⟨fun q => ?_, fun q hq between => ?_, fun foreign q hf hq => ⟨?_, ?_⟩⟩
  · rw [reply_ask hm, reply_ask .empty]
  · have hnew : Within q 0 ({} : Memory) := by
      refine ⟨Nat.le_refl 0, fun n hn => ?_⟩
      have hnone : q.stampIn {} = none := by unfold stampIn; split <;> rfl
      rw [hnone] at hn
      cases hn
    exact stamp_again hq (hnew.memoryAfter hq history) between
  · rw [reply_ask (hm.ask foreign), reply_ask hm]
  · refine stampIn_ask_of_ne ?_ (hf.ne_registered hq)
    obtain ⟨ref, -, rfl | rfl⟩ := hf <;> simp

theorem consulted_afresh_profile :
    let book := Catalog.ofUsers.book
    let profile := Question.route (.named (.text "profile"))
    let nobody := Question.aliases (.named (.text "nobody"))
    let inline := Question.route (.inline { chain := [("users.boss_id", "users.id")] })
    let m := book.memoryAfter [inline, profile, nobody] {}
    profile.IsRegistered book ∧ nobody.IsForeign book ∧ .forget ∉ [nobody, inline] ∧
      (profile.ask book (book.memoryAfter [nobody, inline] (profile.ask book m).2)).1.stamp =
        (profile.ask book m).1.stamp ∧
      (profile.ask book (nobody.ask book m).2).1.reply = (profile.ask book {}).1.reply := by
  intro book profile nobody inline m
  have hprofile : profile.IsRegistered book := ⟨.text "profile", by decide +kernel, .inl rfl⟩
  have hnobody : nobody.IsForeign book := by
    refine ⟨.named (.text "nobody"), fun name hn => ?_, .inr rfl⟩
    cases hn
    decide +kernel
  have hforget : .forget ∉ [nobody, inline] := by decide
  obtain ⟨hreply, hstamp, hforeign⟩ := consulted_afresh book [inline, profile, nobody]
  exact ⟨hprofile, hnobody, hforget, (hstamp profile hprofile _).mpr hforget,
    (hforeign nobody profile hnobody hprofile).1.trans (hreply profile)⟩

end Winnow.RelationBook
