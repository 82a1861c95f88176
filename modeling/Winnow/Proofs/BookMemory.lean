import Winnow.Column

namespace Winnow

namespace RelationBook

/-- The memories that a book comes to by answering questions and forgetting. -/
inductive Reaches (book : RelationBook) : Memory → Prop
  | empty : Reaches book {}
  | consult {m : Memory} {ref : RelationRef} {found : Found (Kept Route)} :
      Reaches book m → book.consult ref m = .ok found → Reaches book found.memory
  | aliases {m : Memory} {ref : RelationRef} {found : Found (Kept AliasMap)} :
      Reaches book m → book.consultAliases ref m = .ok found → Reaches book found.memory
  | clear {m : Memory} : Reaches book m → Reaches book m.clear

end RelationBook

/-- Everything kept is what the relations give. -/
structure Memory.Faithful (m : Memory) (book : RelationBook) : Prop where
  routes : ∀ s kept, m.routes.lookup s = some kept → kept.value = book.route (.named (.text s))
  aliases : ∀ name kept, m.aliases.lookup name = some kept →
    kept.value = book.aliasMap (.named name)

namespace RelationBook

variable {book : RelationBook} {m : Memory}

theorem consultName_answer (h : m.Faithful book) (name : RelationName) :
    (book.consultName name m).answer.value = book.route (.named name) := by
  unfold consultName
  split
  next s =>
    split
    next kept hk => exact h.routes s kept hk
    next => split <;> rfl
  next => rfl

theorem consultName_faithful (h : m.Faithful book) (name : RelationName) :
    (book.consultName name m).memory.Faithful book := by
  unfold consultName
  split
  next s =>
    split
    next => exact h
    next =>
      split
      next => exact ⟨h.routes, h.aliases⟩
      next =>
        refine ⟨?_, h.aliases⟩
        intro t kept ht
        rw [List.lookup_cons] at ht
        by_cases he : t = s
        · subst he
          simp only [beq_self_eq_true, Option.some.injEq] at ht
          rw [← ht]
        · simp only [beq_eq_false_iff_ne.mpr he] at ht
          exact h.routes t kept ht
  next => exact ⟨h.routes, h.aliases⟩

theorem consultAliasesOfName_answer (h : m.Faithful book) (name : RelationName) :
    (book.consultAliasesOfName name m).answer.value = book.aliasMap (.named name) := by
  unfold consultAliasesOfName
  split
  next kept hk => exact h.aliases name kept hk
  next => rfl

theorem consultAliasesOfName_faithful (h : m.Faithful book) (name : RelationName) :
    (book.consultAliasesOfName name m).memory.Faithful book := by
  unfold consultAliasesOfName
  split
  next => exact h
  next =>
    refine ⟨h.routes, ?_⟩
    intro other kept ho
    rw [List.lookup_cons] at ho
    by_cases he : other = name
    · subst he
      simp only [beq_self_eq_true, Option.some.injEq] at ho
      rw [← ho]
    · simp only [beq_eq_false_iff_ne.mpr he] at ho
      exact h.aliases other kept ho

theorem consult_answer (h : m.Faithful book) {ref : RelationRef} {found : Found (Kept Route)}
    (hf : book.consult ref m = .ok found) :
    found.answer.value = book.route ref ∧ found.memory.Faithful book := by
  cases ref with
  | named name =>
    cases hf
    exact ⟨consultName_answer h name, consultName_faithful h name⟩
  | inline rel =>
    cases hf
    exact ⟨rfl, h.routes, h.aliases⟩
  | unnameable kind => cases hf

theorem consultAliases_answer (h : m.Faithful book) {ref : RelationRef}
    {found : Found (Kept AliasMap)} (hf : book.consultAliases ref m = .ok found) :
    found.answer.value = book.aliasMap ref ∧ found.memory.Faithful book := by
  cases ref with
  | named name =>
    cases hf
    exact ⟨consultAliasesOfName_answer h name, consultAliasesOfName_faithful h name⟩
  | inline rel =>
    cases hf
    exact ⟨rfl, h.routes, h.aliases⟩
  | unnameable kind => cases hf

theorem Reaches.faithful (h : book.Reaches m) : m.Faithful book := by
  induction h with
  | empty => exact ⟨by simp, by simp⟩
  | consult _ hf ih => exact (consult_answer ih hf).2
  | aliases _ hf ih => exact (consultAliases_answer ih hf).2
  | clear _ ih => exact ⟨by simp [Memory.clear], by simp [Memory.clear]⟩

theorem Reaches.consultName (h : book.Reaches m) (name : RelationName) :
    book.Reaches (book.consultName name m).memory :=
  h.consult (show book.consult (.named name) m = .ok _ from rfl)

theorem Reaches.consultAliasesOfName (h : book.Reaches m) (name : RelationName) :
    book.Reaches (book.consultAliasesOfName name m).memory :=
  h.aliases (show book.consultAliases (.named name) m = .ok _ from rfl)

/-- The column behind a field of a relation, without any memory. -/
def fieldOf? (book : RelationBook) (relation field : String) : Option FoundColumn :=
  fieldOf relation field (book.aliasMap (.named (.text relation)))
    (book.route (.named (.text relation)))

/-- The column behind a client's reference, without any memory. -/
def columnOf? (book : RelationBook) (use : Use) (allowed : List String) (given : String) :
    Option FoundColumn :=
  if given ∈ allowed then some ⟨book.qualify given, .direct, none⟩
  else (book.offeredField? use given).bind fun p => book.fieldOf? p.1 p.2

theorem field_answer (h : book.Reaches m) (relation field : String) :
    (book.field relation field m).answer = book.fieldOf? relation field ∧
      book.Reaches (book.field relation field m).memory := by
  have hr := consultName_answer h.faithful (.text relation)
  have hm := h.consultName (.text relation)
  unfold RelationBook.field fieldOf?
  by_cases he : (book.consultName (.text relation) m).answer.value.hops.isEmpty
  · have hn : (book.route (.named (.text relation))).hops = [] := by
      simpa [hr] using he
    simp [he, fieldOf, Route.target, hn, hm]
  · simp only [he, Bool.false_eq_true, ↓reduceIte]
    rw [hr, consultAliasesOfName_answer hm.faithful]
    exact ⟨rfl, hm.consultAliasesOfName _⟩

/-- Whatever was asked before, a reference stands for the column that it stands for without a
memory. -/
theorem column_answer (h : book.Reaches m) (use : Use) (allowed : List String) (given : String) :
    (book.column use allowed given m).answer = book.columnOf? use allowed given ∧
      book.Reaches (book.column use allowed given m).memory := by
  unfold column columnOf?
  by_cases hd : given ∈ allowed
  · simp [hd, h]
  · simp only [hd, ↓reduceIte]
    cases book.offeredField? use given with
    | none => exact ⟨rfl, h⟩
    | some p => exact field_answer h p.1 p.2

end RelationBook

end Winnow
