import Winnow.Proofs.PredicateTests

namespace Winnow

theorem Segment.scan_ok {separator : String} (h : separator ≠ "") (limit : Option Int)
    (raw : String) :
    ∃ segments, Segment.scan separator limit raw = .ok segments := by
  unfold Segment.scan
  split
  next => exact ⟨_, rfl⟩
  next =>
    split
    next hn => exact absurd hn (splitOn?_ne_none h raw)
    next => exact ⟨_, rfl⟩

namespace Desk

variable {cat : Catalog} {ref : String → ColumnRef} {q : Select} {d : Desk Select}

/-- An open session with a query and a memory of the book. -/
structure Serves (cat : Catalog) (q : Select) (d : Desk Select) : Prop where
  query : d.session.query = q
  isOpen : d.session.isOpen = true
  memory : cat.book.Reaches d.memory

/-- The tests of the conditions on listed columns; `ref` gives the column that a listed name stands
for. -/
def directTests (cat : Catalog) (ref : String → ColumnRef) (conditions : List Condition) :
    List Test :=
  conditions.flatMap fun c =>
    if c.column ∈ cat.filterable then
      match Predicate.compile (cat.book.qualify c.column) c.expression with
      | some p => p.tests (ref c.column)
      | none => []
    else []

theorem issueAll_of_callAll {calls : List Call} {q' : Select}
    (h : Repository.callAll calls d.session.query = .ok () q') :
    issueAll calls d = .ok () (d.withQuery q') := by
  induction calls generalizing d with
  | nil =>
    cases h
    rfl
  | cons c calls ih =>
    unfold Repository.callAll at h
    unfold issueAll
    cases hc : QueryTarget.call c d.session.query with
    | ok u q₁ =>
      rw [bind_of_ok hc] at h
      rw [bind_of_ok (issue_of_ok hc)]
      exact ih h
    | error e q₁ =>
      rw [bind_of_error hc] at h
      cases h

theorem column_of_serves (hd : Serves cat q d) (use : Use) (given : String) :
    ∃ d', column cat use given d = .ok (cat.columnOf? use given) d' ∧ Serves cat q d' := by
  obtain ⟨m, notes, hm, he⟩ := column_eq hd.memory use given
  exact ⟨_, he, hd.query, hd.isOpen, hm⟩

theorem note_of_serves (hd : Serves cat q d) (n : Note) :
    ∃ d', note n d = .ok () d' ∧ Serves cat q d' :=
  ⟨_, rfl, hd.query, hd.isOpen, hd.memory⟩

theorem enter_of_serves (hd : Serves cat q d) :
    ∃ d', (enter : Build Select Unit) d = .ok () d' ∧ Serves cat q d' := by
  have ho := hd.isOpen
  refine ⟨d.entered, ?_, hd.query, rfl, hd.memory⟩
  simp only [enter, onSession, Session.enter, ho, ↓reduceIte]
  rfl

theorem sendPredicate_eq {column expression : String} {p : Predicate} {c : ColumnRef}
    (hp : Predicate.compile column expression = some p)
    (hc : d.session.query.findColumn column = .ok c) :
    sendPredicate p d = .ok () (d.withQuery (d.session.query.addTests (p.tests c))) := by
  obtain ⟨calls, hcalls⟩ := calls_ok hp
  obtain rfl : p.column = column := by
    obtain ⟨found, -, rfl⟩ := Option.map_eq_some_iff.mp hp
    rfl
  unfold sendPredicate
  rw [hcalls]
  exact issueAll_of_callAll
    (Repository.callAll_of_adds (Predicate.adds_of_calls c hcalls) hc)

theorem sendPredicate_of_serves {column expression : String} {p : Predicate} {c : ColumnRef}
    (hd : Serves cat q d) (hp : Predicate.compile column expression = some p)
    (hc : q.findColumn column = .ok c) :
    ∃ d', sendPredicate p d = .ok () d' ∧ Serves cat (q.addTests (p.tests c)) d' := by
  obtain ⟨rfl, ho, hm⟩ := hd
  exact ⟨_, sendPredicate_eq hp hc, rfl, ho, hm⟩

theorem applied_of_serves {column expression : String} {p : Predicate} {c : ColumnRef}
    (n : Note) (next : Build Select (List Predicate)) (hd : Serves cat q d)
    (hp : Predicate.compile column expression = some p) (hc : q.findColumn column = .ok c) :
    ∃ d', Serves cat (q.addTests (p.tests c)) d' ∧
      (do note n; enter; sendPredicate p; let applied ← next; return p :: applied) d =
        (do let applied ← next; return p :: applied) d' := by
  obtain ⟨d₁, hn, hd₁⟩ := note_of_serves hd n
  obtain ⟨d₂, he, hd₂⟩ := enter_of_serves hd₁
  obtain ⟨d₃, hs, hd₃⟩ := sendPredicate_of_serves hd₂ hp hc
  refine ⟨d₃, hd₃, ?_⟩
  rw [bind_of_ok hn, bind_of_ok he, bind_of_ok hs]

theorem columnOf?_of_filterable {given : String} (h : given ∈ cat.filterable) :
    cat.columnOf? .filter given = some ⟨cat.book.qualify given, .direct, none⟩ := by
  unfold Catalog.columnOf? RelationBook.columnOf?
  exact if_pos h

theorem work_of_direct {segments : List Segment}
    (hfind : ∀ c ∈ cat.filterable, q.findColumn (cat.book.qualify c) = .ok (ref c))
    (hdirect : ∀ c, .condition c ∈ segments → cat.columnOf? .filter c.column ≠ none →
      c.column ∈ cat.filterable) (hd : Serves cat q d) :
    ∃ found d', work cat .filter Predicate.compile sendPredicate segments d = .ok found d' ∧
      Serves cat (q.addTests (directTests cat ref (segments.filterMap Segment.condition?))) d' := by
  induction segments generalizing q d with
  | nil =>
    refine ⟨[], d, rfl, ?_⟩
    rw [List.filterMap_nil, directTests, List.flatMap_nil, Select.addTests_nil]
    exact hd
  | cons s rest ih =>
    have hrest : ∀ c, .condition c ∈ rest → cat.columnOf? .filter c.column ≠ none →
        c.column ∈ cat.filterable := fun c hc => hdirect c (by simp [hc])
    -- a segment that is passed over adds a note and no test
    have hpass : ∀ {e : Desk Select} (n : Note), Serves cat q e → ∃ found d',
        (do note n; work cat .filter Predicate.compile sendPredicate rest) e = .ok found d' ∧
          Serves cat (q.addTests (directTests cat ref (rest.filterMap Segment.condition?))) d' := by
      intro e n he
      obtain ⟨e', hn, he'⟩ := note_of_serves he n
      rw [bind_of_ok hn]
      exact ih hfind hrest he'
    cases s with
    | malformed text => exact hpass _ hd
    | condition c =>
      obtain ⟨d₁, hcolumn, hd₁⟩ := column_of_serves hd .filter c.column
      rw [work, bind_of_ok hcolumn]
      rw [show (Segment.condition c :: rest).filterMap Segment.condition? =
        c :: rest.filterMap Segment.condition? from rfl]
      rw [directTests, List.flatMap_cons, ← directTests]
      by_cases hl : c.column ∈ cat.filterable
      · simp only [columnOf?_of_filterable hl, hl, ↓reduceIte]
        cases hp : Predicate.compile (cat.book.qualify c.column) c.expression with
        | none => exact hpass _ hd₁
        | some p =>
          simp only
          obtain ⟨d₂, hd₂, happlied⟩ := applied_of_serves
            (.columnUsed .filter c.column .direct (cat.book.qualify c.column))
            (work cat .filter Predicate.compile sendPredicate rest) hd₁ hp (hfind c.column hl)
          obtain ⟨found, d₃, hw, hd₃⟩ :=
            ih (q := q.addTests (p.tests (ref c.column))) hfind hrest hd₂
          rw [Select.addTests_append]
          refine ⟨p :: found, d₃, ?_, hd₃⟩
          refine Eq.trans happlied ?_
          rw [bind_of_ok hw]
          rfl
      · have hnone : cat.columnOf? .filter c.column = none := by
          cases hf : cat.columnOf? .filter c.column with
          | none => rfl
          | some found => exact absurd (hdirect c (by simp) (by simp [hf])) hl
        simp only [hnone, hl, ↓reduceIte, List.nil_append]
        exact hpass _ hd₁

theorem filter_of_direct {raw : Option String} {limit : Option Int} (hs : cat.separator ≠ "")
    (hfind : ∀ c ∈ cat.filterable, q.findColumn (cat.book.qualify c) = .ok (ref c))
    (hdirect : ∀ c ∈ cat.conditions .filter raw limit,
      cat.columnOf? .filter c.column ≠ none → c.column ∈ cat.filterable) (hd : Serves cat q d) :
    ∃ found d', filter cat raw limit d = .ok found d' ∧
      Serves cat (q.addTests (directTests cat ref (cat.conditions .filter raw limit))) d' := by
  obtain ⟨segments, hscan⟩ := Segment.scan_ok hs (some (limit.getD (cat.limit .filter)))
    (raw.getD "")
  have hconditions := Catalog.conditions_of_scan hscan
  have hsegments : ∀ c, .condition c ∈ segments → cat.columnOf? .filter c.column ≠ none →
      c.column ∈ cat.filterable := by
    intro c hc
    refine hdirect c ?_
    rw [hconditions]
    exact List.mem_filterMap.mpr ⟨.condition c, hc, rfl⟩
  unfold filter workText
  rw [hscan, hconditions]
  exact work_of_direct hfind hsegments hd

end Desk

end Winnow
