import Winnow.Proofs.RepositoryOperations
import Winnow.Proofs.TextProofRules

namespace Winnow

/-- Whether a call makes the last element of a `WHERE` list an alternative. -/
def Call.isOr : Call → Bool
  | orFilter .. => true
  | _ => false

namespace Select

variable {q q' : Select} {c : ColumnRef} {n : Nat} {call : Call}

/-- The `WHERE` list begins with the test that a column is null, alone, and at least `n` elements
follow. -/
def ScopedBy (c : ColumnRef) (n : Nat) (q : Select) : Prop :=
  ∃ rest, q.clauses = ⟨.null c false, []⟩ :: rest ∧ n ≤ rest.length

theorem length_le_orLast (t : Test) (cs : List Clause) : cs.length ≤ (orLast t cs).length := by
  induction cs with
  | nil => simp
  | cons c cs ih =>
    cases cs with
    | nil => simp [orLast]
    | cons d cs => simpa [orLast] using ih

theorem clauses_of_step (h : q.step call = .ok q') :
    (∃ more, q'.clauses = q.clauses ++ more) ∨
      call.isOr = true ∧ ∃ t, q'.clauses = orLast t q.clauses := by
  cases call with
  | filter | filterNot | filterIn | filterNotIn | filterNull | filterNotNull =>
    obtain ⟨t, -, rfl⟩ := ok_of_map h
    exact Or.inl ⟨_, rfl⟩
  | orFilter =>
    obtain ⟨t, -, rfl⟩ := ok_of_map h
    exact Or.inr ⟨rfl, t, rfl⟩
  | filterBetween | filterNotBetween =>
    obtain ⟨bounds, -, h⟩ := ok_of_bind h
    obtain ⟨c, -, h⟩ := ok_of_bind h
    cases h
    exact Or.inl ⟨_, rfl⟩
  | join table first operator second joinKind =>
    obtain ⟨t, -, h⟩ := ok_of_bind h
    obtain ⟨comparison, -, h⟩ := ok_of_bind h
    obtain ⟨left, -, h⟩ := ok_of_bind h
    obtain ⟨right, -, h⟩ := ok_of_bind h
    cases joinKind with
    | error v => cases h
    | ok kind =>
      cases h
      exact Or.inl ⟨[], by simp⟩
  | select | orderBy =>
    obtain ⟨found, -, rfl⟩ := ok_of_map h
    exact Or.inl ⟨[], by simp⟩

theorem ScopedBy.step (h : q.ScopedBy c n) (hs : q.step call = .ok q')
    (hn : call.isOr = true → 0 < n) : q'.ScopedBy c n := by
  obtain ⟨rest, hrest, hlen⟩ := h
  rcases clauses_of_step hs with ⟨more, hmore⟩ | ⟨hor, t, ht⟩
  · exact ⟨rest ++ more, by rw [hmore, hrest, List.cons_append], by
      rw [List.length_append]
      omega⟩
  · have hpos := hn hor
    cases rest with
    | nil =>
      rw [List.length_nil] at hlen
      omega
    | cons d rest =>
      refine ⟨orLast t (d :: rest), by rw [ht, hrest, orLast]; simp, ?_⟩
      exact Nat.le_trans hlen (length_le_orLast t _)

theorem preserves_call (hn : call.isOr = true → 0 < n) :
    Preserves (ScopedBy c n) (QueryTarget.call call : EStateM Failure Select Unit) := by
  intro q h
  unfold after
  simp only [QueryTarget.call]
  cases hs : q.step call with
  | ok q' => exact h.step hs hn
  | error e => exact h

theorem ScopedBy.filter {column operator : String} {value : Value} (h : q.ScopedBy c n)
    (hs : q.step (.filter column operator value) = .ok q') : q'.ScopedBy c (n + 1) := by
  obtain ⟨rest, hrest, hlen⟩ := h
  obtain ⟨t, -, rfl⟩ := ok_of_map hs
  refine ⟨rest ++ [⟨t, []⟩], by simp [addTest, hrest], ?_⟩
  rw [List.length_append, List.length_singleton]
  omega

end Select

namespace Desk

variable {cat : Catalog} {c : ColumnRef} {n : Nat}

/-- A desk with a query that begins with its scope. -/
structure Scoped (cat : Catalog) (c : ColumnRef) (n : Nat) (d : Desk Select) : Prop where
  memory : cat.book.Reaches d.memory
  query : d.session.query.ScopedBy c n

theorem Sends.scoped {call : Call} {f : Joins → Joins} {d d' : Desk Select}
    (hs : Sends call f d d') (hor : call.isOr = true → 0 < n) (h : d.session.query.ScopedBy c n) :
    d'.session.query.ScopedBy c n := by
  cases hs with
  | taken _ hc => exact (Select.preserves_call hor).of_ok h hc
  | refused _ hc => exact (Select.preserves_call hor).of_error h hc

theorem Scoped.move {d d' : Desk Select} (hm : Move cat ⟨fun _ => True, fun _ _ => False⟩ d d')
    (h : Scoped cat c n d) : Scoped cat c n d' := by
  refine ⟨hm.reaches h.memory, ?_⟩
  cases hm with
  | aside hs => exact hs ▸ h.query
  | enter => exact h.query
  | call ha => exact ha.elim
  | relation _ _ hj =>
    cases hj with
    | select _ _ hs => exact hs.scoped (by simp [Call.isOr]) h.query
    | join _ hs => exact hs.scoped (by simp [Call.isOr, Hop.call]) h.query
    | guard _ _ _ _ _ hs => exact hs.scoped (by simp [Call.isOr, Catalog.guardCall]) h.query

theorem preserves_join (ref : RelationRef) :
    Preserves (Scoped cat c n) (join (Q := Select) cat ref) := by
  intro d h
  have hgoes : Goes (Move cat ⟨fun _ => True, fun _ _ => False⟩) (Has cat [])
      (join (Q := Select) cat ref) _ := goes_join trivial
  exact kept_of_moves (I := Scoped cat c n) (fun _ _ hm h => Scoped.move hm h)
    (hgoes.after_moves ⟨h.memory, List.nil_subset _⟩) h

theorem preserves_issue {call : Call} (hor : call.isOr = true → 0 < n) :
    Preserves (Scoped cat c n) (issue call) := by
  intro d h
  have hcall := Select.preserves_call (c := c) hor _ h.query
  unfold after at hcall ⊢
  cases hc : QueryTarget.call call d.session.query with
  | ok u q =>
    rw [issue_of_ok hc]
    simp only [hc] at hcall
    exact ⟨h.memory, hcall⟩
  | error e q =>
    rw [issue_of_error hc]
    simp only [hc] at hcall
    exact ⟨h.memory, hcall⟩

theorem preserves_rules : Rules cat (Preserves (Scoped cat c n)) where
  pure := Preserves.pure
  bind := Preserves.bind
  note _ _ h := ⟨h.memory, h.query⟩
  enter := by
    intro ⟨⟨phase, query, joins, made⟩, memory, reads, notes⟩ h
    cases phase with
    | executed => exact h
    | fresh => exact ⟨h.memory, h.query⟩
    | building => exact ⟨h.memory, h.query⟩
  column {α use given next} hn := by
    intro d h
    obtain ⟨m, notes, hm, he⟩ := column_eq h.memory use given
    unfold after
    rw [bind_of_ok he]
    exact hn _ ⟨hm, h.query⟩

theorem preserves_permits (use : Use) {sends : String → Call → Prop}
    (h : ∀ s call, sends s call → call.isOr = false) :
    Permits cat (Preserves (Scoped cat c n)) use sends where
  scan limit raw := by
    intro d hd
    cases Segment.scan cat.separator limit raw with
    | ok segments => exact hd
    | error e => exact hd
  call _ hs := preserves_issue (by simp [h _ _ hs])
  join _ _ := preserves_join _

theorem preserves_search (term : Option String) :
    Preserves (Scoped cat c n) (search (Q := Select) cat term) := by
  have hcalls : ∀ s, Preserves (Scoped cat c n)
      (issueAll (searchCalls cat s) : Build Select Unit) := by
    intro s d h
    unfold searchCalls
    split
    next => exact h
    next first others hs =>
      -- the first call puts an element behind the scope, and the others reach no further than that
      have hothers : ∀ call ∈ others.map fun column =>
          Call.orFilter column "like" (.text ("%" ++ s ++ "%")),
          Preserves (Scoped cat c (n + 1)) (issue call) :=
        fun call hc => preserves_issue fun _ => by omega
      have hrest := preserves_rules.issueAll hothers
      unfold after issueAll
      cases hs : d.session.query.step (.filter first "like" (.text ("%" ++ s ++ "%"))) with
      | error e =>
        have hc : QueryTarget.call (.filter first "like" (.text ("%" ++ s ++ "%")))
            d.session.query = .error e d.session.query := by simp only [QueryTarget.call, hs]
        rw [bind_of_error (issue_of_error hc)]
        exact h
      | ok q =>
        have hc : QueryTarget.call (.filter first "like" (.text ("%" ++ s ++ "%")))
            d.session.query = .ok () q := by simp only [QueryTarget.call, hs]
        rw [bind_of_ok (issue_of_ok hc)]
        have hq : q.ScopedBy c (n + 1) := h.query.filter hs
        obtain ⟨hm, rest, hclauses, hlen⟩ := hrest (d.withQuery q) ⟨h.memory, hq⟩
        exact ⟨hm, rest, hclauses, by omega⟩
  unfold search
  cases term with
  | none => exact .pure ()
  | some s =>
    simp only
    split
    · exact .pure ()
    · exact preserves_rules.enter.bind fun _ => hcalls s

end Desk

namespace Repository

variable {r : Repository} {db : Database} {α : Type}

/-- The column that marks trashed rows, as queries read its name. -/
def scopeColumn (r : Repository) : ColumnRef :=
  let named := r.bareQuery.tableAndColumn (r.model.table.qualified r.catalog.softDeleteColumn)
  ⟨named.1, named.2⟩

theorem findColumn_eq {q : Select} {reference : String} {c : ColumnRef}
    (h : q.findColumn reference = .ok c) :
    c = ⟨(q.tableAndColumn reference).1, (q.tableAndColumn reference).2⟩ := by
  unfold Select.findColumn at h
  generalize q.tableAndColumn reference = named at h ⊢
  obtain ⟨t, -, h⟩ := ok_of_bind h
  change (if named.2 ∈ t.columnNames then _ else _ : Except Failure ColumnRef) = _ at h
  split at h
  · exact (Except.ok.inj h).symm
  · cases h

theorem scopedQuery_scopedBy {t : State} (hsoft : r.softDeletes = true) (ht : r.start db = .ok t)
    (n : Nat) : (r.scopedQuery n).ScopedBy r.scopeColumn 0 := by
  have hcalls : r.scopeCalls =
      [.filterNull (r.model.table.qualified r.catalog.softDeleteColumn)] := by
    unfold scopeCalls
    rw [hsoft]
    rfl
  unfold start at ht
  unfold scopedQuery
  rw [hcalls] at ht ⊢
  cases hc : r.bareQuery.findColumn (r.model.table.qualified r.catalog.softDeleteColumn) with
  | error e =>
    have hs : r.bareQuery.step
        (.filterNull (r.model.table.qualified r.catalog.softDeleteColumn)) = .error e := by
      simp only [Select.step, hc]
      rfl
    have hcall : QueryTarget.call (.filterNull (r.model.table.qualified
        r.catalog.softDeleteColumn)) r.bareQuery = .error e r.bareQuery := by
      simp only [QueryTarget.call, hs]
    unfold callAll at ht
    rw [bind_of_error hcall] at ht
    cases ht
  | ok c =>
    have hs : r.bareQuery.step
        (.filterNull (r.model.table.qualified r.catalog.softDeleteColumn)) =
          .ok (r.bareQuery.addTest (.null c false)) := by
      simp only [Select.step, hc]
      rfl
    rw [callAll_cons hs]
    cases findColumn_eq hc
    exact ⟨[], rfl, Nat.le_refl 0⟩

/-- A repository over a database, with a query that begins with its scope. -/
structure InScope (r : Repository) (db : Database) (s : State) : Prop where
  desk : Desk.Scoped r.catalog r.scopeColumn 0 s.desk
  database : s.database = db

theorem preserves_atDesk {step : Build Select α}
    (h : Preserves (Desk.Scoped r.catalog r.scopeColumn 0) step) :
    Preserves (r.InScope db) (atDesk step) := by
  intro s hs
  have hdesk := h _ hs.desk
  unfold after at hdesk ⊢
  unfold atDesk
  cases hd : step s.desk with
  | ok a d =>
    simp only [hd] at hdesk
    exact ⟨hdesk, hs.database⟩
  | error e d =>
    simp only [hd] at hdesk
    exact ⟨hdesk, hs.database⟩

theorem preserves_remember (f : PageTexts → PageTexts) : Preserves (r.InScope db) (remember f) :=
  fun _ h => ⟨h.desk, h.database⟩

section New

variable (hnew : ∀ n, (r.scopedQuery n).ScopedBy r.scopeColumn 0)
include hnew

theorem preserves_reset : Preserves (r.InScope db) r.reset := by
  refine (preserves_atDesk ?_).bind fun _ => preserves_remember _
  refine Preserves.bind (fun d h => ?_) fun _ => Desk.preserves_rules.note _
  obtain ⟨⟨phase, query, joins, made⟩, memory, reads, notes⟩ := d
  cases phase with
  | executed => exact h
  | fresh => exact ⟨h.memory, hnew made⟩
  | building => exact ⟨h.memory, hnew made⟩

theorem preserves_execute (run : Tables → Select → Except Failure α) :
    Preserves (r.InScope db) (r.execute run) := by
  intro s h
  have hmemory := Desk.memory_execute (run s.database.current) s.desk
  unfold after at hmemory ⊢
  unfold execute
  cases hr : Desk.execute (run s.database.current) s.desk with
  | ok a d =>
    simp only [hr] at hmemory
    exact ⟨⟨hmemory ▸ h.desk.memory, hnew 0⟩, h.database⟩
  | error e d =>
    simp only [hr] at hmemory
    exact ⟨⟨hmemory ▸ h.desk.memory, hnew 0⟩, h.database⟩

theorem preserves_rules :
    r.OperationRules (Preserves (Desk.Scoped r.catalog r.scopeColumn 0))
      (Preserves (r.InScope db)) where
  pure := .pure
  bind := .bind
  desk := Desk.preserves_rules
  filterText := by
    refine Desk.preserves_rules.filter (Desk.preserves_permits _ fun s call h => ?_)
    obtain ⟨test, htest⟩ := h r.scopeColumn
    cases htest <;> rfl
  sortText := by
    refine Desk.preserves_rules.sort (Desk.preserves_permits _ ?_)
    rintro s call ⟨direction, rfl⟩
    rfl
  searchTerm := Desk.preserves_search
  joinOne := Desk.preserves_join
  test _ _ _ := Desk.preserves_issue (by simp [Call.isOr])
  atDesk := preserves_atDesk
  remember := preserves_remember
  get _ h := Preserves.get.bind h
  reset := preserves_reset hnew
  execute _ := preserves_execute hnew _

theorem preserves_perform (op : Operation) : Preserves (r.InScope db) (op.perform r) :=
  (preserves_rules hnew).perform op

theorem inScope_run (ops : List Operation) {s : State} (h : r.InScope db s) :
    r.InScope db (r.run ops s) := by
  unfold run
  induction ops generalizing s with
  | nil => exact h
  | cons op ops ih => exact ih (preserves_perform hnew op s h)

end New

end Repository

end Winnow
