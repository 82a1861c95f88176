import Winnow.Proofs.RowOrigin
import Winnow.Proofs.RelationSelection

namespace Winnow

variable {ts : Tables} {env env' : Env} {c : ColumnRef}

theorem exists_of_checkIn {tables : List TableDef} (h : c.checkIn tables = .ok ()) :
    ∃ t ∈ tables, t.name = c.table := by
  unfold ColumnRef.checkIn at h
  split at h
  · cases h
  next t ht =>
    have hmem : t ∈ tables.filter (·.name = c.table) := by simp [ht]
    obtain ⟨hmem, hname⟩ := List.mem_filter.mp hmem
    exact ⟨t, hmem, by simpa using hname⟩
  · cases h

/-- Where two rows know a column, they give it the same cell if the one has what the other finds.
-/
theorem find?_eq_of_mem (hc : c.checkIn (env.map (·.table)) = .ok ())
    (hc' : c.checkIn (env'.map (·.table)) = .ok ())
    (hsub : ∀ b ∈ env, b.table.name = c.table → b ∈ env') : env'.find? c = env.find? c := by
  obtain ⟨t, ht, hn⟩ := exists_of_checkIn hc
  obtain ⟨b, hb, rfl⟩ := List.mem_map.mp ht
  rw [Select.find?_of_checkIn hc hb hn, Select.find?_of_checkIn hc' (hsub b hb hn) hn]

theorem Test.eval_congr {t : Test} (h : env'.find? t.column = env.find? t.column) :
    t.eval env' = t.eval env := by
  unfold Test.eval Env.type Env.cell
  rw [h]

theorem Clause.eval_congr {clause : Clause}
    (h : ∀ t ∈ clause.tests, env'.find? t.column = env.find? t.column) :
    clause.eval env' = clause.eval env := by
  obtain ⟨hfirst, hothers⟩ := List.forall_mem_cons.mp h
  have hfold : ∀ (others : List Test) (x : Truth),
      (∀ t ∈ others, env'.find? t.column = env.find? t.column) →
      others.foldl (fun x t => Truth.or x (t.eval env')) x =
        others.foldl (fun x t => Truth.or x (t.eval env)) x := by
    intro others
    induction others with
    | nil => exact fun _ _ => rfl
    | cons t others ih =>
      intro x h
      obtain ⟨ht, hrest⟩ := List.forall_mem_cons.mp h
      rw [List.foldl_cons, List.foldl_cons, Test.eval_congr ht, ih _ hrest]
  unfold Clause.eval
  rw [Test.eval_congr hfirst, hfold _ _ hothers]

theorem JoinOn.eval_congr {on : JoinOn} (hl : env'.find? on.left = env.find? on.left)
    (hr : env'.find? on.right = env.find? on.right) : on.eval env' = on.eval env := by
  unfold JoinOn.eval Env.type Env.cell
  rw [hl, hr]

theorem Clause.isTrue_null : (Clause.eval env ⟨.null c false, []⟩).isTrue = true ↔
    env.cell c = .null := by
  change Truth.isTrue (some (decide (env.cell c = .null) != false)) = true ↔ _
  by_cases h : env.cell c = .null <;> simp [h, Truth.isTrue]

theorem mem_crossRows {envs : List Env} {rest : List TableDef} : env ∈ crossRows ts envs rest ↔
    ∃ a ∈ envs, ∃ b : Env, b.map (·.table) = rest ∧
      (∀ x ∈ b, x.row ∈ ts.rowsOf x.table.name) ∧ env = a ++ b := by
  induction rest generalizing envs with
  | nil =>
    constructor
    · exact fun h => ⟨env, h, [], rfl, nofun, (List.append_nil _).symm⟩
    · rintro ⟨a, ha, b, hb, -, rfl⟩
      rw [List.map_eq_nil_iff.mp hb, List.append_nil]
      exact ha
  | cons t rest ih =>
    unfold crossRows
    rw [ih]
    constructor
    · rintro ⟨first, hfirst, b, rfl, hrows, rfl⟩
      obtain ⟨a, ha, hmore⟩ := List.mem_flatMap.mp hfirst
      obtain ⟨row, hrow, rfl⟩ := List.mem_map.mp hmore
      exact ⟨a, ha, ⟨t, row⟩ :: b, rfl, List.forall_mem_cons.mpr ⟨hrow, hrows⟩, by simp⟩
    · rintro ⟨a, ha, _ | ⟨⟨t', row⟩, b⟩, hb, hrows, rfl⟩
      · cases hb
      obtain ⟨rfl, rfl⟩ := List.cons.inj hb
      obtain ⟨hrow, hrows⟩ := List.forall_mem_cons.mp hrows
      refine ⟨a ++ [⟨t', row⟩], List.mem_flatMap.mpr ⟨a, ha, ?_⟩, b, rfl, hrows, by simp⟩
      exact List.mem_map.mpr ⟨row, hrow, rfl⟩

namespace Source

def addOuter (s : Source) (added : TableDef × JoinOn) : Source :=
  .join s (.table added.1) added.2 true

def widen (s : Source) (more : List (TableDef × JoinOn)) : Source := more.foldl addOuter s

variable {s : Source} {more : List (TableDef × JoinOn)}

theorem widen_append (s : Source) (more later : List (TableDef × JoinOn)) :
    s.widen (more ++ later) = (s.widen more).widen later :=
  List.foldl_append

theorem tables_widen (s : Source) (more : List (TableDef × JoinOn)) :
    (s.widen more).tables = s.tables ++ more.map (·.1) := by
  induction more generalizing s with
  | nil => exact (List.append_nil _).symm
  | cons added more ih =>
    change ((s.addOuter added).widen more).tables = _
    rw [ih]
    simp [addOuter, tables]

theorem columns_widen (s : Source) (more : List (TableDef × JoinOn)) :
    (s.widen more).columns = s.columns ++ more.flatMap fun p => [p.2.left, p.2.right] := by
  induction more generalizing s with
  | nil => exact (List.append_nil _).symm
  | cons added more ih =>
    change ((s.addOuter added).widen more).columns = _
    rw [ih]
    simp [addOuter, columns]

def outerPart (added : TableDef × JoinOn) : Joined where
  names := [added.1.name]
  on := some added.2
  outer := true

theorem parts_widen (s : Source) (more : List (TableDef × JoinOn)) :
    (s.widen more).parts = s.parts ++ more.map outerPart := by
  induction more generalizing s with
  | nil => exact (List.append_nil _).symm
  | cons added more ih =>
    change ((s.addOuter added).widen more).parts = _
    rw [ih]
    simp [addOuter, parts, tables, outerPart]

theorem exists_joinRow (on : JoinOn) (nulls : Env) (right : List Env) (a : Env) :
    ∃ b, a ++ b ∈ joinRow on true nulls right a := by
  unfold joinRow
  cases hfound : right.filter fun b => joins on (a ++ b) with
  | nil => exact ⟨nulls, List.mem_singleton.mpr rfl⟩
  | cons b found => exact ⟨b, List.mem_cons_self⟩

theorem exists_row_widen (h : env ∈ s.rows ts) : ∃ b, env ++ b ∈ (s.widen more).rows ts := by
  induction more generalizing s env with
  | nil => exact ⟨[], by rwa [List.append_nil]⟩
  | cons added more ih =>
    obtain ⟨b, hb⟩ := exists_joinRow added.2 (table added.1).nullEnv
      (((table added.1).rows ts).filter (table added.1).keepsLate) env
    have hone : env ++ b ∈ (s.addOuter added).rows ts := List.mem_flatMap.mpr ⟨env, h, hb⟩
    obtain ⟨b', hb'⟩ := ih hone
    exact ⟨b ++ b', by rwa [← List.append_assoc]⟩

theorem columns_of_mem_parts {p : Joined} (hp : p ∈ s.parts) {on : JoinOn} (hon : p.on = some on) :
    on.left ∈ s.columns ∧ on.right ∈ s.columns := by
  induction s with
  | table t =>
    cases List.mem_singleton.mp hp
    cases hon
  | join left right on' outer ih _ =>
    rcases List.mem_append.mp hp with hp | hp
    · obtain ⟨hl, hr⟩ := ih hp
      exact ⟨List.mem_append_left _ hl, List.mem_append_left _ hr⟩
    · cases List.mem_singleton.mp hp
      cases hon
      simp [columns]

theorem columns_of_mem_late {on : JoinOn} (h : on ∈ s.late) :
    on.left ∈ s.columns ∧ on.right ∈ s.columns := by
  induction s with
  | table t => cases h
  | join left right on' outer ih _ =>
    rcases List.mem_append.mp h with h | h
    · obtain ⟨hl, hr⟩ := ih h
      exact ⟨List.mem_append_left _ hl, List.mem_append_left _ hr⟩
    · split at h
      · cases h
      · cases List.mem_singleton.mp h
        simp [columns]

end Source

theorem Test.demands_eq_false {names : List String} {t : Test} (h : t.column.table ∉ names) :
    t.demands names = false := by
  cases t with
  | compare column comparison value =>
    have hcolumn : column.table ∉ names := h
    cases comparison <;> simp [demands, hcolumn]
  | null => rfl
  | between column =>
    have hcolumn : column.table ∉ names := h
    simp [demands, hcolumn]
  | member column =>
    have hcolumn : column.table ∉ names := h
    simp [demands, hcolumn]

/-- A `WHERE` list that asks of some tables no more than that columns are null may be true for a
row without values from them. -/
theorem demandsAny_eq_false {names : List String} {clauses : List Clause}
    (h : ∀ clause ∈ clauses, ∀ t ∈ clause.tests,
      t.column.table ∉ names ∨ ∃ c, t = .null c false) : demandsAny names clauses = false := by
  have hany : ∀ clause ∈ clauses, clause.demands names = false := by
    intro clause hc
    have hfirst : clause.first.demands names = false := by
      rcases h clause hc _ List.mem_cons_self with hfar | ⟨c, hnull⟩
      · exact Test.demands_eq_false hfar
      · rw [hnull]
        rfl
    unfold Clause.demands Clause.tests
    rw [List.all_cons, hfirst, Bool.false_and]
  cases clauses with
  | nil => rfl
  | cons first rest =>
    have hnone : (first :: rest).any (·.demands names) = false := by
      rw [List.any_eq_false]
      intro clause hc
      rw [hany clause hc]
      decide
    unfold demandsAny
    simp only [hnone, Bool.or_false]
    split
    next column hpresence =>
      have hpresent := h first List.mem_cons_self (.null column true) (by simp [hpresence])
      refine decide_eq_false (hpresent.resolve_right ?_)
      rintro ⟨c, hc⟩
      cases hc
    · rfl

namespace Joined

variable {clauses : List Clause} {done old new : List Joined} {beside : List String}

/-- Whether the condition of a part of a row of joins, if it has one, is never true for a row
without values from some tables. -/
def demands (names : List String) (p : Joined) : Bool := p.on.any (·.demands names)

/-- Outer joins stay outer when they come last and neither the tests nor the parts before them
demand their tables. -/
theorem simplified_outer (hclauses : ∀ p ∈ new, demandsAny p.names clauses = false)
    (hdone : ∀ o ∈ done, o.outer = true ∨ ∀ p ∈ new, o.demands p.names = false)
    (hnew : ∀ p ∈ new, p.outer = true) : simplified clauses done new = done ++ new := by
  induction new generalizing done with
  | nil => exact (List.append_nil _).symm
  | cons p rest ih =>
    have hall : ∀ o ∈ done ++ p :: rest, o.outer = true ∨ o.demands p.names = false := by
      intro o ho
      rcases List.mem_append.mp ho with ho | ho
      · exact (hdone o ho).imp_right fun h => h p List.mem_cons_self
      · exact Or.inl (hnew o ho)
    have hnone : (done ++ p :: rest).any (fun o => !o.outer && o.on.any (·.demands p.names)) =
        false := by
      rw [List.any_eq_false]
      intro o ho
      rcases hall o ho with houter | hdemands
      · simp [houter]
      · unfold demands at hdemands
        simp [hdemands]
    have hp : { p with outer := p.outer && !false } = p := by
      rw [Bool.not_false, Bool.and_true]
    unfold simplified
    simp only [hclauses p List.mem_cons_self, hnone, Bool.or_self, hp]
    rw [ih (fun q hq => hclauses q (List.mem_cons_of_mem _ hq)) ?_
      fun q hq => hnew q (List.mem_cons_of_mem _ hq), List.append_assoc]
    · rfl
    · intro o ho
      rcases List.mem_append.mp ho with ho | ho
      · exact (hdone o ho).imp_right fun h q hq => h q (List.mem_cons_of_mem _ hq)
      · cases List.mem_singleton.mp ho
        exact Or.inl (hnew p List.mem_cons_self)

theorem simplified_append (hclauses : ∀ p ∈ new, demandsAny p.names clauses = false)
    (hdone : ∀ o ∈ done ++ old, ∀ p ∈ new, o.demands p.names = false)
    (hnew : ∀ p ∈ new, p.outer = true) :
    ∃ before, simplified clauses done (old ++ new) = before ++ new := by
  induction old generalizing done with
  | nil =>
    rw [List.append_nil] at hdone
    exact ⟨done, simplified_outer hclauses (fun o ho => Or.inr (hdone o ho)) hnew⟩
  | cons o old ih =>
    unfold simplified
    refine ih fun q hq p hp => ?_
    rw [List.append_assoc, List.singleton_append] at hq
    rcases List.mem_append.mp hq with hq | hq
    · exact hdone q (List.mem_append_left _ hq) p hp
    · rcases List.mem_cons.mp hq with rfl | hq
      · exact hdone o (by simp) p hp
      · exact hdone q (by simp [hq]) p hp

theorem looksRight_append (h : looksRight beside (old ++ new) = false) :
    looksRight beside new = false := by
  induction old with
  | nil => exact h
  | cons o old ih =>
    simp only [List.cons_append, looksRight, Bool.or_eq_false_iff] at h
    exact ih h.2

theorem looksRight_of_check (h : check clauses beside old = .ok ()) :
    looksRight beside (simplified clauses [] old) = false := by
  unfold check at h
  split at h
  · cases h
  next hlooks => exact eq_false_of_ne_true hlooks

end Joined

theorem names_outerPart (more : List (TableDef × JoinOn)) :
    (more.map Source.outerPart).flatMap (·.names) = more.map (·.1.name) := by
  induction more with
  | nil => rfl
  | cons added more ih => exact congrArg (added.1.name :: ·) ih

theorem JoinOn.isWithin_iff {on : JoinOn} {tables : List TableDef} : on.isWithin tables = true ↔
    ∀ name ∈ on.names, name ∈ tables.map (·.name) := by
  unfold JoinOn.isWithin
  simp

theorem Source.late_widen {s : Source} {more : List (TableDef × JoinOn)} {beside : List String}
    (hright : Joined.looksRight beside (more.map outerPart) = false)
    (hknown : ∀ p ∈ more, ∀ name ∈ p.2.names,
      name ∈ s.tables.map (·.name) ++ more.map (·.1.name) ++ beside) :
    (s.widen more).late = s.late := by
  induction more generalizing s with
  | nil => rfl
  | cons added more ih =>
    rw [List.map_cons, Joined.looksRight, Bool.or_eq_false_iff, names_outerPart] at hright
    obtain ⟨hhere, hrest⟩ := hright
    have hnone : ∀ name ∈ added.2.names, name ∉ more.map (·.1.name) ++ beside := by
      simpa [outerPart] using hhere
    have hwithin : added.2.isWithin (s.tables ++ [added.1]) = true := by
      rw [JoinOn.isWithin_iff]
      intro name hname
      have hmem := hknown added List.mem_cons_self name hname
      have hfar := hnone name hname
      simp only [List.mem_append, List.map_cons, List.mem_cons, not_or] at hmem hfar
      rw [List.map_append, List.mem_append, List.map_singleton, List.mem_singleton]
      rcases hmem with (hmem | hmem | hmem) | hmem
      · exact Or.inl hmem
      · exact Or.inr hmem
      · exact absurd hmem hfar.1
      · exact absurd hmem hfar.2
    change ((s.addOuter added).widen more).late = _
    rw [ih hrest ?_]
    · change s.late ++ (if added.2.isWithin (s.tables ++ [added.1]) then [] else [added.2]) = _
      rw [if_pos hwithin, List.append_nil]
    · intro p hp name hname
      have hmem := hknown p (List.mem_cons_of_mem _ hp) name hname
      simpa [addOuter, Source.tables] using hmem

theorem Source.keepsLate_congr {s s' : Source} (hlate : s'.late = s.late)
    (hsame : ∀ c ∈ s.columns, env'.find? c = env.find? c) :
    s'.keepsLate env' = s.keepsLate env := by
  unfold keepsLate
  rw [hlate, Bool.eq_iff_iff, List.all_eq_true, List.all_eq_true]
  refine forall₂_congr fun on hon => ?_
  obtain ⟨hl, hr⟩ := columns_of_mem_late hon
  rw [JoinOn.eval_congr (hsame _ hl) (hsame _ hr)]

namespace Select

/-- The tables of which something is asked, by a test or by the condition of a join. -/
def asked (q : Select) : List String :=
  (q.clauses.flatMap fun clause => clause.tests.map (·.column.table)) ++
    q.source.columns.map (·.table)

/-- Whether the `WHERE` list is true for a row. -/
def holds (q : Select) (env : Env) : Bool := q.clauses.all fun clause => (clause.eval env).isTrue

/-- A query with more tables by outer joins, for which in addition some columns are to be null.
What is selected does not matter. -/
structure Widens (q q' : Select) (more : List (TableDef × JoinOn)) (marks : List ColumnRef) :
    Prop where
  schema : q'.schema = q.schema
  source : q'.source = q.source.widen more
  clauses : q'.clauses = q.clauses ++ marks.map fun c => ⟨.null c false, []⟩

variable {q q' : Select} {more : List (TableDef × JoinOn)} {marks : List ColumnRef}

theorem checkIn_of_test {outputs : Except Failure Unit} (h : q.checkNames outputs = .ok ())
    {clause : Clause} (hclause : clause ∈ q.clauses) {t : Test} (ht : t ∈ clause.tests) :
    t.column.checkIn q.tables = .ok () :=
  checkIn_of_checkNames h hclause ht

theorem checkIn_of_column {outputs : Except Failure Unit} (h : q.checkNames outputs = .ok ())
    (hc : c ∈ q.source.columns) : c.checkIn q.tables = .ok () := by
  obtain ⟨-, -, -, hcolumns, -⟩ := checkNames_eq_ok.mp h
  exact checkEach_mem hcolumns hc

theorem asked_of_test {clause : Clause} (hclause : clause ∈ q.clauses) {t : Test}
    (ht : t ∈ clause.tests) : t.column.table ∈ q.asked :=
  List.mem_append_left _ (List.mem_flatMap.mpr ⟨clause, hclause, List.mem_map_of_mem ht⟩)

theorem holds_congr (hsame : ∀ clause ∈ q.clauses, ∀ t ∈ clause.tests,
    env'.find? t.column = env.find? t.column) : q.holds env' = q.holds env := by
  unfold holds
  rw [Bool.eq_iff_iff, List.all_eq_true, List.all_eq_true]
  refine forall₂_congr fun clause hclause => ?_
  rw [Clause.eval_congr (hsame clause hclause)]

theorem asked_of_column (hc : c ∈ q.source.columns) : c.table ∈ q.asked :=
  List.mem_append_right _ (List.mem_map_of_mem hc)

theorem mem_beside {t : TableDef} (h : t ∈ q.beside) :
    q.schema.table? t.name = some t ∧ t.name ∈ q.mentioned ∧
      t.name ∉ q.source.tables.map (·.name) := by
  obtain ⟨name, hname, ht⟩ := List.mem_filterMap.mp h
  obtain ⟨hmem, hfar⟩ := List.mem_filter.mp hname
  obtain rfl : t.name = name := by simpa using List.find?_some ht
  exact ⟨ht, List.mem_eraseDups.mp hmem, by simpa using hfar⟩

theorem demands_of_asked {name : String} (hfar : name ∉ q.asked) {o : Joined}
    (ho : o ∈ q.source.parts) : o.demands [name] = false := by
  unfold Joined.demands
  cases hon : o.on with
  | none => rfl
  | some on =>
    obtain ⟨hl, hr⟩ := Source.columns_of_mem_parts ho hon
    have hleft : on.left.table ≠ name := fun he => hfar (he ▸ asked_of_column hl)
    have hright : on.right.table ≠ name := fun he => hfar (he ▸ asked_of_column hr)
    change on.demands [name] = false
    unfold JoinOn.demands
    split <;> simp [JoinOn.names, hleft, hright]

theorem nodup_beside (q : Select) : q.beside.Nodup := by
  refine List.Nodup.filterMap (fun name name' t h h' => ?_) ((nodup_eraseDups _).filter _)
  have hname : t.name = name := by simpa using List.find?_some h
  have hname' : t.name = name' := by simpa using List.find?_some h'
  exact hname.symm.trans hname'

namespace Widens

theorem tables (h : q.Widens q' more marks) :
    q'.tables = q.source.tables ++ more.map (·.1) ++ q'.beside := by
  unfold Select.tables
  rw [h.source, Source.tables_widen]

/-- The rows of the wider query are those of its tables for which the earlier tests are true and
the other columns are null. -/
theorem mem_matched (h : q.Widens q' more marks) : env ∈ q'.matched ts ↔
    env ∈ q'.sourceRows ts ∧ q.holds env = true ∧ ∀ c ∈ marks, env.cell c = .null := by
  unfold matched
  rw [List.mem_filter, h.clauses, List.all_append, Bool.and_eq_true, List.all_map,
    List.all_eq_true (l := marks)]
  refine and_congr_right fun _ => and_congr_right fun _ => forall_congr' fun c => ?_
  exact imp_congr_right fun _ => Clause.isTrue_null

variable {outputs : Except Failure Unit}

theorem undemanded (h : q.Widens q' more marks) (hapart : ∀ p ∈ more, p.1.name ∉ q.asked)
    {p : TableDef × JoinOn} (hp : p ∈ more) : demandsAny [p.1.name] q'.clauses = false := by
  refine demandsAny_eq_false fun clause hclause t ht => ?_
  rw [h.clauses] at hclause
  rcases List.mem_append.mp hclause with hclause | hclause
  · refine Or.inl fun hname => hapart p hp ?_
    rw [← List.mem_singleton.mp hname]
    exact asked_of_test hclause ht
  · obtain ⟨c, -, rfl⟩ := List.mem_map.mp hclause
    exact Or.inr ⟨c, List.mem_singleton.mp ht⟩

theorem known (h : q.Widens q' more marks) (hafter : q'.checkNames outputs = .ok ())
    {p : TableDef × JoinOn} (hp : p ∈ more) {name : String} (hname : name ∈ p.2.names) :
    name ∈ q.source.tables.map (·.name) ++ more.map (·.1.name) ++ q'.beside.map (·.name) := by
  have hcolumns : ∀ c ∈ [p.2.left, p.2.right], c ∈ q'.source.columns := by
    intro c hc
    rw [h.source, Source.columns_widen]
    exact List.mem_append_right _ (List.mem_flatMap.mpr ⟨p, hp, hc⟩)
  have hknown : ∃ t ∈ q'.tables, t.name = name := by
    simp only [JoinOn.names, List.mem_cons, List.not_mem_nil, or_false] at hname
    rcases hname with rfl | rfl
    · exact exists_of_checkIn (checkIn_of_column hafter (hcolumns _ (by simp)))
    · exact exists_of_checkIn (checkIn_of_column hafter (hcolumns _ (by simp)))
  obtain ⟨t, ht, rfl⟩ := hknown
  rw [h.tables] at ht
  have hmem := List.mem_map_of_mem (f := (·.name)) ht
  rwa [List.map_append, List.map_append, List.map_map] at hmem

/-- The conditions of the new joins are looked at when their tables are joined, if the database
accepts the wider query. -/
theorem late (h : q.Widens q' more marks) (hafter : q'.checkNames outputs = .ok ())
    (hapart : ∀ p ∈ more, p.1.name ∉ q.asked) : q'.source.late = q.source.late := by
  have hclauses : ∀ p ∈ more.map Source.outerPart, demandsAny p.names q'.clauses = false := by
    intro p hp
    obtain ⟨added, hadded, rfl⟩ := List.mem_map.mp hp
    exact h.undemanded hapart hadded
  have hparts : ∀ o ∈ [] ++ q.source.parts, ∀ p ∈ more.map Source.outerPart,
      o.demands p.names = false := by
    intro o ho p hp
    obtain ⟨added, hadded, rfl⟩ := List.mem_map.mp hp
    exact demands_of_asked (hapart added hadded) ho
  have houter : ∀ p ∈ more.map Source.outerPart, p.outer = true := by
    intro p hp
    obtain ⟨added, -, rfl⟩ := List.mem_map.mp hp
    rfl
  -- so the new joins stay outer, and as the query is accepted none of them looks to its right
  obtain ⟨-, -, -, -, -, -, hcheck⟩ := checkNames_eq_ok.mp hafter
  obtain ⟨before, hsimplified⟩ := Joined.simplified_append hclauses hparts houter
  have hright := Joined.looksRight_of_check hcheck
  rw [h.source, Source.parts_widen, hsimplified] at hright
  rw [h.source]
  exact Source.late_widen (Joined.looksRight_append hright) fun _ hp _ => h.known hafter hp

/-- A table beside the joins stays there if the wider query still has a table of its name, and that
table is none of the new ones. -/
theorem beside_of_tables (h : q.Widens q' more marks) {t : TableDef} (ht : t ∈ q.beside)
    (hfar : ∀ p ∈ more, p.1.name ≠ t.name) (hknown : ∃ t' ∈ q'.tables, t'.name = t.name) :
    t ∈ q'.beside := by
  obtain ⟨hschema, -, hapart⟩ := mem_beside ht
  obtain ⟨t', ht', hname⟩ := hknown
  rw [h.tables] at ht'
  rcases List.mem_append.mp ht' with ht' | ht'
  · rcases List.mem_append.mp ht' with ht' | ht'
    · exact absurd (hname ▸ List.mem_map_of_mem ht') hapart
    · obtain ⟨p, hp, rfl⟩ := List.mem_map.mp ht'
      exact absurd hname (hfar p hp)
  · obtain ⟨hschema', -⟩ := mem_beside ht'
    rw [h.schema, hname, hschema] at hschema'
    exact Option.some.inj hschema' ▸ ht'

/-- Where a wider row has what the earlier one has of the tables that stay, it finds the same under
every column that both queries know. -/
theorem find?_eq (h : q.Widens q' more marks) (htables : env.map (·.table) = q.tables)
    (htables' : env'.map (·.table) = q'.tables)
    (hkept : ∀ b ∈ env, b.table ∈ q.source.tables ∨ b.table ∈ q'.beside → b ∈ env')
    (hc : c.checkIn q.tables = .ok ()) (hc' : c.checkIn q'.tables = .ok ())
    (hfar : ∀ p ∈ more, p.1.name ≠ c.table) : env'.find? c = env.find? c := by
  have hknown := exists_of_checkIn hc'
  rw [← htables] at hc
  rw [← htables'] at hc'
  refine find?_eq_of_mem hc hc' fun b hb hn => hkept b hb ?_
  have ht : b.table ∈ q.tables := htables ▸ List.mem_map_of_mem hb
  rcases List.mem_append.mp ht with ht | ht
  · exact Or.inl ht
  · rw [← hn] at hfar hknown
    exact Or.inr (h.beside_of_tables ht hfar hknown)

def rowFor (ts : Tables) (env : Env) (t : TableDef) : List Cell :=
  match List.find? (·.table = t) env with
  | some b => b.row
  | none => (ts.rowsOf t.name).headD []

theorem rowFor_mem {t : TableDef} (hrows : ∀ b ∈ env, b.row ∈ ts.rowsOf b.table.name)
    (ht : ts.rowsOf t.name ≠ []) : rowFor ts env t ∈ ts.rowsOf t.name := by
  unfold rowFor
  split
  next b hb =>
    obtain rfl : b.table = t := by simpa using List.find?_some hb
    exact hrows b (List.mem_of_find?_eq_some hb)
  next =>
    obtain ⟨row, rest, hcons⟩ := List.exists_cons_of_ne_nil ht
    rw [hcons]
    exact List.mem_cons_self

theorem rowFor_eq (hnodup : (env.map (·.table)).Nodup) {b : Bound} (hb : b ∈ env) :
    rowFor ts env b.table = b.row := by
  have hsome : (List.find? (·.table = b.table) env).isSome = true :=
    List.find?_isSome.mpr ⟨b, hb, by simp⟩
  obtain ⟨found, hfound⟩ := Option.isSome_iff_exists.mp hsome
  have htable : found.table = b.table := by simpa using List.find?_some hfound
  have hmem : found ∈ env := List.mem_of_find?_eq_some hfound
  unfold rowFor
  rw [hfound, List.inj_on_of_nodup_map hnodup hmem hb htable]

/-- Every row of the tables of a query stands in a row of those of the wider one, as far as its
tables are still there, if no table beside the joins is empty. -/
theorem exists_crossRow (h : q.Widens q' more marks)
    (hbeside : ∀ t ∈ q'.beside, ts.rowsOf t.name ≠ [])
    (henv : env ∈ crossRows ts (q.source.rows ts) q.beside) :
    ∃ env' ∈ crossRows ts (q'.source.rows ts) q'.beside, ∀ x ∈ env,
      x.table ∈ q.source.tables ∨ x.table ∈ q'.beside → x ∈ env' := by
  obtain ⟨a, ha, b, hb, hrows, rfl⟩ := mem_crossRows.mp henv
  obtain ⟨new, hnew⟩ : ∃ new, a ++ new ∈ q'.source.rows ts := by
    rw [h.source]
    exact Source.exists_row_widen ha
  let others : Env := q'.beside.map fun t => ⟨t, rowFor ts b t⟩
  have hothers : ∀ x ∈ others, x.row ∈ ts.rowsOf x.table.name := by
    intro x hx
    obtain ⟨t, ht, rfl⟩ := List.mem_map.mp hx
    exact rowFor_mem hrows (hbeside t ht)
  refine ⟨a ++ new ++ others, mem_crossRows.mpr
    ⟨a ++ new, hnew, others, by simp [others, Function.comp_def], hothers, rfl⟩, fun x hx ht => ?_⟩
  rcases List.mem_append.mp hx with hx | hx
  · simp [hx]
  have hfar : x.table ∉ q.source.tables := by
    have hmem : x.table ∈ q.beside := hb ▸ List.mem_map_of_mem hx
    exact fun ht => (mem_beside hmem).2.2 (List.mem_map_of_mem ht)
  refine List.mem_append_right _ (List.mem_map.mpr ⟨x.table, ht.resolve_left hfar, ?_⟩)
  rw [rowFor_eq (hb ▸ nodup_beside q) hx]

/-- Every row of a query stands in a row of the wider one for which the earlier tests are true, as
long as nothing that was asked is about a new table and no table beside the joins is empty. -/
theorem exists_row (h : q.Widens q' more marks) {outputs outputs' : Except Failure Unit}
    (hbefore : q.checkNames outputs = .ok ()) (hafter : q'.checkNames outputs' = .ok ())
    (hapart : ∀ p ∈ more, p.1.name ∉ q.asked)
    (hbeside : ∀ t ∈ q'.beside, ts.rowsOf t.name ≠ []) (henv : env ∈ q.matched ts) :
    ∃ env' ∈ q'.sourceRows ts, q.holds env' = true ∧
      ∀ b ∈ env, b.table ∈ q.source.tables → b ∈ env' := by
  obtain ⟨hsource, hholds⟩ := List.mem_filter.mp henv
  obtain ⟨hcross, hlate⟩ := List.mem_filter.mp hsource
  obtain ⟨env', hcross', hkept⟩ := h.exists_crossRow hbeside hcross
  have htables' : env'.map (·.table) = q'.tables :=
    tables_of_mem_crossRows (fun _ he => Source.tables_of_mem_rows he) hcross'
  -- what was asked is of tables that both queries know, and of none of the new ones
  have hfind : ∀ c : ColumnRef, c.checkIn q.tables = .ok () → c.checkIn q'.tables = .ok () →
      c.table ∈ q.asked → env'.find? c = env.find? c :=
    fun c hc hc' hasked => h.find?_eq (tables_of_mem_matched henv) htables' hkept hc hc'
      fun p hp hname => hapart p hp (hname ▸ hasked)
  have hcolumns : ∀ c ∈ q.source.columns, env'.find? c = env.find? c := by
    intro c hc
    have hmore : c ∈ q'.source.columns := by
      rw [h.source, Source.columns_widen]
      exact List.mem_append_left _ hc
    exact hfind c (checkIn_of_column hbefore hc) (checkIn_of_column hafter hmore)
      (asked_of_column hc)
  have htests : ∀ clause ∈ q.clauses, ∀ t ∈ clause.tests,
      env'.find? t.column = env.find? t.column := by
    intro clause hclause t ht
    have hmore : clause ∈ q'.clauses := by
      rw [h.clauses]
      exact List.mem_append_left _ hclause
    exact hfind _ (checkIn_of_test hbefore hclause ht) (checkIn_of_test hafter hmore ht)
      (asked_of_test hclause ht)
  refine ⟨env', List.mem_filter.mpr ⟨hcross', ?_⟩, ?_, fun b hb ht => hkept b hb (Or.inl ht)⟩
  · rw [Source.keepsLate_congr (h.late hafter hapart) hcolumns]
    exact hlate
  · rw [holds_congr htests]
    exact hholds

end Widens

end Select

end Winnow
