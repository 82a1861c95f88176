import Winnow.Proofs.FailingSteps
import Winnow.Select.Result

namespace Winnow

open Sql (Item Frame)

variable {ts : Tables} {env : Env}

namespace Source

theorem tables_nullEnv (s : Source) : s.nullEnv.map (·.table) = s.tables := by
  unfold nullEnv
  rw [List.map_map]
  exact List.map_id _

theorem tables_of_mem_rows {s : Source} (h : env ∈ s.rows ts) : env.map (·.table) = s.tables := by
  induction s generalizing env with
  | table t =>
    obtain ⟨row, -, rfl⟩ := List.mem_map.mp h
    rfl
  | join left right on outer hl hr =>
    obtain ⟨a, ha, hrow⟩ := List.mem_flatMap.mp h
    unfold joinRow at hrow
    simp only at hrow
    split at hrow
    · cases List.mem_singleton.mp hrow
      rw [List.map_append, hl ha, tables_nullEnv]
      rfl
    · obtain ⟨b, hb, rfl⟩ := List.mem_map.mp hrow
      have hright := (List.mem_filter.mp (List.mem_filter.mp hb).1).1
      rw [List.map_append, hl ha, hr hright]
      rfl

end Source

theorem tables_of_mem_crossRows {envs : List Env} {first rest : List TableDef}
    (hf : ∀ env ∈ envs, env.map (·.table) = first) (h : env ∈ crossRows ts envs rest) :
    env.map (·.table) = first ++ rest := by
  induction rest generalizing envs first with
  | nil => rw [hf env h, List.append_nil]
  | cons t rest ih =>
    have hmore : ∀ e ∈ envs.flatMap fun env => (ts.rowsOf t.name).map fun row => env ++ [⟨t, row⟩],
        e.map (·.table) = first ++ [t] := by
      intro e he
      obtain ⟨a, ha, he⟩ := List.mem_flatMap.mp he
      obtain ⟨row, -, rfl⟩ := List.mem_map.mp he
      rw [List.map_append, hf a ha]
      rfl
    rw [ih hmore h, List.append_assoc]
    rfl

theorem checkEach_mem {α : Type} {check : α → Except Failure Unit} {xs : List α}
    (h : checkEach check xs = .ok ()) {x : α} (hx : x ∈ xs) : check x = .ok () := by
  induction xs with
  | nil => cases hx
  | cons y ys ih =>
    obtain ⟨u, hy, hys⟩ := ok_of_bind h
    rcases List.mem_cons.mp hx with rfl | hx
    · exact hy
    · exact ih hys hx

namespace Select

variable {q : Select}

theorem tables_of_mem_matched (h : env ∈ q.matched ts) : env.map (·.table) = q.tables :=
  tables_of_mem_crossRows (fun _ he => Source.tables_of_mem_rows he)
    (List.mem_filter.mp (List.mem_filter.mp h).1).1

theorem checkNames_eq_ok {outputs : Except Failure Unit} : q.checkNames outputs = .ok () ↔
    q.source.checkNested = .ok () ∧ outputs = .ok () ∧
    checkEach q.checkColumn (q.clauses.flatMap fun c => c.tests.map (·.column)) = .ok () ∧
    checkEach q.checkColumn q.source.columns = .ok () ∧
    checkEach q.checkColumn (q.orders.map (·.1)) = .ok () ∧ q.source.checkSides = .ok () ∧
    Joined.check q.clauses (q.beside.map (·.name)) q.source.parts = .ok () := by
  unfold checkNames
  simp only [check_bind_eq_ok]

theorem checkIn_of_checkNames {outputs : Except Failure Unit} (h : q.checkNames outputs = .ok ())
    {clause : Clause} (hc : clause ∈ q.clauses) {test : Test} (ht : test ∈ clause.tests) :
    test.column.checkIn q.tables = .ok () := by
  obtain ⟨-, -, htests, -⟩ := checkNames_eq_ok.mp h
  exact checkEach_mem htests
    (List.mem_flatMap.mpr ⟨clause, hc, List.mem_map_of_mem ht⟩)

/-- Where one table has the name of a column, the rows of that table are the ones that are looked
at for it. -/
theorem find?_of_checkIn {c : ColumnRef} (h : c.checkIn (env.map (·.table)) = .ok ()) {b : Bound}
    (hb : b ∈ env) (hn : b.table.name = c.table) : env.find? c = some b := by
  have hone : ∃ t, (env.map (·.table)).filter (·.name = c.table) = [t] := by
    unfold ColumnRef.checkIn at h
    split at h
    · cases h
    next t ht => exact ⟨t, ht⟩
    · cases h
  obtain ⟨t, ht⟩ := hone
  rw [List.filter_map, List.map_eq_singleton_iff] at ht
  obtain ⟨found, hfound, -⟩ := ht
  have hmem : b ∈ env.filter ((fun t => decide (t.name = c.table)) ∘ (·.table)) :=
    List.mem_filter.mpr ⟨hb, by simpa using hn⟩
  rw [hfound, List.mem_singleton] at hmem
  unfold Env.find?
  rw [← List.head?_filter, hmem]
  exact congrArg List.head? hfound

theorem cell_of_checkIn {c : ColumnRef} (h : c.checkIn (env.map (·.table)) = .ok ()) {b : Bound}
    (hb : b ∈ env) (hn : b.table.name = c.table) : env.cell c = b.table.cell c.column b.row := by
  unfold Env.cell
  rw [find?_of_checkIn h hb hn]

/-- A row of a result: of the rows that stand side by side, one gives its values, or all of them
together do. -/
inductive MadeOf (q : Select) (ts : Tables) (envs : List Env) : Row → Prop
  | columns {env : Env} : env ∈ envs →
      MadeOf q ts envs (q.keys.zip (q.named.1.map (outputValue env)))
  | computed {env : Env} {frame : Frame} {names : List String} {items : List Item}
      {cells : List Cell} : env ∈ envs →
      frame ∈ Frame.ofLines (q.tables.map (·.sqlSource)) (envs.map (linesOf ts)) →
      frame.lines = linesOf ts env →
      Sql.Evaluation.itemCells (ts.content q.schema) q.steps [frame] items = .ok cells →
      MadeOf q ts envs (q.computedRow names cells)
  | gathered {frame : Frame} {names : List String} {items : List Item} {cells : List Cell} :
      Sql.Evaluation.groupFrame (ts.content q.schema) q.steps [] (q.tables.map (·.sqlSource))
        (items.filterMap Sql.Grouping.itemExpr?) (envs.map (linesOf ts)) = .ok frame →
      Sql.Evaluation.itemCells (ts.content q.schema) q.steps [frame] items = .ok cells →
      MadeOf q ts envs (q.computedRow names cells)

theorem mem_of_mapM {α β ε : Type} {f : α → Except ε β} {xs : List α} {ys : List β}
    (h : xs.mapM f = .ok ys) {y : β} (hy : y ∈ ys) : ∃ x ∈ xs, f x = .ok y := by
  induction xs generalizing ys with
  | nil =>
    cases h
    cases hy
  | cons x xs ih =>
    rw [List.mapM_cons] at h
    obtain ⟨z, hz, h⟩ := ok_of_bind h
    obtain ⟨zs, hzs, h⟩ := ok_of_bind h
    cases h
    rcases List.mem_cons.mp hy with rfl | hy
    · exact ⟨x, by simp, hz⟩
    · obtain ⟨x', hx', hf⟩ := ih hzs hy
      exact ⟨x', by simp [hx'], hf⟩

theorem mem_of_mem_firsts {rows : List (Env × List Cell)} {row : Env × List Cell}
    (h : row ∈ computedRows.firsts rows) : row ∈ rows := by
  have hfold : ∀ (rest done : List (Env × List Cell)), row ∈ rest.foldl (fun done row =>
      if done.any fun d => Sql.Gather.sameCells d.2 row.2 then done else row :: done) done →
        row ∈ done ∨ row ∈ rest := by
    intro rest
    induction rest with
    | nil => exact fun done h => Or.inl h
    | cons first rest ih =>
      intro done h
      rcases ih _ h with h | h
      · simp only at h
        split at h
        · exact Or.inl h
        · exact (List.mem_cons.mp h).symm.imp_right fun he => by simp [he]
      · exact Or.inr (List.mem_cons_of_mem _ h)
  exact (hfold rows [] (List.mem_reverse.mp h)).resolve_left (by simp)

theorem mem_zip_ofLines {sources : List Sql.Source} {envs : List Env} {frame : Frame}
    {f : Env → List Sql.Line} (h : (env, frame) ∈ envs.zip (Frame.ofLines sources (envs.map f))) :
    env ∈ envs ∧ frame ∈ Frame.ofLines sources (envs.map f) ∧ frame.lines = f env := by
  refine ⟨(List.of_mem_zip h).1, (List.of_mem_zip h).2, ?_⟩
  obtain ⟨i, hi, hget⟩ := List.getElem_of_mem h
  simp only [List.getElem_zip, Prod.mk.injEq, Frame.ofLines, List.getElem_map,
    List.getElem_zipIdx] at hget
  rw [← hget.1, ← hget.2]

theorem madeOf_computedRows {distinct : Bool} {items : List Item} {rows : List (List Cell)}
    (h : q.computedRows ts distinct items = .ok rows) {cells : List Cell} (hc : cells ∈ rows)
    (names : List String) : MadeOf q ts (q.matched ts) (q.computedRow names cells) := by
  unfold computedRows at h
  simp only at h
  have hrows := ok_of_mapError h
  split at hrows
  · obtain ⟨frame, hframe, hrows⟩ := ok_of_bind hrows
    obtain ⟨found, hfound, hrows⟩ := ok_of_bind hrows
    cases hrows
    cases List.mem_singleton.mp hc
    exact .gathered hframe hfound
  · obtain ⟨found, hfound, hrows⟩ := ok_of_bind hrows
    cases hrows
    obtain ⟨row, hrow, rfl⟩ := List.mem_map.mp hc
    rw [List.mem_mergeSort] at hrow
    have hmem : row ∈ found := by
      split at hrow
      · exact mem_of_mem_firsts hrow
      · exact hrow
    obtain ⟨⟨env, frame⟩, hzip, hone⟩ := mem_of_mapM hfound hmem
    obtain ⟨found, hcells, hone⟩ := ok_of_bind hone
    cases hone
    obtain ⟨henv, hframe, hlines⟩ := mem_zip_ofLines hzip
    exact .computed henv hframe hlines hcells

/-- Where a query has an output that is more than a column, the database reads its statement as a
list of outputs before the rest of the query, and not as another statement. -/
def ReadsAsList (q : Select) (r : Request) : Prop :=
  q.isComputed = true → ∀ other places more, q.read r ≠ .ok (.other other places more)

/-- What is said of a query that gave a result: each of its tests is of a column of one table, and
the rows are made of those that it looks at. -/
structure Yields (q : Select) (ts : Tables) (rows : List Row) : Prop where
  tested : ∀ clause ∈ q.clauses, ∀ test ∈ clause.tests, test.column.checkIn q.tables = .ok ()
  madeOf : ∀ row ∈ rows, q.MadeOf ts (q.matched ts) row

/-- A list of outputs is answered if its names are known, it holds no places for values, and the
values of the query can be stored. -/
theorem listAnswer_eq_ok {w : Window} {distinct : Bool} {items : List Item} {places : Nat}
    {a : Answer} : q.listAnswer ts w distinct items places = .ok a ↔
      q.itemNames items = .ok a.names ∧ q.checkNames (q.checkItems items) = .ok () ∧
      ¬ 0 < places ∧ Bindings.checkStorable (q.bindings ++ w.bindings) = .ok () ∧
      q.computedRows ts distinct items = .ok a.rows := by
  unfold listAnswer
  constructor
  · intro h
    obtain ⟨names, hnames, h⟩ := ok_of_bind h
    obtain ⟨hchecked, h⟩ := check_bind_eq_ok.mp h
    simp only at h
    split at h
    · cases h
    next hplaces =>
      obtain ⟨hstorable, h⟩ := check_bind_eq_ok.mp h
      obtain ⟨rows, hrows, h⟩ := ok_of_bind h
      cases h
      exact ⟨ok_of_mapError hnames, hchecked, hplaces, hstorable, hrows⟩
  · rintro ⟨hnames, hchecked, hplaces, hstorable, hrows⟩
    rw [hnames, hchecked, hstorable, hrows]
    exact if_neg hplaces

theorem yields_listAnswer {w : Window} {distinct : Bool} {items : List Item} {places : Nat}
    {answer : Answer} (h : q.listAnswer ts w distinct items places = .ok answer)
    (names : List String) : q.Yields ts (answer.rows.map (q.computedRow names)) := by
  obtain ⟨-, hnames, -, -, hrows⟩ := listAnswer_eq_ok.mp h
  refine ⟨fun clause hc test ht => checkIn_of_checkNames hnames hc ht, fun row hrow => ?_⟩
  obtain ⟨cells, hc, rfl⟩ := List.mem_map.mp hrow
  exact madeOf_computedRows hrows hc names

theorem mem_of_mem_window {α : Type} {w : Window} {xs : List α} {x : α} (h : x ∈ w.of xs) :
    x ∈ xs := by
  unfold Window.of at h
  simp only at h
  split at h
  · exact List.mem_of_mem_drop h
  · split at h
    · exact List.mem_of_mem_drop h
    · exact List.mem_of_mem_drop (List.mem_of_mem_take h)

theorem window_whole {α : Type} (xs : List α) : Window.of {} xs = xs := rfl

theorem length_values (q : Select) (ts : Tables) :
    (q.values ts).length = (q.matched ts).length := by
  rw [values, List.length_map, sorted, List.length_mergeSort]

theorem rows_of_checkKeys {keys : List String} {rows found : List Row}
    (h : checkKeys keys rows = .ok found) : found = rows := by
  unfold checkKeys at h
  split at h
  · cases h
  · exact (Except.ok.inj h).symm

theorem madeOf_unordered {envs : List Env} {row : Row}
    (h : MadeOf { q with orders := [] } ts envs row) : MadeOf q ts envs row := by
  cases h with
  | columns henv => exact .columns henv
  | computed henv hframe hlines hcells => exact .computed henv hframe hlines hcells
  | gathered hframe hcells => exact .gathered hframe hcells

theorem yields_values (ts : Tables) (w : Window) (h : q.check = .ok ()) :
    q.Yields ts ((w.of (q.values ts)).map q.keys.zip) := by
  refine ⟨fun clause hc test ht => checkIn_of_checkNames h hc ht, fun row hrow => ?_⟩
  obtain ⟨values, hv, rfl⟩ := List.mem_map.mp hrow
  obtain ⟨env, henv, rfl⟩ := List.mem_map.mp (mem_of_mem_window hv)
  exact .columns (List.mem_mergeSort.mp henv)

theorem checkRun_eq_ok {w : Window} : q.checkRun w = .ok () ↔
    q.bindings.checkPassed = .ok () ∧ q.check = .ok () ∧
      Bindings.checkStorable (q.bindings ++ w.bindings) = .ok () := by
  unfold checkRun
  simp only [check_bind_eq_ok]

theorem yields_fetch {w : Window} {rows : List Row} (hread : q.ReadsAsList (.rows w))
    (h : q.fetch ts w = .ok rows) : q.Yields ts rows := by
  unfold fetch at h
  split at h
  next hcomputed =>
    obtain ⟨answer, hanswer, h⟩ := ok_of_bind h
    rw [rows_of_checkKeys h]
    unfold Select.answer at hanswer
    obtain ⟨_, -, hanswer⟩ := ok_of_bind hanswer
    obtain ⟨reading, hreading, hanswer⟩ := ok_of_bind hanswer
    cases reading with
    | other other places more => exact absurd hreading (hread hcomputed other places more)
    | list distinct items places =>
      have hall := yields_listAnswer hanswer answer.names
      refine ⟨hall.tested, fun row hrow => ?_⟩
      obtain ⟨cells, hc, rfl⟩ := List.mem_map.mp hrow
      exact hall.madeOf _ (List.mem_map_of_mem (mem_of_mem_window hc))
  next =>
    obtain ⟨_, hrun, h⟩ := ok_of_bind h
    rw [rows_of_checkKeys h]
    exact yields_values ts w (checkRun_eq_ok.mp hrun).2.1

theorem yields_count {n : Nat} (hread : q.ReadsAsList .number) (h : q.count ts = .ok n) :
    ∃ rows, rows.length = n ∧ q.Yields ts rows := by
  unfold count at h
  split at h
  next hcomputed =>
    obtain ⟨answer, hanswer, h⟩ := ok_of_bind h
    cases h
    unfold Select.answer at hanswer
    obtain ⟨_, -, hanswer⟩ := ok_of_bind hanswer
    obtain ⟨reading, hreading, hanswer⟩ := ok_of_bind hanswer
    cases reading with
    | other other places more => exact absurd hreading (hread hcomputed other places more)
    | list distinct items places =>
      obtain ⟨found, hfound, hanswer⟩ := ok_of_bind hanswer
      cases hanswer
      have hall := yields_listAnswer hfound found.names
      refine ⟨_, ?_, hall.tested, fun row hrow => madeOf_unordered (hall.madeOf row hrow)⟩
      simp [Answer.count, Answer.ofCount]
  next =>
    obtain ⟨_, hrun, h⟩ := ok_of_bind h
    cases h
    have hall := yields_values ts {} (checkRun_eq_ok.mp hrun).2.1
    refine ⟨_, ?_, hall.tested, fun row hrow => madeOf_unordered (hall.madeOf row hrow)⟩
    rw [List.length_map, window_whole, length_values, length_values]
    rfl

end Select

end Winnow
