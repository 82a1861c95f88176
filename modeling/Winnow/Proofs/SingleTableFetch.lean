import Winnow.Proofs.PredicateTests
import Winnow.Repository.Result

namespace Winnow

theorem checkEach_ok {α : Type} {check : α → Except Failure Unit} {xs : List α}
    (h : ∀ x ∈ xs, check x = .ok ()) : checkEach check xs = .ok () := by
  induction xs with
  | nil => rfl
  | cons x xs ih =>
    unfold checkEach
    rw [h x (by simp)]
    exact ih fun y hy => h y (by simp [hy])

theorem Bindings.checkPassed_texts {b : Bindings} (h : ∀ p ∈ b, ∃ s, p = (.str, .text s)) :
    b.checkPassed = .ok () := by
  induction b with
  | nil => rfl
  | cons p b ih =>
    obtain ⟨s, rfl⟩ := h p (by simp)
    exact ih fun y hy => h y (by simp [hy])

theorem Bindings.checkStorable_texts {b : Bindings} (h : ∀ p ∈ b, ∃ s, p = (.str, .text s)) :
    b.checkStorable = .ok () := by
  induction b with
  | nil => rfl
  | cons p b ih =>
    obtain ⟨s, rfl⟩ := h p (by simp)
    exact ih fun y hy => h y (by simp [hy])

/-- The columns of a table as outputs. -/
def TableDef.outputs (base : TableDef) : List NamedOutput :=
  base.columnNames.map fun c => ⟨.column ⟨base.name, c⟩, none⟩

theorem nameOutputs_columns {table : String} {columns : List String} {taken : Taken}
    {numbers : Numbering} (distinct : columns.Nodup)
    (hfree : ∀ c ∈ columns, taken.names.lookup c = none) :
    nameOutputs taken numbers (columns.map fun c => ⟨.column ⟨table, c⟩, none⟩) =
      (columns.map fun c => ⟨.column ⟨table, c⟩, none⟩, numbers) := by
  induction columns generalizing taken with
  | nil => rfl
  | cons c columns ih =>
    obtain ⟨hc, hrest⟩ := List.nodup_cons.mp distinct
    have hfirst := hfree c (by simp)
    have hnext : ∀ c' ∈ columns, (taken.add c (some ⟨table, c⟩)).names.lookup c' = none := by
      intro c' hc'
      have hne : c' ≠ c := fun he => hc (he ▸ hc')
      simp only [Taken.add, hfirst, List.lookup_cons, beq_eq_false_iff_ne.mpr hne]
      exact hfree c' (by simp [hc'])
    simp only [List.map_cons, nameOutputs, nameOutput, hfirst, ih hrest hnext]

namespace Select

variable {schema : Schema} {base : TableDef} {tests : List Test} {ts : Tables}

def TestsBase (base : TableDef) (tests : List Test) : Prop :=
  ∀ t ∈ tests, ∃ column ∈ base.columnNames, t.OfTexts ⟨base.name, column⟩

theorem named_new (distinct : base.columnNames.Nodup) :
    ((new schema base).addTests tests).named = (base.outputs, []) :=
  nameOutputs_columns distinct (by simp)

theorem isComputed_new : ((new schema base).addTests tests).isComputed = false := by
  simp [isComputed, selected, addTests, new]

theorem beside_new (h : TestsBase base tests) : ((new schema base).addTests tests).beside = [] := by
  have hall : ∀ name ∈ ((new schema base).addTests tests).mentioned, name = base.name := by
    intro name hn
    simp only [mentioned, selected, addTests, new, List.isEmpty_nil, ↓reduceIte, List.mem_append,
      List.mem_filterMap, List.mem_map, List.mem_flatMap, List.nil_append] at hn
    rcases hn with ⟨o, ⟨c, -, rfl⟩, ho⟩ | ⟨clause, ⟨t, ht, rfl⟩, t', ht', rfl⟩
    · exact (Option.some.inj ho).symm
    · cases List.mem_singleton.mp ht'
      obtain ⟨column, -, hc⟩ := h _ ht
      rw [hc.column]
  have hnone : (((new schema base).addTests tests).mentioned.eraseDups.filter
      (· ∉ (Source.table base).tables.map (·.name))) = [] := by
    rw [List.filter_eq_nil_iff]
    intro name hn
    simp [Source.tables, hall name (List.mem_eraseDups.mp hn)]
  unfold beside
  simp only
  rw [show ((new schema base).addTests tests).source = .table base from rfl, hnone]
  rfl

theorem checkColumn_new (h : TestsBase base tests) (column : String) :
    ((new schema base).addTests tests).checkColumn ⟨base.name, column⟩ = .ok () := by
  unfold checkColumn tables
  rw [beside_new h]
  simp [ColumnRef.checkIn, addTests, new, Source.tables]

theorem check_new (distinct : base.columnNames.Nodup) (h : TestsBase base tests) :
    ((new schema base).addTests tests).check = .ok () := by
  have houtputs : checkEach ((new schema base).addTests tests).checkOutput
      ((new schema base).addTests tests).named.1 = .ok () := by
    rw [named_new distinct]
    refine checkEach_ok fun o ho => ?_
    obtain ⟨c, -, rfl⟩ := List.mem_map.mp ho
    exact checkColumn_new h c
  have htests : checkEach ((new schema base).addTests tests).checkColumn
      (((new schema base).addTests tests).clauses.flatMap fun c => c.tests.map (·.column)) =
        .ok () := by
    refine checkEach_ok fun c hc => ?_
    simp only [addTests, new, List.nil_append, List.mem_flatMap, List.mem_map] at hc
    obtain ⟨clause, ⟨t, ht, rfl⟩, t', ht', rfl⟩ := hc
    cases List.mem_singleton.mp ht'
    obtain ⟨column, -, hof⟩ := h _ ht
    rw [hof.column]
    exact checkColumn_new h column
  unfold check checkNames
  rw [houtputs, htests, beside_new h]
  rfl

theorem bindings_new (schema : Schema) (h : TestsBase base tests) :
    ∀ p ∈ ((new schema base).addTests tests).bindings, ∃ s, p = (.str, .text s) := by
  intro p hp
  simp only [bindings, addTests, new, List.nil_append, List.mem_flatMap, List.mem_map] at hp
  obtain ⟨clause, ⟨t, ht, rfl⟩, t', ht', hb⟩ := hp
  cases List.mem_singleton.mp ht'
  obtain ⟨column, -, hof⟩ := h _ ht
  exact hof.bindings hb

theorem checkRun_new (distinct : base.columnNames.Nodup) (h : TestsBase base tests) :
    ((new schema base).addTests tests).checkRun {} = .ok () := by
  have hb := bindings_new schema h
  unfold checkRun
  rw [Bindings.checkPassed_texts hb, check_new distinct h]
  change Bindings.checkStorable (_ ++ []) = .ok ()
  rw [List.append_nil]
  exact Bindings.checkStorable_texts hb

def keeps (base : TableDef) (tests : List Test) (row : List Cell) : Bool :=
  tests.all fun t => (t.eval [⟨base, row⟩]).isTrue

theorem matched_new (schema : Schema) (h : TestsBase base tests) :
    ((new schema base).addTests tests).matched ts =
      ((ts.rowsOf base.name).filter (keeps base tests)).map fun row => [⟨base, row⟩] := by
  have hsource : ((new schema base).addTests tests).sourceRows ts =
      (ts.rowsOf base.name).map fun row => [⟨base, row⟩] := by
    unfold sourceRows
    rw [beside_new h]
    exact List.filter_eq_self.mpr fun _ _ => rfl
  unfold matched
  rw [hsource, List.filter_map]
  congr 1
  apply List.filter_congr
  intro row _
  simp only [keeps, addTests, new, Clause.eval, List.nil_append, List.all_map]
  rfl

theorem sorted_new (h : TestsBase base tests) : ((new schema base).addTests tests).sorted ts =
    ((ts.rowsOf base.name).filter (keeps base tests)).map fun row => [⟨base, row⟩] := by
  unfold sorted
  rw [← matched_new schema h]
  exact List.mergeSort_of_pairwise (List.pairwise_of_forall fun _ _ => rfl)

/-- A row with all its columns, as it is read. -/
def readRow (base : TableDef) (row : List Cell) : Row :=
  base.columns.map fun c => (c.name, (base.cell c.name row).valueAs c.type)

theorem find?_name {columns : List ColumnDef} {c : ColumnDef}
    (distinct : (columns.map (·.name)).Nodup) (hc : c ∈ columns) :
    columns.find? (·.name = c.name) = some c := by
  induction columns with
  | nil => cases hc
  | cons d columns ih =>
    obtain ⟨hd, hrest⟩ := List.nodup_cons.mp distinct
    rcases List.mem_cons.mp hc with rfl | hc
    · simp
    · have hne : d.name ≠ c.name := fun he => hd (List.mem_map.mpr ⟨c, hc, he.symm⟩)
      rw [List.find?_cons_of_neg (by simpa using hne)]
      exact ih hrest hc

theorem cell_base (row : List Cell) (column : String) :
    Env.cell [⟨base, row⟩] ⟨base.name, column⟩ = base.cell column row := by
  simp [Env.cell, Env.find?]

theorem type_base {c : ColumnDef} (distinct : base.columnNames.Nodup) (hc : c ∈ base.columns)
    (row : List Cell) : Env.type [⟨base, row⟩] ⟨base.name, c.name⟩ = c.type := by
  have hfind : base.column? c.name = some c := find?_name distinct hc
  simp [Env.type, Env.find?, hfind]

theorem keys_new (distinct : base.columnNames.Nodup) :
    ((new schema base).addTests tests).keys = base.columnNames := by
  unfold keys
  rw [named_new distinct]
  change List.map NamedOutput.key (base.columnNames.map _) = _
  rw [List.map_map]
  exact List.map_id _

theorem zip_values (distinct : base.columnNames.Nodup) (row : List Cell) :
    base.columnNames.zip (base.outputs.map (outputValue [⟨base, row⟩])) = readRow base row := by
  unfold TableDef.columnNames TableDef.outputs TableDef.columnNames readRow
  rw [List.map_map, List.map_map, List.zip_map']
  apply List.map_congr_left
  intro c hc
  simp only [Function.comp_apply, outputValue, cell_base, type_base distinct hc]

theorem fetch_new (schema : Schema) (ts : Tables) (distinct : base.columnNames.Nodup)
    (h : TestsBase base tests) :
    ((new schema base).addTests tests).fetch ts {} =
      .ok (((ts.rowsOf base.name).filter (keeps base tests)).map (readRow base)) := by
  have hvalues : (Window.of {} (((new schema base).addTests tests).values ts)).map
      ((new schema base).addTests tests).keys.zip =
        ((ts.rowsOf base.name).filter (keeps base tests)).map (readRow base) := by
    unfold values
    rw [sorted_new h, keys_new distinct, named_new distinct]
    change ((List.map _ _).drop 0).map _ = _
    rw [List.drop_zero, List.map_map, List.map_map]
    apply List.map_congr_left
    intro row _
    exact zip_values distinct row
  unfold fetch
  rw [isComputed_new, checkRun_new distinct h]
  change checkKeys _ _ = _
  rw [hvalues, keys_new distinct]
  simp [checkKeys, distinct]

end Select

end Winnow
