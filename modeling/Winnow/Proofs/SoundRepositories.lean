import Winnow.Proofs.ListedColumns

namespace Winnow.Repository

variable {r : Repository} {s : State}

/-- A listed name without that of its table. -/
def bareName (listed : String) : String := ((cut '.' listed).map (·.2)).getD listed

/-- A repository whose schema knows its table, whose columns have distinct names, and whose listed
columns, like the one that marks trashed rows, are columns of that table. -/
structure Sound (r : Repository) : Prop where
  registered : r.schema.table? r.model.table.name = some r.model.table
  distinct : r.model.table.columnNames.Nodup
  separator : r.catalog.separator ≠ ""
  listed : ∀ c ∈ r.catalog.filterable, r.bareQuery.findColumn (r.catalog.book.qualify c) =
    .ok ⟨r.model.table.name, bareName c⟩
  trashMark : r.softDeletes = true →
    r.bareQuery.findColumn (r.model.table.qualified r.catalog.softDeleteColumn) =
      .ok ⟨r.model.table.name, r.catalog.softDeleteColumn⟩

/-- A repository before any call for its next result. -/
structure Ready (r : Repository) (s : State) : Prop where
  session : s.desk.session = Session.new r.scopedQuery
  memory : r.catalog.book.Reaches s.desk.memory

def scopeTests (r : Repository) : List Test :=
  if r.softDeletes then [.null ⟨r.model.table.name, r.catalog.softDeleteColumn⟩ false] else []

theorem callAll_scopeCalls (h : r.Sound) :
    callAll r.scopeCalls r.bareQuery = .ok () (r.bareQuery.addTests r.scopeTests) := by
  unfold scopeCalls scopeTests
  split
  next hs => exact callAll_of_adds (.cons .null .nil) (h.trashMark hs)
  next =>
    rw [Select.addTests_nil]
    rfl

theorem scopedQuery_eq (h : r.Sound) (n : Nat) :
    r.scopedQuery n = r.bareQuery.addTests r.scopeTests := by
  unfold scopedQuery
  rw [callAll_scopeCalls h]

theorem start_ready (h : r.Sound) (db : Database) :
    ∃ s, r.start db = .ok s ∧ r.Ready s ∧ s.database = db := by
  unfold start
  rw [callAll_scopeCalls h]
  exact ⟨_, rfl, ⟨rfl, .empty⟩, rfl⟩

theorem serves_of_ready (h : r.Sound) (hs : r.Ready s) :
    Desk.Serves r.catalog (r.bareQuery.addTests r.scopeTests) s.desk := by
  refine ⟨?_, ?_, hs.memory⟩
  · rw [hs.session]
    exact scopedQuery_eq h 0
  · rw [hs.session]
    rfl

theorem mem_of_findColumn (h : r.Sound) {reference column : String}
    (hc : r.bareQuery.findColumn reference = .ok ⟨r.model.table.name, column⟩) :
    column ∈ r.model.table.columnNames := by
  unfold Select.findColumn Select.findTable at hc
  simp only at hc
  split at hc
  next t ht =>
    change (if _ then _ else _ : Except Failure ColumnRef) = _ at hc
    split at hc
    next hm =>
      obtain ⟨htable, rfl⟩ := ColumnRef.mk.inj (Except.ok.inj hc)
      rw [htable, show r.bareQuery.schema = r.schema from rfl, h.registered] at ht
      cases ht
      exact hm
    next => cases hc
  next => cases hc

theorem bareName_eq {column : String} (h : '.' ∉ column.toList) : bareName column = column := by
  unfold bareName cut
  rw [cutList_eq_none h]
  rfl

theorem cut_qualified {table : String} (h : '.' ∉ table.toList) (column : String) :
    cut '.' (table ++ "." ++ column) = some (table, column) := by
  unfold cut
  rw [show (table ++ "." ++ column).toList = table.toList ++ '.' :: column.toList by simp]
  rw [cutList_append h]
  simp

theorem findColumn_qualified {schema : Schema} {base : TableDef} {column : String}
    (registered : schema.table? base.name = some base) (hd : '.' ∉ base.name.toList)
    (hc : column ∈ base.columnNames) :
    (Select.new schema base).findColumn (base.name ++ "." ++ column) = .ok ⟨base.name, column⟩ := by
  unfold Select.findColumn Select.tableAndColumn Select.findTable
  rw [cut_qualified hd]
  simp only [Option.getD_some]
  rw [show (Select.new schema base).schema = schema from rfl, registered]
  change (if column ∈ base.columnNames then _ else _ : Except Failure ColumnRef) = _
  rw [if_pos hc]
  rfl

theorem sound_define {model : Model} {schema : Schema} (settings : Settings)
    (relations : List (String × Relation)) {filterable : List String}
    (sortable searchable : List String) (softDeletes : Bool)
    (registered : schema.table? model.table.name = some model.table)
    (distinct : model.table.columnNames.Nodup) (hd : '.' ∉ model.table.name.toList)
    (separator : settings.separator ≠ "")
    (listed : ∀ c ∈ filterable, c ∈ model.table.columnNames ∧ '.' ∉ c.toList)
    (trashMark : softDeletes = true → settings.softDeleteColumn ∈ model.table.columnNames) :
    (define model schema settings relations filterable sortable searchable softDeletes).Sound := by
  refine ⟨registered, distinct, separator, ?_, ?_⟩
  · intro c hc
    obtain ⟨hm, hn⟩ := listed c hc
    have hq : RelationBook.qualify ⟨model.table.name, relations⟩ c =
        model.table.name ++ "." ++ c := by
      unfold RelationBook.qualify
      rw [if_neg (by simpa using hn)]
    change (Select.new schema model.table).findColumn _ = _
    rw [bareName_eq hn]
    exact hq ▸ findColumn_qualified registered hd hm
  · intro hs
    exact findColumn_qualified registered hd (trashMark hs)

end Winnow.Repository
