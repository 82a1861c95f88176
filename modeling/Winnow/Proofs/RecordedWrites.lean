import Winnow.Proofs.RecordActs
import Winnow.Proofs.RenewedRepository

namespace Winnow

theorem Tables.rowsOf_modifyRows_ne {ts : Tables} {name other : String}
    {f : List (List Cell) → List (List Cell)} (h : other ≠ name) :
    (ts.modifyRows name f).rowsOf other = ts.rowsOf other := by
  induction ts with
  | nil => rfl
  | cons t ts ih =>
    unfold modifyRows rowsOf at ih ⊢
    rw [List.map_cons]
    by_cases ht : t.table.name = other
    · rw [if_neg (ht ▸ h), List.find?_cons_of_pos (by simpa using ht),
        List.find?_cons_of_pos (by simpa using ht)]
    · have hkept : (if t.table.name = name then { t with rows := f t.rows } else t).table.name ≠
          other := by
        split <;> exact ht
      rw [List.find?_cons_of_neg (by simpa using hkept), List.find?_cons_of_neg (by simpa using ht)]
      exact ih

namespace TableDef

variable {t : TableDef} {column : String} {row : List Cell}

theorem cell_setCell_ne {c : ColumnDef} {x : Cell} (hc : c ∈ t.columns)
    (hne : c.name ≠ column) : t.cell column (t.setCell c.name x row) = t.cell column row := by
  -- columns in one place have one name
  have hplace : t.columns.findIdx (·.name = c.name) ≠ t.columns.findIdx (·.name = column) := by
    intro hsame
    have hlt := List.findIdx_lt_length_of_exists (p := (·.name = c.name)) ⟨c, hc, by simp⟩
    have hthere := List.findIdx_getElem (w := hlt)
    have hother := List.findIdx_getElem (w := hsame ▸ hlt)
    simp only [← hsame, decide_eq_true_eq] at hthere hother
    exact hne (hthere.symm.trans hother)
  unfold cell setCell
  rw [List.getD_eq_getElem?_getD, List.getD_eq_getElem?_getD, List.getElem?_set_ne hplace]

theorem cell_presetRow : t.cell column t.presetRow = t.preset column := by
  unfold cell presetRow preset column?
  rw [List.getD_eq_getElem?_getD, List.getElem?_map]
  induction t.columns with
  | nil => rfl
  | cons c columns ih =>
    by_cases hc : c.name = column
    · rw [List.findIdx_cons, List.find?_cons_of_pos (by simpa using hc)]
      simp [hc]
    · rw [List.findIdx_cons, List.find?_cons_of_neg (by simpa using hc), ← ih]
      simp [hc]

end TableDef

/-- What a column holds of a value that is written to it. -/
def ColumnDef.held (c : ColumnDef) (v : Value) : Cell := (Cell.ofValue c.type v).store c.type

namespace Model

variable {m : Model} {ts ts' : Tables} {data : Row} {row new : List Cell} {column name : String}

/-- The data gives a value to an attribute that may be written. -/
def Writes (m : Model) (data : Row) (name : String) : Prop :=
  name ∈ m.writable ∧ ∃ v, (name, v) ∈ data

/-- The data gives one value to an attribute that may be written, that of the column `c`. -/
structure Sets (m : Model) (data : Row) (c : ColumnDef) (v : Value) : Prop where
  named : m.attribute? (m.attributeName c.name) = some c
  writable : m.attributeName c.name ∈ m.writable
  given : (m.attributeName c.name, v) ∈ data
  only : ∀ w, (m.attributeName c.name, w) ∈ data → w = v

/-- What a new row has in a column to which a value is written; null counts as no value. -/
def entered (m : Model) (c : ColumnDef) : Value → Cell
  | .null => m.table.preset c.name
  | v => c.held v

/-- A column that the database numbers when a new row has no value in it. -/
def Numbers (m : Model) (column : String) : Prop :=
  ∃ key, m.table.keys = [key] ∧ key.type = .int ∧ key.name = column

/-- A column of a new row beside others gets a value; where that is null it may be numbered. -/
def Gets (m : Model) (others : List (List Cell)) (column : String) (x : Cell)
    (row : List Cell) : Prop :=
  m.table.cell column row = x ∨ x = .null ∧ m.Numbers column ∧
    m.table.cell column row = .int (nextNumber (others.map (m.table.cell column)))

/-- An identifier can be looked up and gives the key of a row. -/
def Names (m : Model) (id : Value) (row : List Cell) : Prop :=
  ∃ parts, m.keyOf id = .ok parts ∧ m.hasKey parts row = true

theorem attributeName_of_attribute? {c : ColumnDef} (h : m.attribute? name = some c) :
    m.attributeName c.name = name := by
  obtain ⟨c', -, heq⟩ := List.mem_map.mp (mem_attributes h)
  cases heq
  rfl

theorem mem_writablePart {d : String × Value} :
    d ∈ m.writablePart data ↔ d ∈ data ∧ d.1 ∈ m.writable := by
  unfold writablePart
  rw [List.mem_filter, decide_eq_true_eq]

theorem cell_assign_ne {d : String × Value} (h : m.attributeName column ≠ d.1) :
    m.table.cell column (m.assign row d) = m.table.cell column row := by
  unfold assign
  split
  next c hc =>
    refine TableDef.cell_setCell_ne (mem_columns_of_attribute hc) fun hname => h ?_
    rw [← hname, attributeName_of_attribute? hc]
  next => rfl

theorem cell_assignAll_of_notMem (h : ∀ d ∈ data, m.attributeName column ≠ d.1) :
    m.table.cell column (m.assignAll data row) = m.table.cell column row := by
  unfold assignAll
  induction data generalizing row with
  | nil => rfl
  | cons d data ih =>
    rw [List.foldl_cons, ih fun d' hd => h d' (List.mem_cons_of_mem _ hd),
      cell_assign_ne (h d List.mem_cons_self)]

theorem cell_assignAll_of_mem {c : ColumnDef} {v : Value} (hc : m.attribute? name = some c)
    (hrow : row.length = m.table.columns.length) (hv : (name, v) ∈ data)
    (hone : ∀ w, (name, w) ∈ data → w = v) :
    m.table.cell c.name (m.assignAll data row) = c.held v := by
  induction data generalizing row with
  | nil => cases hv
  | cons d data ih =>
    unfold assignAll at ih ⊢
    rw [List.foldl_cons]
    -- the last entry for the attribute decides, as nothing is written to its column after it
    by_cases hlater : (name, v) ∈ data
    · exact ih ((length_assign d).trans hrow) hlater fun w hw => hone w (List.mem_cons_of_mem _ hw)
    · obtain rfl : (name, v) = d := (List.mem_cons.mp hv).resolve_right hlater
      have hlast : ∀ d ∈ data, m.attributeName c.name ≠ d.1 := by
        intro d hd hname
        rw [attributeName_of_attribute? hc] at hname
        subst hname
        exact hlater (hone d.2 (List.mem_cons_of_mem _ hd) ▸ hd)
      change m.table.cell c.name (m.assignAll data _) = _
      rw [cell_assignAll_of_notMem hlast, assign]
      simp only [hc]
      exact TableDef.cell_setCell (mem_columns_of_attribute hc) hrow

theorem cell_of_not_writes (h : ¬m.Writes data (m.attributeName column)) :
    m.table.cell column (m.assignAll (m.writablePart data) row) = m.table.cell column row := by
  refine cell_assignAll_of_notMem fun d hd hname => h ?_
  obtain ⟨hdata, hwritable⟩ := mem_writablePart.mp hd
  exact ⟨hname ▸ hwritable, d.2, hname ▸ hdata⟩

theorem Sets.cell {c : ColumnDef} {v : Value} (h : m.Sets data c v)
    (hrow : row.length = m.table.columns.length) :
    m.table.cell c.name (m.assignAll (m.writablePart data) row) = c.held v :=
  cell_assignAll_of_mem h.named hrow (mem_writablePart.mpr ⟨h.given, h.writable⟩)
    fun w hw => h.only w (mem_writablePart.mp hw).1

theorem mem_valued {d : String × Value} : d ∈ valued data ↔ d ∈ data ∧ d.2 ≠ .null := by
  unfold valued
  rw [List.mem_filter]
  cases d.2 <;> simp

theorem cell_valued_of_not_writes (h : ¬m.Writes data (m.attributeName column)) :
    m.table.cell column (m.assignAll (valued (m.writablePart data)) row) =
      m.table.cell column row := by
  refine cell_assignAll_of_notMem fun d hd hname => h ?_
  obtain ⟨hdata, hwritable⟩ := mem_writablePart.mp (mem_valued.mp hd).1
  exact ⟨hname ▸ hwritable, d.2, hname ▸ hdata⟩

theorem Sets.cell_valued {c : ColumnDef} {v : Value} (h : m.Sets data c v) :
    m.table.cell c.name (m.assignAll (valued (m.writablePart data)) m.table.presetRow) =
      m.entered c v := by
  have honly : ∀ w, (m.attributeName c.name, w) ∈ valued (m.writablePart data) → w = v :=
    fun w hw => h.only w (mem_writablePart.mp (mem_valued.mp hw).1).1
  by_cases hv : v = .null
  · subst hv
    rw [cell_assignAll_of_notMem fun d hd hname => ?_, TableDef.cell_presetRow, entered]
    exact (mem_valued.mp hd).2 (honly d.2 (hname ▸ hd))
  · have hrow : m.table.presetRow.length = m.table.columns.length := List.length_map _
    have hgiven := mem_valued.mpr ⟨mem_writablePart.mpr ⟨h.given, h.writable⟩, hv⟩
    rw [cell_assignAll_of_mem h.named hrow hgiven honly]
    cases v <;> first | rfl | exact absurd rfl hv

theorem gets_number (rows : List (List Cell)) (hrow : row.length = m.table.columns.length) :
    m.Gets rows column (m.table.cell column row) (m.number rows row) := by
  unfold number
  split
  next key hkey =>
    have hmem : key ∈ m.table.columns :=
      (List.mem_filter.mp (hkey ▸ List.mem_singleton_self key : key ∈ m.table.keys)).1
    split
    next hnull =>
      by_cases hname : key.name = column
      · subst hname
        exact .inr ⟨hnull.2, ⟨key, hkey, hnull.1, rfl⟩, TableDef.cell_setCell hmem hrow⟩
      · exact .inl (TableDef.cell_setCell_ne hmem hname)
    next => exact .inl rfl
  next => exact .inl rfl

theorem eq_newRow_of_insert (h : m.insert data ts = .ok (row, ts')) :
    row = m.newRow (ts.rowsOf m.table.name) data := by
  obtain ⟨-, h⟩ := check_bind_eq_ok.mp h
  obtain ⟨-, h⟩ := check_bind_eq_ok.mp h
  cases h
  rfl

theorem names_of_int {key : ColumnDef} {n : Int} (hkey : m.table.keys = [key])
    (htype : key.type = .int) (hn : m.table.cell key.name row = .int n)
    (hfits : isInt64 n = true) : m.Names (.int n) row := by
  have hchecked : m.checkKey [.int n] = .ok () := by
    unfold checkKey
    rw [hkey]
    exact check_bind_eq_ok.mpr ⟨if_pos hfits, rfl⟩
  have hsame : (Cell.int n).same ((Cell.ofValue .int (.int n)).met .int) = true :=
    Cell.same_iff.mpr ⟨nofun, rfl⟩
  refine ⟨[.int n], ?_, ?_⟩
  · unfold keyOf
    simp only [keyParts, hkey, hchecked]
    rfl
  · unfold hasKey
    rw [hkey]
    simp [isTrue_compareBound_eq, hn, htype, hsame]

theorem Names.of_keys {id : Value} {old : List Cell} (h : m.Names id old)
    (hkeys : ∀ key ∈ m.table.keys, m.table.cell key.name new = m.table.cell key.name old) :
    m.Names id new := by
  obtain ⟨parts, hparts, hold⟩ := h
  refine ⟨parts, hparts, List.all_eq_true.mpr fun p hp => ?_⟩
  rw [hkeys p.1 (List.of_mem_zip hp).1]
  exact List.all_eq_true.mp hold p hp

end Model

namespace Repository

variable {r : Repository} {s s' : State} {data fields : Row} {id : Value} {i : Nat}
variable {row old new : List Cell}

/-- A row that is looked over as trashed. -/
def omits (r : Repository) (row : List Cell) : Bool :=
  r.softDeletes && r.model.isTrashed r.catalog.softDeleteColumn row

/-- An identifier can be looked up, and there is no row under it or a trashed one. -/
def Absent (r : Repository) (id : Value) (s : State) : Prop :=
  ∃ parts, r.model.keyOf id = .ok parts ∧
    ∀ row ∈ r.rows s, r.model.hasKey parts row = true → r.omits row = true

theorem find_filtered {found : Option (List Cell)}
    (h : r.model.find id s.database.current = .ok found) :
    r.find id s = .ok (found.filter fun row => !r.omits row) s :=
  find_ok h

theorem find_of_absent (h : r.Absent id s) : r.find id s = .ok none s := by
  obtain ⟨parts, hparts, hrows⟩ := h
  have hfind : r.model.find id s.database.current =
      .ok ((r.rows s).find? (r.model.hasKey parts)) := by
    unfold Model.find
    rw [hparts]
    rfl
  rw [find_filtered hfind]
  congr 1
  rw [Option.filter_eq_none_iff]
  intro row hrow
  simp [hrows row (List.mem_of_find?_eq_some hrow) (List.find?_some hrow)]

theorem named_of_find (hk : r.model.Kept s.database.current)
    (h : r.find id s = .ok (some row) s') :
    ∃ i : Nat, (r.rows s)[i]? = some row ∧ r.model.Names id row ∧ r.omits row = false := by
  cases hf : r.model.find id s.database.current with
  | error e =>
    rw [find_error hf] at h
    cases h
  | ok found =>
    rw [find_filtered hf] at h
    obtain ⟨hfound, -⟩ := EStateM.Result.ok.inj h
    obtain ⟨rfl, hkeep⟩ := Option.filter_eq_some_iff.mp hfound
    obtain ⟨parts, i, hparts, hi, hkey⟩ := hk.find_eq_ok_some.mp hf
    exact ⟨i, hi, ⟨parts, hparts, hkey⟩, by simpa using hkeep⟩

theorem find_of_names (hk : r.model.Kept s.database.current) (hi : (r.rows s)[i]? = some row)
    (h : r.model.Names id row) :
    r.find id s = .ok (if r.omits row = true then none else some row) s := by
  obtain ⟨parts, hparts, hkey⟩ := h
  rw [find_filtered (hk.find_eq_ok_some.mpr ⟨parts, i, hparts, hi, hkey⟩)]
  cases homits : r.omits row <;> simp [Option.filter, homits]

theorem absent_of_find (hk : r.model.Kept s.database.current)
    (h : r.find id s = .ok none s') : r.Absent id s := by
  cases hparts : r.model.keyOf id with
  | error e =>
    have hfind : r.model.find id s.database.current = .error e := by
      unfold Model.find
      rw [hparts]
      rfl
    rw [find_error hfind] at h
    cases h
  | ok parts =>
    refine ⟨parts, hparts, fun row hrow hkey => ?_⟩
    obtain ⟨i, hi⟩ := List.mem_iff_getElem?.mp hrow
    rw [find_of_names hk hi ⟨parts, hparts, hkey⟩] at h
    by_contra homits
    rw [if_neg homits] at h
    cases h

theorem read_of_names (hk : r.model.Kept s.database.current) (hi : (r.rows s)[i]? = some row)
    (h : r.model.Names id row) :
    r.read id s = .ok (if r.omits row = true then [] else r.model.record row) s := by
  have hfind := find_of_names hk hi h
  rw [Repository.read, Repository.find?, bind_assoc, bind_of_ok hfind]
  cases r.omits row <;> rfl

theorem omits_congr (h : ∀ c, r.model.attribute? r.catalog.softDeleteColumn = some c →
    r.model.table.cell c.name new = r.model.table.cell c.name old) : r.omits new = r.omits old := by
  unfold omits Model.isTrashed
  split
  next c hc => rw [h c hc]
  next => rfl

theorem omits_of_null (h : ∀ c, r.model.attribute? r.catalog.softDeleteColumn = some c →
    r.model.table.cell c.name row = .null) : r.omits row = false := by
  unfold omits Model.isTrashed
  split
  next c hc => simp [h c hc]
  next => exact Bool.and_false _

/-- What lies beside the repository's table is as it was: the session with its query and what is
remembered of it, the other tables, and what was committed. -/
structure Apart (r : Repository) (s s' : State) : Prop where
  desk : s'.desk = s.desk
  strings : s'.strings = s.strings
  tables : ∀ name, name ≠ r.model.table.name →
    s'.database.current.rowsOf name = s.database.current.rowsOf name
  committed : s'.database.committed = s.database.committed

theorem apart_modifyRows (f : List (List Cell) → List (List Cell)) :
    r.Apart s (s.withTables (s.database.current.modifyRows r.model.table.name f)) :=
  ⟨rfl, rfl, fun _ hne => Tables.rowsOf_modifyRows_ne hne, rfl⟩

/-- What is told of a row is its record, without what is hidden; reading the row gives the same,
unless it is looked over. -/
structure Told (r : Repository) (fields : Row) (s' : State) (row : List Cell) : Prop where
  record : fields = r.model.record row
  hidden : ∀ entry ∈ fields, entry.1 ∉ r.model.hidden
  read : ∀ id, r.model.Names id row →
    r.read id s' = .ok (if r.omits row = true then [] else fields) s'

theorem told_record (hk : r.model.Kept s.database.current) (hi : (r.rows s)[i]? = some row) :
    r.Told (r.model.record row) s row where
  record := rfl
  hidden entry hentry := by
    obtain ⟨named, hnamed, rfl⟩ := List.mem_map.mp hentry
    simpa using (List.mem_filter.mp hnamed).2
  read _ h := read_of_names hk hi h

/-- What adding a record with some data does: one row more, in which a column that the data does
not write has its preset, or the number that the database gives it. -/
structure Added (r : Repository) (data fields : Row) (s s' : State) (new : List Cell) : Prop where
  apart : r.Apart s s'
  kept : r.model.Kept s'.database.current
  rows : r.rows s' = r.rows s ++ [new]
  written : ∀ c v, r.model.Sets data c v → r.model.Gets (r.rows s) c.name (r.model.entered c v) new
  unwritten : ∀ column, ¬r.model.Writes data (r.model.attributeName column) →
    r.model.Gets (r.rows s) column (r.model.table.preset column) new
  named : ∀ key n, r.model.table.keys = [key] → key.type = .int →
    r.model.table.cell key.name new = .int n → isInt64 n = true → r.model.Names (.int n) new
  told : r.Told fields s' new
  shown : ¬r.model.Writes data r.catalog.softDeleteColumn →
    (∀ c, r.model.attribute? r.catalog.softDeleteColumn = some c →
      ¬r.model.Numbers c.name ∧ r.model.table.preset c.name = .null) → r.omits new = false

/-- What changing the row `old` of an identifier with some data does: in its place stands one that
differs in the columns that the data writes. -/
structure Changed (r : Repository) (id : Value) (data fields : Row) (s s' : State) (i : Nat)
    (old new : List Cell) : Prop where
  apart : r.Apart s s'
  kept : r.model.Kept s'.database.current
  rows : r.rows s' = (r.rows s).set i new
  written : ∀ c v, r.model.Sets data c v → r.model.table.cell c.name new = c.held v
  unwritten : ∀ column, ¬r.model.Writes data (r.model.attributeName column) →
    r.model.table.cell column new = r.model.table.cell column old
  named : (∀ key ∈ r.model.table.keys, ¬r.model.Writes data (r.model.attributeName key.name)) →
    r.model.Names id new
  told : r.Told fields s' new
  shown : ¬r.model.Writes data r.catalog.softDeleteColumn → r.omits new = false

theorem added_of_create (hk : r.model.Kept s.database.current)
    (h : r.create data s = .ok fields s') : ∃ new, r.Added data fields s s' new := by
  obtain ⟨new, ts, hinsert, rfl, rfl⟩ := of_create h
  have hrows : r.rows (s.withTables ts) = r.rows s ++ [new] := hk.rowsOf_insert hinsert
  have hkept : r.model.Kept (s.withTables ts).database.current := hk.insert hinsert
  have hgets : ∀ column, r.model.Gets (r.rows s) column (r.model.table.cell column
      (r.model.assignAll (Model.valued (r.model.writablePart data)) r.model.table.presetRow))
      new := by
    intro column
    rw [Model.eq_newRow_of_insert hinsert]
    exact Model.gets_number _ (Model.length_assignAll.trans (List.length_map _))
  have hunwritten : ∀ column, ¬r.model.Writes data (r.model.attributeName column) →
      r.model.Gets (r.rows s) column (r.model.table.preset column) new := by
    intro column hwrites
    have hcell := hgets column
    rwa [Model.cell_valued_of_not_writes hwrites, TableDef.cell_presetRow] at hcell
  have hplace : (r.rows (s.withTables ts))[(r.rows s).length]? = some new := by
    rw [hrows, List.getElem?_concat_length]
  refine ⟨new, ?_, hkept, hrows, fun c v hset => ?_, hunwritten,
    fun key n hkey htype hn hfits => Model.names_of_int hkey htype hn hfits,
    told_record hkept hplace, fun hwrites hmark => omits_of_null fun c hc => ?_⟩
  · obtain ⟨-, -, rfl⟩ := Model.of_insert hinsert
    exact apart_modifyRows _
  · rw [← hset.cell_valued]
    exact hgets c.name
  · obtain ⟨hnumbers, hpreset⟩ := hmark c hc
    rw [← Model.attributeName_of_attribute? hc] at hwrites
    rw [← hpreset]
    exact (hunwritten c.name hwrites).resolve_right fun hnumbered => hnumbers hnumbered.2.1

theorem changed_of_update (hk : r.model.Kept s.database.current)
    (hi : (r.rows s)[i]? = some old) (hnames : r.model.Names id old)
    (homits : r.omits old = false) (h : r.update id data s = .ok fields s') :
    ∃ new, r.Changed id data fields s s' i old new := by
  have hfind := find_of_names hk hi hnames
  rw [homits, if_neg Bool.false_ne_true] at hfind
  rcases of_update h with ⟨hnone, -, -⟩ | ⟨row, new, ts, hrow, hupdate, rfl, rfl⟩
  · cases hfind.symm.trans hnone
  cases hfind.symm.trans hrow
  obtain ⟨parts, hparts, hkey⟩ := hnames
  have hself := Model.sameKey_of_hasKey (Model.length_of_keyOf hparts) hkey hkey
  have hrows : r.rows (s.withTables ts) = (r.rows s).set i new := hk.rowsOf_update hi hself hupdate
  have hkept : r.model.Kept (s.withTables ts).database.current := hk.update hi hself hupdate
  have hlength := hk.shape old (List.mem_of_getElem? hi)
  obtain ⟨-, hnew, -, hts⟩ := Model.of_update hupdate
  have hunwritten : ∀ column, ¬r.model.Writes data (r.model.attributeName column) →
      r.model.table.cell column new = r.model.table.cell column old := by
    intro column hwrites
    rw [hnew, Model.cell_of_not_writes hwrites]
  have hplace : (r.rows (s.withTables ts))[i]? = some new := by
    obtain ⟨hlt, -⟩ := List.getElem?_eq_some_iff.mp hi
    rw [hrows, List.getElem?_set_self hlt]
  refine ⟨new, ?_, hkept, hrows, fun c v hset => ?_, hunwritten, fun hkeys => ?_,
    told_record hkept hplace, fun hwrites => ?_⟩
  · rw [hts]
    exact apart_modifyRows _
  · rw [hnew, hset.cell hlength]
  · exact Model.Names.of_keys ⟨parts, hparts, hkey⟩ fun key hmem =>
      hunwritten key.name (hkeys key hmem)
  · refine (omits_congr fun c hc => ?_).trans homits
    rw [← Model.attributeName_of_attribute? hc] at hwrites
    exact hunwritten c.name hwrites

/-- What creating and updating do, whatever the data and the identifier. Creating adds one row, in
which only the columns that the data writes have a value of their own: another one has its preset,
or a number that the database gives it. Updating changes no other column of the row under the
identifier and no other row; where there is no row or a trashed one it changes nothing and gives
nothing. Neither touches the session or what is remembered of it, not even when it fails; and a
failure undoes what is not committed only where the database is written to. What is told of the row
has nothing that is hidden in it, and reading the row then gives the same, unless the column that
marks trashed rows was written, numbered or preset. -/
theorem write_recorded (hk : r.model.Kept s.database.current) (data : Row) :
    (∀ fields s', r.create data s = .ok fields s' → ∃ new, r.Added data fields s s' new) ∧
      (∀ id, r.Absent id s → r.update id data s = .ok [] s) ∧
      (∀ id fields s', r.update id data s = .ok fields s' →
        r.Absent id s ∧ fields = [] ∧ s' = s ∨
          ∃ (i : Nat) (old new : List Cell), (r.rows s)[i]? = some old ∧ r.model.Names id old ∧
            r.omits old = false ∧ r.Changed id data fields s s' i old new) ∧
      ∀ act : Act, (act = .create data ∨ ∃ id, act = .update id data) → ∀ e s',
        act.perform r s = .error e s' → s' = act.undone r s := by
  refine ⟨fun fields s' h => added_of_create hk h, fun id habsent => ?_, fun id fields s' h => ?_,
    fun act hact e s' h => ?_⟩
  · rw [Repository.update, bind_of_ok (find_of_absent habsent)]
    rfl
  · rcases of_update h with ⟨hnone, rfl, rfl⟩ | ⟨old, -, -, hfind, -⟩
    · exact .inl ⟨absent_of_find hk hnone, rfl, rfl⟩
    · obtain ⟨i, hi, hnames, homits⟩ := named_of_find hk hfind
      obtain ⟨new, hchanged⟩ := changed_of_update hk hi hnames homits h
      exact .inr ⟨i, old, new, hi, hnames, homits, hchanged⟩
  · rcases hact with rfl | ⟨id, rfl⟩
    · exact Act.undone_of_error rfl h
    · exact Act.undone_of_error rfl h

/-- Data for an article: a title that may be written and is shown, a text that may be written and
is hidden, and what may not be written. -/
def articleData : Row :=
  [("id", .int 50), ("title", .text "Fourth"), ("secret", .text "s4"),
    ("deleted_at", .text "never"), ("rank", .int 1)]

theorem write_recorded_articles :
    articles.model.Kept (Database.ofTables Demo.tables).current ∧
      ∃ t, articles.start (.ofTables Demo.tables) = .ok t ∧
        (∃ fields s' new, articles.create articleData t = .ok fields s' ∧
          articles.Added articleData fields t s' new ∧
          articles.read (.int 11) s' = .ok fields s') ∧
        (∃ fields s' i old new, articles.update (.text "1") articleData t = .ok fields s' ∧
          articles.Changed (.text "1") articleData fields t s' i old new ∧
          articles.read (.text "1") s' = .ok fields s') ∧
        articles.update (.int 3) articleData t = .ok [] t := by
  have hk : articles.model.Kept (Database.ofTables Demo.tables).current :=
    ⟨by decide +kernel, by decide +kernel, by decide +kernel⟩
  have hok : (articles.start (.ofTables Demo.tables)).isOk = true := by decide +kernel
  obtain ⟨t, ht⟩ := exists_of_isOk hok
  have hmark : ¬articles.model.Writes articleData "deleted_at" := fun h =>
    absurd h.1 (by decide +kernel)
  have hnumbers : ∀ c, articles.model.attribute? "deleted_at" = some c →
      ¬articles.model.Numbers c.name ∧ articles.model.table.preset c.name = .null := by
    rintro c hc
    cases hc
    refine ⟨?_, rfl⟩
    rintro ⟨key, hkey, -, hname⟩
    cases hkey
    exact absurd hname (by decide)
  have hkeys : ∀ key ∈ articles.model.table.keys,
      ¬articles.model.Writes articleData (articles.model.attributeName key.name) := by
    have hlisted : ∀ key ∈ articles.model.table.keys,
        articles.model.attributeName key.name ∉ articles.model.writable := by decide +kernel
    exact fun key hkey hwrites => hlisted key hkey hwrites.1
  have hkept : articles.model.Kept t.database.current := by rwa [start_eq ht]
  obtain ⟨hcreated, habsent, hupdated, -⟩ := write_recorded hkept articleData
  refine ⟨hk, t, ht, ?_, ?_, ?_⟩
  · have hsucceeds : succeeds (articles.create articleData) t = true := by
      rw [start_eq ht]
      decide +kernel
    obtain ⟨fields, hcreate⟩ := exists_of_succeeds hsucceeds
    obtain ⟨new, hnew⟩ := hcreated fields _ hcreate
    have hnumber : ((articles.rows (after (articles.create articleData) t)).getLast?).map
        (articles.model.table.cell "id") = some (.int 11) := by
      rw [start_eq ht]
      decide +kernel
    rw [hnew.rows, List.getLast?_concat] at hnumber
    have hread := hnew.told.read (.int 11) (hnew.named (Demo.key "id" .int) 11 rfl rfl
      (Option.some.inj hnumber) (by decide))
    rw [hnew.shown hmark hnumbers] at hread
    exact ⟨fields, _, new, hcreate, hnew, hread⟩
  · have hsucceeds : succeeds (articles.update (.text "1") articleData) t = true := by
      rw [start_eq ht]
      decide +kernel
    obtain ⟨fields, hupdate⟩ := exists_of_succeeds hsucceeds
    rcases hupdated _ _ _ hupdate with ⟨hnone, -, -⟩ | ⟨i, old, new, -, -, -, hnew⟩
    · obtain ⟨parts, hparts, hall⟩ := hnone
      cases hparts
      have hthere : (articles.rows t).any (fun row =>
          articles.model.hasKey [.text "1"] row && !articles.omits row) = true := by
        rw [start_eq ht]
        decide +kernel
      obtain ⟨row, hrow, hfound⟩ := List.any_eq_true.mp hthere
      rw [Bool.and_eq_true, Bool.not_eq_true'] at hfound
      cases hfound.2.symm.trans (hall row hrow hfound.1)
    · have hread := hnew.told.read _ (hnew.named hkeys)
      rw [hnew.shown hmark] at hread
      exact ⟨fields, _, i, old, new, hupdate, hnew, hread⟩
  · refine habsent _ ⟨[.int 3], rfl, ?_⟩
    rw [start_eq ht]
    decide +kernel

def rolesMarkedById : Repository :=
  define Demo.role Demo.schema { softDeleteColumn := "id" } [] [] [] [] true

def roleData : Row := [("title", .text "guest")]

def usersPreset : Repository :=
  define { Demo.user with table := { Demo.user.table with
    columns := Demo.user.table.columns.map fun c =>
      if c.name = "password" then { c with preset := .text "" } else c } }
    Demo.schema {} [] [] [] [] false

def userData : Row := [("name", .text "Eve"), ("email", .text "eve@example.com")]

def eveRow : List Cell :=
  [.int 5, .text "Eve", .text "eve@example.com", .null, .text "", .null, .null]

/-- A new row gets what the data does not write: the preset of a column, or a number. Where the
number marks trashed rows, the row is told of but is not read back. -/
theorem unwritten_filled :
    (usersPreset.model.Kept (Database.ofTables Demo.tables).current ∧
      ¬usersPreset.model.Writes userData "password" ∧
      ∃ t s' fields new, usersPreset.start (.ofTables Demo.tables) = .ok t ∧
        usersPreset.create userData t = .ok fields s' ∧
        usersPreset.rows s' = usersPreset.rows t ++ [new] ∧
        usersPreset.model.table.cell "password" new = .text "") ∧
    rolesMarkedById.model.Kept (Database.ofTables Demo.tables).current ∧
      ¬rolesMarkedById.model.Writes roleData rolesMarkedById.catalog.softDeleteColumn ∧
      ∃ t s' new, rolesMarkedById.start (.ofTables Demo.tables) = .ok t ∧
        rolesMarkedById.create roleData t =
          .ok [("id", .int 3), ("title", .text "guest")] s' ∧
        rolesMarkedById.rows s' = rolesMarkedById.rows t ++ [new] ∧
        rolesMarkedById.model.table.cell "id" new = .int 3 ∧
        rolesMarkedById.read (.int 3) s' = .ok [] s' := by
  constructor
  · have hok : (usersPreset.start (.ofTables Demo.tables)).isOk = true := by decide +kernel
    obtain ⟨t, ht⟩ := exists_of_isOk hok
    have hunwritten : ∀ v, ("password", v) ∉ userData := fun v h => by
      simp [userData] at h
    refine ⟨⟨by decide +kernel, by decide +kernel, by decide +kernel⟩,
      fun h => h.2.elim hunwritten, t,
      t.withTables (t.database.current.modifyRows "users" (· ++ [eveRow])),
      usersPreset.model.record eveRow, eveRow, ht, ?_⟩
    rw [start_eq ht]
    exact ⟨rfl, rfl, rfl⟩
  · have hok : (rolesMarkedById.start (.ofTables Demo.tables)).isOk = true := by decide +kernel
    obtain ⟨t, ht⟩ := exists_of_isOk hok
    refine ⟨⟨by decide +kernel, by decide +kernel, by decide +kernel⟩,
      fun h => absurd h.1 (by decide +kernel), t,
      t.withTables (t.database.current.modifyRows "roles" (· ++ [[.int 3, .text "guest"]])),
      [.int 3, .text "guest"], ht, ?_⟩
    rw [start_eq ht]
    exact ⟨rfl, rfl, rfl, rfl⟩

end Repository

end Winnow
