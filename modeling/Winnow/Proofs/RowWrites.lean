import Mathlib.Data.List.Basic
import Winnow.Proofs.RowKeys

namespace Winnow

namespace Tables

variable {ts : Tables} {name : String} {f : List (List Cell) → List (List Cell)}

theorem find?_modifyRows : (ts.modifyRows name f).find? (·.table.name = name) =
    (ts.find? (·.table.name = name)).map fun t => { t with rows := f t.rows } := by
  unfold modifyRows
  have hname : ((fun t : Table => decide (t.table.name = name)) ∘ fun t : Table =>
      if t.table.name = name then { t with rows := f t.rows } else t) =
      fun t => decide (t.table.name = name) := by
    funext t
    simp only [Function.comp_apply]
    split <;> rfl
  rw [List.find?_map, hname]
  cases ht : ts.find? (·.table.name = name) with
  | none => rfl
  | some t =>
    have ht' : t.table.name = name := by simpa using List.find?_some ht
    simp only [Option.map_some, if_pos ht']

theorem rowsOf_modifyRows (h : (ts.find? (·.table.name = name)).isSome = true) :
    (ts.modifyRows name f).rowsOf name = f (ts.rowsOf name) := by
  obtain ⟨t, ht⟩ := Option.isSome_iff_exists.mp h
  simp only [rowsOf, find?_modifyRows, ht, Option.map_some]

end Tables

theorem TableDef.cell_setCell {t : TableDef} {c : ColumnDef} {cell : Cell} {row : List Cell}
    (hc : c ∈ t.columns) (hrow : row.length = t.columns.length) :
    t.cell c.name (t.setCell c.name cell row) = cell := by
  have hlt : t.columns.findIdx (·.name = c.name) < row.length :=
    hrow ▸ List.findIdx_lt_length_of_exists ⟨c, hc, by simp⟩
  simp [TableDef.cell, setCell, List.getD, hlt]

theorem Bindings.passed_of_checkPassed {b : Bindings} (h : b.checkPassed = .ok ())
    {p : ColumnType × Value} (hp : p ∈ b) : (p.2.passed? p.1).isSome = true := by
  induction b with
  | nil => cases hp
  | cons first rest ih =>
    obtain ⟨u, hfirst, hrest⟩ := ok_of_bind h
    rcases List.mem_cons.mp hp with rfl | hp
    · unfold Value.checkPassed at hfirst
      split at hfirst
      next hsome => exact hsome
      next => cases hfirst
    · exact ih hrest hp

namespace Cell

theorem whole_ne_null (x : Binary64) : whole x ≠ null := by
  unfold whole
  split
  · split <;> simp
  · simp

theorem number?_ne_null (s : String) : number? s ≠ some null := by
  fun_cases number? s with
  | case1 | case2 | case3 => exact (Option.some_ne_none _).symm
  | case4 => exact fun h => Cell.noConfusion (Option.some.inj h)
  | case5 => exact fun h => whole_ne_null _ (Option.some.inj h)

theorem numeric_text_ne_null (s : String) : (text s).numeric ≠ null := by
  unfold numeric
  simp only
  cases h : number? s with
  | none => simp
  | some c => exact fun hc => number?_ne_null s (h.trans (congrArg some hc))

theorem store_text_ne_null (t : ColumnType) (s : String) : (text s).store t ≠ null := by
  unfold store
  split
  · simp [textual, text?]
  · split
    · split
      · simp
      · exact whole_ne_null _
    · split <;> simp
    · exact numeric_text_ne_null s

theorem store_moment_ne_null {t : ColumnType} {now : Moment}
    (h : ((Value.moment now).passed? t).isSome = true) :
    (ofValue t (.moment now)).store t ≠ null := by
  have hpassed : ∃ s, (Value.moment now).passed? t = some (.text s) := by
    cases t with
    | int | str | datetime => exact ⟨_, rfl⟩
    | float | bool => cases h
  obtain ⟨s, hs⟩ := hpassed
  unfold ofValue
  rw [hs]
  exact store_text_ne_null t s

end Cell

namespace Model

variable {m : Model} {ts ts' : Tables} {row new : List Cell} {data : Row} {id : Value}
variable {parts : List Value}

/-- Tables with that of a model, whose rows are all complete and have keys of their own. -/
structure Kept (m : Model) (ts : Tables) : Prop where
  present : (ts.find? (·.table.name = m.table.name)).isSome = true
  shape : ∀ row ∈ ts.rowsOf m.table.name, row.length = m.table.columns.length
  distinct : (ts.rowsOf m.table.name).Pairwise fun a b => m.sameKey a b = false

theorem Kept.sameKey_eq_false (hk : m.Kept ts) {i j : Nat} {a b : List Cell} (hne : i ≠ j)
    (ha : (ts.rowsOf m.table.name)[i]? = some a) (hb : (ts.rowsOf m.table.name)[j]? = some b) :
    m.sameKey a b = false := by
  obtain ⟨hi, rfl⟩ := List.getElem?_eq_some_iff.mp ha
  obtain ⟨hj, rfl⟩ := List.getElem?_eq_some_iff.mp hb
  rcases Nat.lt_or_gt_of_ne hne with hlt | hlt
  · exact List.pairwise_iff_getElem.mp hk.distinct i j hi hj hlt
  · rw [sameKey_comm]
    exact List.pairwise_iff_getElem.mp hk.distinct j i hj hi hlt

theorem Kept.place_unique (hk : m.Kept ts) (hparts : m.keyOf id = .ok parts) {i j : Nat}
    {a b : List Cell} (ha : (ts.rowsOf m.table.name)[i]? = some a)
    (hb : (ts.rowsOf m.table.name)[j]? = some b) (hka : m.hasKey parts a = true)
    (hkb : m.hasKey parts b = true) : i = j := by
  by_contra hne
  have hsame := sameKey_of_hasKey (length_of_keyOf hparts) hka hkb
  rw [hk.sameKey_eq_false hne ha hb] at hsame
  cases hsame

theorem find_eq_ok_some : m.find id ts = .ok (some row) ↔
    ∃ parts, m.keyOf id = .ok parts ∧
      (ts.rowsOf m.table.name).find? (m.hasKey parts) = some row := by
  unfold find
  cases m.keyOf id with
  | error e => simp [Except.map]
  | ok parts => simp [Except.map]

theorem Kept.find_eq_ok_some (hk : m.Kept ts) : m.find id ts = .ok (some row) ↔
    ∃ (parts : List Value) (i : Nat), m.keyOf id = .ok parts ∧
      (ts.rowsOf m.table.name)[i]? = some row ∧ m.hasKey parts row = true := by
  rw [Model.find_eq_ok_some]
  refine exists_congr fun parts => ?_
  rw [exists_and_left]
  refine and_congr_right fun hparts => ⟨fun hfind => ?_, fun ⟨i, hi, hkey⟩ => ?_⟩
  · obtain ⟨i, hi⟩ := List.mem_iff_getElem?.mp (List.mem_of_find?_eq_some hfind)
    exact ⟨i, hi, List.find?_some hfind⟩
  · have hsome : ((ts.rowsOf m.table.name).find? (m.hasKey parts)).isSome = true :=
      List.find?_isSome.mpr ⟨row, List.mem_of_getElem? hi, hkey⟩
    obtain ⟨other, hother⟩ := Option.isSome_iff_exists.mp hsome
    obtain ⟨j, hj⟩ := List.mem_iff_getElem?.mp (List.mem_of_find?_eq_some hother)
    have hij := hk.place_unique hparts hi hj hkey (List.find?_some hother)
    subst hij
    rw [hother, ← hi, hj]

theorem check_eq_ok {others : List (List Cell)} : m.check others row = .ok () ↔
    m.table.missing? row = none ∧ ∀ other ∈ others, m.sameKey row other = false := by
  unfold check
  cases m.table.missing? row with
  | some c => simp
  | none => simp

theorem length_assign (d : String × Value) : (m.assign row d).length = row.length := by
  unfold assign
  split
  · exact List.length_set
  · rfl

theorem length_assignAll : (m.assignAll data row).length = row.length := by
  unfold assignAll
  induction data generalizing row with
  | nil => rfl
  | cons d data ih => rw [List.foldl_cons, ih, length_assign]

theorem length_number (rows : List (List Cell)) : (m.number rows row).length = row.length := by
  unfold number
  split
  · split
    · exact List.length_set
    · rfl
  · rfl

theorem mem_attributes {name : String} {c : ColumnDef} (h : m.attribute? name = some c) :
    (name, c) ∈ m.attributes := by
  obtain ⟨before, later, hsplit, -⟩ := List.lookup_eq_some_iff.mp h
  rw [hsplit]
  exact List.mem_append_right _ List.mem_cons_self

theorem mem_columns_of_attribute {name : String} {c : ColumnDef} (h : m.attribute? name = some c) :
    c ∈ m.table.columns := by
  obtain ⟨c', hc, heq⟩ := List.mem_map.mp (mem_attributes h)
  cases heq
  exact hc

theorem cell_assign_moment {name : String} {c : ColumnDef} {now : Moment}
    (hc : m.attribute? name = some c) (hrow : row.length = m.table.columns.length)
    (h : m.checkData [(name, .moment now)] = .ok ()) :
    m.table.cell c.name (m.assign row (name, .moment now)) ≠ .null := by
  have hbound : (c.type, .moment now) ∈ m.bindings [(name, .moment now)] :=
    List.mem_filterMap.mpr ⟨_, mem_attributes hc, by simp⟩
  have hpassed := Bindings.passed_of_checkPassed (check_bind_eq_ok.mp h).1 hbound
  unfold assign
  simp only [hc]
  rw [TableDef.cell_setCell (mem_columns_of_attribute hc) hrow]
  exact Cell.store_moment_ne_null hpassed

theorem of_insert (h : m.insert data ts = .ok (row, ts')) :
    row.length = m.table.columns.length ∧
      (∀ other ∈ ts.rowsOf m.table.name, m.sameKey row other = false) ∧
      ts' = ts.modifyRows m.table.name (· ++ [row]) := by
  obtain ⟨-, h⟩ := check_bind_eq_ok.mp h
  obtain ⟨hcheck, h⟩ := check_bind_eq_ok.mp h
  cases h
  refine ⟨?_, (check_eq_ok.mp hcheck).2, rfl⟩
  rw [newRow, length_number, length_assignAll]
  exact List.length_map _

theorem of_update (h : m.update data row ts = .ok (new, ts')) :
    m.checkData data = .ok () ∧ new = m.assignAll data row ∧
      (∀ other ∈ ts.rowsOf m.table.name, m.sameKey row other = false →
        m.sameKey new other = false) ∧
      ts' = m.replace row new ts := by
  obtain ⟨hdata, h⟩ := check_bind_eq_ok.mp h
  obtain ⟨hcheck, h⟩ := check_bind_eq_ok.mp h
  cases h
  refine ⟨hdata, rfl, fun other hother hkey => (check_eq_ok.mp hcheck).2 other ?_, rfl⟩
  exact List.mem_filter.mpr ⟨hother, by rw [hkey]; rfl⟩

theorem Kept.rowsOf_insert (hk : m.Kept ts) (h : m.insert data ts = .ok (row, ts')) :
    ts'.rowsOf m.table.name = ts.rowsOf m.table.name ++ [row] := by
  obtain ⟨-, -, rfl⟩ := of_insert h
  exact Tables.rowsOf_modifyRows hk.present

theorem Kept.insert (hk : m.Kept ts) (h : m.insert data ts = .ok (row, ts')) : m.Kept ts' := by
  have hrows := hk.rowsOf_insert h
  obtain ⟨hlen, hkey, rfl⟩ := of_insert h
  refine ⟨by rw [Tables.find?_modifyRows, Option.isSome_map]; exact hk.present, ?_, ?_⟩
  · rw [hrows]
    intro other hother
    rcases List.mem_append.mp hother with hother | hother
    · exact hk.shape other hother
    · rw [List.mem_singleton.mp hother]
      exact hlen
  · rw [hrows, List.pairwise_append]
    refine ⟨hk.distinct, List.pairwise_singleton _ _, fun a ha b hb => ?_⟩
    rw [List.mem_singleton.mp hb, sameKey_comm]
    exact hkey a ha

theorem Kept.rowsOf_update (hk : m.Kept ts) {i : Nat}
    (hi : (ts.rowsOf m.table.name)[i]? = some row) (hself : m.sameKey row row = true)
    (h : m.update data row ts = .ok (new, ts')) :
    ts'.rowsOf m.table.name = (ts.rowsOf m.table.name).set i new := by
  obtain ⟨-, -, -, rfl⟩ := of_update h
  unfold replace
  rw [Tables.rowsOf_modifyRows hk.present]
  refine List.ext_getElem? fun j => ?_
  rw [List.getElem?_map, List.getElem?_set]
  by_cases hij : i = j
  · subst hij
    obtain ⟨hlt, -⟩ := List.getElem?_eq_some_iff.mp hi
    rw [if_pos rfl, if_pos hlt, hi, Option.map_some, if_pos hself]
  · rw [if_neg hij]
    cases hj : (ts.rowsOf m.table.name)[j]? with
    | none => rfl
    | some other =>
      rw [Option.map_some, hk.sameKey_eq_false hij hi hj]
      rfl

theorem Kept.update (hk : m.Kept ts) {i : Nat}
    (hi : (ts.rowsOf m.table.name)[i]? = some row) (hself : m.sameKey row row = true)
    (h : m.update data row ts = .ok (new, ts')) : m.Kept ts' := by
  have hrows := hk.rowsOf_update hi hself h
  obtain ⟨-, hnew, hkey, rfl⟩ := of_update h
  refine ⟨by unfold replace; rw [Tables.find?_modifyRows, Option.isSome_map]; exact hk.present,
    ?_, ?_⟩
  · rw [hrows]
    intro other hother
    rcases List.mem_or_eq_of_mem_set hother with hother | rfl
    · exact hk.shape other hother
    · rw [hnew, length_assignAll]
      exact hk.shape row (List.mem_of_getElem? hi)
  · -- the place of the new row against every other place
    have hother : ∀ j (hj : j < (ts.rowsOf m.table.name).length), i ≠ j →
        m.sameKey new (ts.rowsOf m.table.name)[j] = false := fun j hj hne =>
      hkey _ (List.getElem_mem hj)
        (hk.sameKey_eq_false hne hi (List.getElem?_eq_getElem hj))
    rw [hrows, List.pairwise_iff_getElem]
    intro j k hj hk' hjk
    rw [List.length_set] at hj hk'
    rw [List.getElem_set, List.getElem_set]
    split
    next hij => 
      subst hij
      rw [if_neg (by omega)]
      exact hother k hk' (by omega)
    next hij =>
      split
      next hik =>
        rw [sameKey_comm]
        exact hother j hj hij
      next => exact List.pairwise_iff_getElem.mp hk.distinct j k hj hk' hjk

end Model

end Winnow
