import Winnow.Proofs.TrashedRows
import Winnow.Proofs.DeskInvariants

namespace Winnow

open Sql (Item Frame)

variable {ts : Tables} {env : Env} {q : Select} {rows : List Row} {row : Row}

namespace Select

/-- The row that rows side by side give. Where repeated rows are left out, it is one that holds the
same. -/
inductive Gives (q : Select) (ts : Tables) (env : Env) : Row → Prop
  | columns : q.isComputed = false → Gives q ts env (q.keys.zip (q.named.1.map (outputValue env)))
  | computed {distinct : Bool} {items : List Item} {places : Nat} {names : List String}
      {frame : Frame} {cells shown : List Cell} : q.isComputed = true →
      q.read (.rows {}) = .ok (.list distinct items places) → q.itemNames items = .ok names →
      frame ∈ Frame.ofLines (q.tables.map (·.sqlSource)) ((q.matched ts).map (linesOf ts)) →
      frame.lines = linesOf ts env →
      Sql.Evaluation.itemCells (ts.content q.schema) q.steps [frame] items = .ok cells →
      (shown = cells ∨ distinct = true ∧ Sql.Gather.sameCells shown cells = true) →
      Gives q ts env (q.computedRow names shown)

/-- Whether the database reads the statement as a list of outputs of which none is made of many
rows at once. -/
def ReadsRowByRow (q : Select) : Prop :=
  q.isComputed = true → ∃ distinct items places,
    q.read (.rows {}) = .ok (.list distinct items places) ∧
    (items.filterMap Sql.Grouping.itemExpr?).any (Sql.Grouping.isGathering q.steps) = false

theorem ReadsRowByRow.of_columns {q : Select} (h : q.isComputed = false) : q.ReadsRowByRow :=
  fun hcomputed => by rw [h] at hcomputed; cases hcomputed

theorem exists_mem_mapM {α β ε : Type} {f : α → Except ε β} {xs : List α} {ys : List β}
    (h : xs.mapM f = .ok ys) {x : α} (hx : x ∈ xs) : ∃ y ∈ ys, f x = .ok y := by
  induction xs generalizing ys with
  | nil => cases hx
  | cons first xs ih =>
    rw [List.mapM_cons] at h
    obtain ⟨z, hz, h⟩ := ok_of_bind h
    obtain ⟨zs, hzs, h⟩ := ok_of_bind h
    cases h
    rcases List.mem_cons.mp hx with rfl | hx
    · exact ⟨z, by simp, hz⟩
    · obtain ⟨y, hy, hf⟩ := ih hzs hx
      exact ⟨y, by simp [hy], hf⟩

theorem exists_mem_firsts {rows : List (Env × List Cell)} {row : Env × List Cell}
    (h : row ∈ rows) : ∃ first ∈ computedRows.firsts rows,
      first.2 = row.2 ∨ Sql.Gather.sameCells first.2 row.2 = true := by
  have hfold : ∀ (rows done : List (Env × List Cell)), row ∈ rows ∨
      (∃ first ∈ done, first.2 = row.2 ∨ Sql.Gather.sameCells first.2 row.2 = true) →
      ∃ first ∈ rows.foldl (fun (done : List (Env × List Cell)) row =>
        if done.any fun d => Sql.Gather.sameCells d.2 row.2 then done else row :: done) done,
          first.2 = row.2 ∨ Sql.Gather.sameCells first.2 row.2 = true := by
    intro rows
    induction rows with
    | nil => exact fun done h => h.resolve_left (by simp)
    | cons next rest ih =>
      rintro done (h | ⟨first, hfirst, hsame⟩)
      · rcases List.mem_cons.mp h with rfl | h
        · refine ih _ (Or.inr ?_)
          beta_reduce
          split
          next hany =>
            obtain ⟨first, hfirst, hsame⟩ := List.any_eq_true.mp hany
            exact ⟨first, hfirst, Or.inr hsame⟩
          next => exact ⟨row, List.mem_cons_self, Or.inl rfl⟩
        · exact ih _ (Or.inl h)
      · refine ih _ (Or.inr ⟨first, ?_, hsame⟩)
        beta_reduce
        split
        · exact hfirst
        · exact List.mem_cons_of_mem _ hfirst
  obtain ⟨first, hfirst, hsame⟩ := hfold rows [] (Or.inl h)
  exact ⟨first, List.mem_reverse.mpr hfirst, hsame⟩

theorem exists_mem_zip_ofLines {sources : List Sql.Source} {envs : List Env}
    {f : Env → List Sql.Line} (h : env ∈ envs) :
    ∃ frame, (env, frame) ∈ envs.zip (Frame.ofLines sources (envs.map f)) := by
  obtain ⟨i, hi, rfl⟩ := List.getElem_of_mem h
  have hlength : (Frame.ofLines sources (envs.map f)).length = envs.length := by
    simp [Frame.ofLines]
  refine ⟨(Frame.ofLines sources (envs.map f))[i], List.mem_iff_getElem.mpr ⟨i, ?_, ?_⟩⟩
  · simpa [hlength] using hi
  · simp

/-- Computed outputs that are not made of many rows at once have a row for all that the query looks
at. -/
theorem exists_cells_of_computedRows {distinct : Bool} {items : List Item}
    {found : List (List Cell)} (h : q.computedRows ts distinct items = .ok found)
    (hplain :
      (items.filterMap Sql.Grouping.itemExpr?).any (Sql.Grouping.isGathering q.steps) = false)
    (henv : env ∈ q.matched ts) : ∃ frame cells, ∃ shown ∈ found,
      frame ∈ Frame.ofLines (q.tables.map (·.sqlSource)) ((q.matched ts).map (linesOf ts)) ∧
      frame.lines = linesOf ts env ∧
      Sql.Evaluation.itemCells (ts.content q.schema) q.steps [frame] items = .ok cells ∧
      (shown = cells ∨ distinct = true ∧ Sql.Gather.sameCells shown cells = true) := by
  unfold computedRows at h
  simp only [hplain, Bool.false_eq_true, ↓reduceIte] at h
  obtain ⟨pairs, hpairs, h⟩ := ok_of_bind (ok_of_mapError h)
  cases h
  obtain ⟨frame, hzip⟩ : ∃ frame, (env, frame) ∈ (q.matched ts).zip
      (Frame.ofLines (q.tables.map (·.sqlSource)) ((q.matched ts).map (linesOf ts))) :=
    exists_mem_zip_ofLines henv
  obtain ⟨-, hframe, hlines⟩ := mem_zip_ofLines hzip
  obtain ⟨pair, hpair, hone⟩ := exists_mem_mapM hpairs hzip
  obtain ⟨cells, hcells, hone⟩ := ok_of_bind hone
  cases hone
  have hkept : ∃ shown ∈ (if distinct then computedRows.firsts pairs else pairs),
      shown.2 = cells ∨ distinct = true ∧ Sql.Gather.sameCells shown.2 cells = true := by
    cases distinct with
    | false => exact ⟨_, hpair, Or.inl rfl⟩
    | true =>
      obtain ⟨first, hfirst, hsame⟩ := exists_mem_firsts hpair
      exact ⟨first, hfirst, hsame.imp_right fun h => ⟨rfl, h⟩⟩
  obtain ⟨shown, hshown, hsame⟩ := hkept
  refine ⟨frame, cells, shown.2, ?_, hframe, hlines, hcells, hsame⟩
  exact List.mem_map_of_mem (List.mem_mergeSort.mpr hshown)

theorem of_fetch_computed {w : Window} (hcomputed : q.isComputed = true)
    {distinct : Bool} {items : List Item} {places : Nat}
    (hread : q.read (.rows w) = .ok (.list distinct items places))
    (h : q.fetch ts w = .ok rows) : ∃ answer : Answer, rows =
      (w.of answer.rows).map (q.computedRow answer.names) ∧
      q.listAnswer ts w distinct items places = .ok answer := by
  unfold fetch at h
  rw [if_pos hcomputed] at h
  obtain ⟨answer, hanswer, h⟩ := ok_of_bind h
  refine ⟨answer, rows_of_checkKeys h, ?_⟩
  unfold Select.answer at hanswer
  obtain ⟨_, -, hanswer⟩ := ok_of_bind hanswer
  rw [hread] at hanswer
  exact hanswer

theorem of_fetch_columns {w : Window} (hcolumns : q.isComputed = false)
    (h : q.fetch ts w = .ok rows) :
    rows = (w.of (q.values ts)).map q.keys.zip ∧ q.check = .ok () := by
  unfold fetch at h
  rw [if_neg (by simp [hcolumns])] at h
  obtain ⟨_, hrun, h⟩ := ok_of_bind h
  exact ⟨rows_of_checkKeys h, (checkRun_eq_ok.mp hrun).2.1⟩

theorem checkNames_of_fetch (h : q.fetch ts {} = .ok rows)
    (hread : q.isComputed = true → ∃ distinct items places,
      q.read (.rows {}) = .ok (.list distinct items places)) :
    ∃ outputs, q.checkNames outputs = .ok () := by
  cases hcomputed : q.isComputed with
  | false => exact ⟨_, (of_fetch_columns hcomputed h).2⟩
  | true =>
    obtain ⟨distinct, items, places, hlist⟩ := hread hcomputed
    obtain ⟨answer, -, hanswer⟩ := of_fetch_computed hcomputed hlist h
    exact ⟨_, (listAnswer_eq_ok.mp hanswer).2.1⟩

theorem Gives.reads (h : q.Gives ts env row) (hcomputed : q.isComputed = true) :
    ∃ distinct items places, q.read (.rows {}) = .ok (.list distinct items places) := by
  cases h with
  | columns hcolumns =>
    rw [hcolumns] at hcomputed
    cases hcomputed
  | computed _ hread => exact ⟨_, _, _, hread⟩

/-- Whatever a query looks at gives a row of its result, as long as no output is made of many rows
at once. -/
theorem exists_given (hread : q.ReadsRowByRow) (h : q.fetch ts {} = .ok rows)
    (henv : env ∈ q.matched ts) : ∃ row ∈ rows, q.Gives ts env row := by
  cases hcomputed : q.isComputed with
  | false =>
    obtain ⟨rfl, -⟩ := of_fetch_columns hcomputed h
    refine ⟨_, List.mem_map_of_mem (List.mem_map_of_mem ?_), .columns hcomputed⟩
    exact List.mem_mergeSort.mpr henv
  | true =>
    obtain ⟨distinct, items, places, hlist, hplain⟩ := hread hcomputed
    obtain ⟨answer, rfl, hanswer⟩ := of_fetch_computed hcomputed hlist h
    obtain ⟨hnames, -, -, -, hrows⟩ := listAnswer_eq_ok.mp hanswer
    obtain ⟨frame, cells, shown, hshown, hframe, hlines, hcells, hsame⟩ :=
      exists_cells_of_computedRows hrows hplain henv
    exact ⟨_, List.mem_map_of_mem hshown,
      .computed hcomputed hlist hnames hframe hlines hcells hsame⟩

end Select

namespace Repository

variable {r : Repository} {s : State} {record : List Cell}

/-- A record contributes a row to what a repository shows. -/
def Contributes (r : Repository) (s : State) (record : List Cell) : Prop :=
  let q := s.desk.session.query
  ∃ shown t, r.all s = .ok shown t ∧ record ∈ r.rows s ∧
    ∃ env ∈ q.matched s.database.current, ⟨r.model.table, record⟩ ∈ env ∧
      ∃ row, q.Gives s.database.current env row ∧ r.conceal q row ∈ shown

theorem of_all {shown : List Row} {t : State} (h : r.all s = .ok shown t) : ∃ rows,
    s.desk.session.query.fetch s.database.current {} = .ok rows ∧
      shown = rows.map (r.conceal s.desk.session.query) := by
  obtain ⟨rows, hrows, rfl⟩ := ok_of_map (ok_of_execute h)
  exact ⟨rows, hrows, rfl⟩

theorem contributes_iff (hread : s.desk.session.query.ReadsRowByRow)
    (hget : succeeds r.all s = true) : r.Contributes s record ↔ record ∈ r.rows s ∧
      ∃ env ∈ s.desk.session.query.matched s.database.current, ⟨r.model.table, record⟩ ∈ env := by
  constructor
  · rintro ⟨_, _, -, hrecord, env, henv, hmem, -⟩
    exact ⟨hrecord, env, henv, hmem⟩
  · rintro ⟨hrecord, env, henv, hmem⟩
    obtain ⟨shown, hall⟩ := exists_of_succeeds hget
    obtain ⟨rows, hrows, rfl⟩ := of_all hall
    obtain ⟨row, hrow, hgives⟩ := Select.exists_given hread hrows henv
    exact ⟨_, _, hall, hrecord, env, henv, hmem, row, hgives, List.mem_map_of_mem hrow⟩

theorem checkNames_of_all (hread : s.desk.session.query.ReadsRowByRow)
    (hget : succeeds r.all s = true) :
    ∃ outputs, s.desk.session.query.checkNames outputs = .ok () := by
  obtain ⟨shown, hall⟩ := exists_of_succeeds hget
  obtain ⟨rows, hfetch, -⟩ := of_all hall
  refine Select.checkNames_of_fetch hfetch fun hc => ?_
  obtain ⟨distinct, items, places, hlist, -⟩ := hread hc
  exact ⟨distinct, items, places, hlist⟩

theorem Contributes.checkNames (h : r.Contributes s record) :
    ∃ outputs, s.desk.session.query.checkNames outputs = .ok () := by
  obtain ⟨shown, t, hall, -, env, -, -, row, hgives, -⟩ := h
  obtain ⟨rows, hrows, -⟩ := of_all hall
  exact Select.checkNames_of_fetch hrows hgives.reads

end Repository

end Winnow
