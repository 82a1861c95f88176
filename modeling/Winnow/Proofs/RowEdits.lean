import Winnow.Proofs.RecordActs

namespace Winnow.Repository

variable {r : Repository} {db : Database} {s s' : State} {id : Value} {row : List Cell} {α : Type}

/-- What an act does to the rows of the repository's table. -/
inductive Edit (r : Repository) (before : List (List Cell)) : List (List Cell) → Prop where
  | same : Edit r before before
  | added (row : List Cell) : Edit r before (before ++ [row])
  | changed {i : Nat} {old new : List Cell} : before[i]? = some old → r.isTrashed old = false →
      Edit r before (before.set i new)

/-- No row is gone, and every trashed one is in its place as it was. -/
structure Stays (r : Repository) (before later : List (List Cell)) : Prop where
  length : before.length ≤ later.length
  trashed : ∀ (i : Nat) (row : List Cell), before[i]? = some row → r.isTrashed row = true →
    later[i]? = some row

theorem Stays.refl (rows : List (List Cell)) : r.Stays rows rows :=
  ⟨Nat.le_refl _, fun _ _ h _ => h⟩

theorem Stays.trans {a b c : List (List Cell)} (hab : r.Stays a b) (hbc : r.Stays b c) :
    r.Stays a c :=
  ⟨hab.length.trans hbc.length, fun i row hi hrow =>
    hbc.trashed i row (hab.trashed i row hi hrow) hrow⟩

theorem Edit.stays {before later : List (List Cell)} (h : r.Edit before later) :
    r.Stays before later := by
  cases h with
  | same => exact .refl _
  | added row =>
    refine ⟨by simp, fun i other hi _ => ?_⟩
    obtain ⟨hlt, -⟩ := List.getElem?_eq_some_iff.mp hi
    rw [List.getElem?_append_left hlt, hi]
  | @changed j old new hj hold =>
    refine ⟨by simp, fun i row hi hrow => ?_⟩
    have hne : j ≠ i := by
      rintro rfl
      cases hi.symm.trans hj
      rw [hold] at hrow
      cases hrow
    rw [List.getElem?_set_ne hne, hi]

theorem after_require (id : Value) (s : State) : after (r.require id) s = s := by
  have hfind : after (r.find? id) s = s := (after_map _ _ _).trans (after_find id s)
  unfold after at hfind ⊢
  unfold Repository.require
  cases h : r.find? id s with
  | error e t =>
    simp only [h] at hfind
    rw [bind_of_error h]
    exact hfind
  | ok found t =>
    simp only [h] at hfind
    rw [bind_of_ok h]
    cases found <;> exact hfind

theorem current_of_reading {act : Act} (hw : act.writes = false) (s : State) :
    (after (act.perform r) s).database.current = s.database.current := by
  cases act with
  | create | update | delete => cases hw
  | query op =>
    rw [Act.perform, after_map]
    exact congrArg _ (database_perform op s)
  | call c =>
    rw [Act.perform, after_map]
    exact congrArg _ (database_atDesk _ s)
  | find id => rw [Act.perform, after_map, Repository.find?, after_map, after_find]
  | require id => rw [Act.perform, after_map, after_require]
  | read id =>
    rw [Act.perform, after_map, Repository.read, after_map, Repository.find?, after_map,
      after_find]
  | commit => rfl

theorem changed_of_find (hm : r.MarkedByName) (hk : r.model.Kept s.database.current)
    {data : Row} {new : List Cell} {ts : Tables} (hfind : r.find id s = .ok (some row) s)
    (h : r.model.update data row s.database.current = .ok (new, ts)) :
    ∃ i, r.place? s id = some i ∧ (r.rows s)[i]? = some row ∧ r.isTrashed row = false ∧
      ts.rowsOf r.model.table.name = (r.rows s).set i new ∧ r.model.Kept ts := by
  obtain ⟨-, parts, i, hparts, hi, hkey, hrow⟩ := of_find hm hk hfind
  have hself := Model.sameKey_of_hasKey (Model.length_of_keyOf hparts) hkey hkey
  exact ⟨i, place?_eq hk hparts hi hkey, hi, hrow, hk.rowsOf_update hi hself h,
    hk.update hi hself h⟩

theorem marked_of_delete (hsoft : r.softDeletes = true) (hm : r.MarkedByName)
    (hk : r.model.Kept s.database.current) {now : Moment}
    (h : r.delete now id s = .ok true s') :
    ∃ i old new, r.place? s id = some i ∧ (r.rows s)[i]? = some old ∧
      new = r.model.assign old (r.catalog.softDeleteColumn, .moment now) ∧
      r.isTrashed old = false ∧ r.isTrashed new = true ∧ r.rows s' = (r.rows s).set i new ∧
      r.model.Kept s'.database.current := by
  rcases of_delete h with ⟨-, hfalse, -⟩ | ⟨row, ts, hfind, -, hdeletion, rfl⟩
  · cases hfalse
  · unfold deletion Model.trash at hdeletion
    rw [if_pos hsoft] at hdeletion
    obtain ⟨⟨new, ts'⟩, hupdate, hts⟩ := ok_of_map hdeletion
    cases hts
    obtain ⟨i, hplace, hi, hrow, hrows, hkept⟩ := changed_of_find hm hk hfind hupdate
    obtain ⟨hdata, hnew, -, -⟩ := Model.of_update hupdate
    obtain ⟨c, hc, hname⟩ := hm
    have hmark := Model.cell_assign_moment hc (hk.shape row (List.mem_of_getElem? hi)) hdata
    refine ⟨i, row, new, hplace, hi, hnew, hrow, ?_, hrows, hkept⟩
    rw [hname] at hmark
    unfold isTrashed
    rw [hnew, hsoft]
    simpa [Model.assignAll] using hmark

/-- A record of a row that stands where no trashed row stood before. -/
def Stands (r : Repository) (s s' : State) (fields : Row) : Prop :=
  ∃ (i : Nat) (row : List Cell), (r.rows s')[i]? = some row ∧ fields = r.model.record row ∧
    ∀ old, (r.rows s)[i]? = some old → r.isTrashed old = false

/-- What an act that succeeds does to the rows, and what it tells of them. -/
structure Done (r : Repository) (s s' : State) (reply : Reply) : Prop where
  edit : r.Edit (r.rows s) (r.rows s')
  kept : r.model.Kept s'.database.current
  stands : ∀ fields, reply.record? = some fields → r.Stands s s' fields

theorem Done.of_same {reply : Reply} (hk : r.model.Kept s.database.current)
    (hs : s'.database.current = s.database.current)
    (h : ∀ fields, reply.record? = some fields → r.Stands s s' fields) : r.Done s s' reply :=
  ⟨by rw [rows, rows, hs]; exact .same, hs ▸ hk, h⟩

theorem of_record? {fields told : Row} (h : (Reply.record fields).record? = some told) :
    fields = told ∧ fields ≠ [] := by
  cases fields with
  | nil => cases h
  | cons entry fields =>
    cases h
    exact ⟨rfl, List.cons_ne_nil _ _⟩

theorem stands_of_find? (hm : r.MarkedByName) (hk : r.model.Kept s.database.current)
    {fields : Row} (h : r.find? id s = .ok (some fields) s') : s' = s ∧ r.Stands s s' fields := by
  obtain ⟨found, hfind, hfound⟩ := of_map_ok h
  obtain ⟨row, rfl, rfl⟩ := Option.map_eq_some_iff.mp hfound
  obtain ⟨rfl, parts, i, -, hi, -, hrow⟩ := of_find hm hk hfind
  refine ⟨rfl, i, row, hi, rfl, fun old hold => ?_⟩
  cases hi.symm.trans hold
  exact hrow

theorem of_require {fields : Row} (h : r.require id s = .ok fields s') :
    r.find? id s = .ok (some fields) s' := by
  unfold Repository.require at h
  cases hf : r.find? id s with
  | error e t =>
    rw [bind_of_error hf] at h
    cases h
  | ok found t =>
    rw [bind_of_ok hf] at h
    cases found with
    | none => cases h
    | some row =>
      cases h
      rfl

theorem done_create {data fields : Row} (hk : r.model.Kept s.database.current)
    (h : r.create data s = .ok fields s') : r.Done s s' (.record fields) := by
  obtain ⟨row, ts, hinsert, rfl, rfl⟩ := of_create h
  have hrows : r.rows (s.withTables ts) = r.rows s ++ [row] := hk.rowsOf_insert hinsert
  refine ⟨hrows ▸ .added row, hk.insert hinsert, fun told hf => ?_⟩
  obtain ⟨rfl, -⟩ := of_record? hf
  refine ⟨(r.rows s).length, row, by rw [hrows, List.getElem?_concat_length], rfl, ?_⟩
  intro old hold
  rw [List.getElem?_eq_none (Nat.le_refl _)] at hold
  cases hold

theorem done_update (hm : r.MarkedByName) {data fields : Row}
    (hk : r.model.Kept s.database.current) (h : r.update id data s = .ok fields s') :
    r.Done s s' (.record fields) := by
  rcases of_update h with ⟨-, rfl, rfl⟩ | ⟨row, new, ts, hfind, hupdate, rfl, rfl⟩
  · exact .of_same hk rfl fun _ hf => absurd rfl (of_record? hf).2
  · obtain ⟨i, -, hi, hrow, hset, hkept⟩ := changed_of_find hm hk hfind hupdate
    have hrows : r.rows (s.withTables ts) = (r.rows s).set i new := hset
    refine ⟨hrows ▸ .changed hi hrow, hkept, fun told hf => ?_⟩
    obtain ⟨rfl, -⟩ := of_record? hf
    obtain ⟨hlt, -⟩ := List.getElem?_eq_some_iff.mp hi
    refine ⟨i, new, by rw [hrows, List.getElem?_set_self hlt], rfl, fun old hold => ?_⟩
    cases hi.symm.trans hold
    exact hrow

theorem done_delete (hsoft : r.softDeletes = true) (hm : r.MarkedByName) {now : Moment}
    {deleted : Bool} (hk : r.model.Kept s.database.current)
    (h : r.delete now id s = .ok deleted s') : r.Done s s' (.flag deleted) := by
  cases deleted with
  | false =>
    rcases of_delete h with ⟨-, -, rfl⟩ | ⟨-, -, -, htrue, -⟩
    · exact .of_same hk rfl fun _ hf => by cases hf
    · cases htrue
  | true =>
    obtain ⟨i, old, new, -, hi, -, hold, -, hset, hkept⟩ := marked_of_delete hsoft hm hk h
    exact ⟨hset ▸ .changed hi hold, hkept, fun _ hf => by cases hf⟩

/-- An act adds a row, changes one that is not trashed, or leaves all as they are; the keys stay
apart, and nothing is told of what was trashed. -/
theorem done_of_perform (hsoft : r.softDeletes = true) (hm : r.MarkedByName)
    (hk : r.model.Kept s.database.current) {act : Act} {reply : Reply}
    (h : act.perform r s = .ok reply s') : r.Done s s' reply := by
  have hreading : act.writes = false → s'.database.current = s.database.current := by
    intro hw
    have hsame : (after (act.perform r) s).database.current = s.database.current :=
      current_of_reading hw s
    unfold after at hsame
    rwa [h] at hsame
  cases act with
  | query op =>
    obtain ⟨a, -, rfl⟩ := of_map_ok h
    exact .of_same hk (hreading rfl) fun _ hf => by cases hf
  | call c =>
    obtain ⟨u, -, rfl⟩ := of_map_ok h
    exact .of_same hk (hreading rfl) fun _ hf => by cases hf
  | commit =>
    obtain ⟨u, -, rfl⟩ := of_map_ok h
    exact .of_same hk (hreading rfl) fun _ hf => by cases hf
  | find id =>
    obtain ⟨found, hfound, rfl⟩ := of_map_ok h
    refine .of_same hk (hreading rfl) fun fields hf => ?_
    cases hf
    exact (stands_of_find? hm hk hfound).2
  | require id =>
    obtain ⟨fields, hfields, rfl⟩ := of_map_ok h
    refine .of_same hk (hreading rfl) fun told hf => ?_
    obtain ⟨rfl, -⟩ := of_record? hf
    exact (stands_of_find? hm hk (of_require hfields)).2
  | read id =>
    obtain ⟨fields, hfields, rfl⟩ := of_map_ok h
    obtain ⟨found, hfound, rfl⟩ := of_map_ok hfields
    refine .of_same hk (hreading rfl) fun told hf => ?_
    obtain ⟨rfl, hne⟩ := of_record? hf
    cases found with
    | none => exact absurd rfl hne
    | some fields => exact (stands_of_find? hm hk hfound).2
  | create data =>
    obtain ⟨fields, hfields, rfl⟩ := of_map_ok h
    exact done_create hk hfields
  | update id data =>
    obtain ⟨fields, hfields, rfl⟩ := of_map_ok h
    exact done_update hm hk hfields
  | delete now id =>
    obtain ⟨deleted, hdeleted, rfl⟩ := of_map_ok h
    exact done_delete hsoft hm hk hdeleted

/-- Whether it succeeds or not, an act that undoes nothing leaves the trashed rows as they are. -/
theorem stays_after (hsoft : r.softDeletes = true) (hm : r.MarkedByName)
    (hk : r.model.Kept s.database.current) {act : Act}
    (hquiet : act.rollsBack r s = true → s.database.committed = s.database.current) :
    r.Stays (r.rows s) (r.rows (after (act.perform r) s)) ∧
      r.model.Kept (after (act.perform r) s).database.current := by
  cases h : act.perform r s with
  | ok reply s' =>
    have hdone := done_of_perform hsoft hm hk h
    simp only [after, h]
    exact ⟨hdone.edit.stays, hdone.kept⟩
  | error e s' =>
    have hsame : (after (act.perform r) s).database.current = s.database.current := by
      cases hw : act.writes with
      | false => exact current_of_reading hw s
      | true =>
        simp only [after, h, Act.same_of_error hw hquiet h]
    rw [rows, rows, hsame]
    exact ⟨.refl _, hk⟩

theorem stays_runActs (hsoft : r.softDeletes = true) (hm : r.MarkedByName) {acts : List Act}
    (hk : r.model.Kept s.database.current) (hquiet : r.Unbroken acts s) :
    r.Stays (r.rows s) (r.rows (r.runActs acts s)) ∧
      r.model.Kept (r.runActs acts s).database.current := by
  induction acts generalizing s with
  | nil => exact ⟨.refl _, hk⟩
  | cons act acts ih =>
    obtain ⟨hfirst, hkept⟩ := stays_after hsoft hm hk hquiet.1
    obtain ⟨hrest, hlast⟩ := ih hkept hquiet.2
    exact ⟨hfirst.trans hrest, hlast⟩

end Winnow.Repository
