import Winnow.Proofs.FilteredRows
import Winnow.Proofs.RepositoryOperations
import Winnow.Proofs.RowWrites
import Winnow.Repository.Record

namespace Winnow.Repository

inductive Act where
  | query (op : Operation)
  | call (c : Call)
  | find (id : Value)
  | require (id : Value)
  | read (id : Value)
  | create (data : Row)
  | update (id : Value) (data : Row)
  | delete (now : Moment) (id : Value)
  | commit

/-- What an act gives. -/
inductive Reply where
  | answer (a : Answer)
  | found (record : Option Row)
  | record (fields : Row)
  | flag (b : Bool)
  | done

/-- The record that a reply tells, if it tells one. An empty reply tells none. -/
def Reply.record? : Reply → Option Row
  | found fields => fields
  | record (entry :: fields) => some (entry :: fields)
  | _ => none

def Act.perform (r : Repository) : Act → Step Reply
  | query op => return .answer (← op.perform r)
  | call c => do callQuery c; return .done
  | find id => return .found (← r.find? id)
  | require id => return .record (← r.require id)
  | read id => return .record (← r.read id)
  | create data => return .record (← r.create data)
  | update id data => return .record (← r.update id data)
  | delete now id => return .flag (← r.delete now id)
  | commit => do Repository.commit; return .done

def Act.writes : Act → Bool
  | create .. | update .. | delete .. => true
  | _ => false

/-- What a write makes of the tables, if it gets as far as the database: all names in the data are
attributes, and the record to change is found. -/
def Act.flushed? (r : Repository) (s : State) : Act → Option (Except Failure Tables)
  | create data =>
    match r.model.checkNames (r.model.writablePart data) with
    | .ok _ => some ((r.model.insert (r.model.writablePart data) s.database.current).map (·.2))
    | .error _ => none
  | update id data =>
    match r.find id s with
    | .ok (some row) _ =>
      some ((r.model.update (r.model.writablePart data) row s.database.current).map (·.2))
    | _ => none
  | delete now id =>
    match r.find id s with
    | .ok (some row) _ => some (r.deletion now row s.database.current)
    | _ => none
  | _ => none

/-- Whether a write fails at the database, so that all that is not committed is undone. -/
def Act.rollsBack (r : Repository) (s : State) (act : Act) : Bool :=
  match act.flushed? r s with
  | some (.error _) => true
  | _ => false

/-- The repository after some acts. -/
def runActs (r : Repository) (acts : List Act) (s : State) : State :=
  acts.foldl (fun s act => after (act.perform r) s) s

/-- No act rolls back where that would undo something. -/
def Unbroken (r : Repository) : List Act → State → Prop
  | [], _ => True
  | act :: acts, s =>
    (act.rollsBack r s = true → s.database.committed = s.database.current) ∧
      Unbroken r acts (after (act.perform r) s)

/-- The rows of the repository's table. -/
def rows (r : Repository) (s : State) : List (List Cell) :=
  s.database.current.rowsOf r.model.table.name

/-- The place of the row that an identifier names. -/
def place? (r : Repository) (s : State) (id : Value) : Option Nat :=
  match r.model.keyOf id with
  | .ok parts => (r.rows s).findIdx? (r.model.hasKey parts)
  | .error _ => none

/-- The column that marks trashed rows is an attribute under its own name. -/
def MarkedByName (r : Repository) : Prop :=
  ∃ c, r.model.attribute? r.catalog.softDeleteColumn = some c ∧ c.name = r.catalog.softDeleteColumn

def State.withTables (s : State) (ts : Tables) : State :=
  { s with database := { s.database with current := ts } }

/-- What a write that fails leaves behind. -/
def Act.undone (r : Repository) (s : State) (act : Act) : State :=
  if act.rollsBack r s = true then s.withTables s.database.committed else s

variable {r : Repository} {s s' : State} {id : Value} {row : List Cell} {α : Type}

theorem runActs_append (before later : List Act) (s : State) :
    r.runActs (before ++ later) s = r.runActs later (r.runActs before s) :=
  List.foldl_append

theorem unbroken_append {before later : List Act} : r.Unbroken (before ++ later) s ↔
    r.Unbroken before s ∧ r.Unbroken later (r.runActs before s) := by
  induction before generalizing s with
  | nil => exact (and_iff_right trivial).symm
  | cons act acts ih =>
    change (_ ∧ r.Unbroken (acts ++ later) _) ↔ (_ ∧ _) ∧ _
    rw [ih, and_assoc]
    rfl

theorem place?_eq {parts : List Value} {i : Nat} (hk : r.model.Kept s.database.current)
    (hparts : r.model.keyOf id = .ok parts) (hi : (r.rows s)[i]? = some row)
    (hkey : r.model.hasKey parts row = true) : r.place? s id = some i := by
  unfold place?
  simp only [hparts]
  have hsome : ((r.rows s).findIdx? (r.model.hasKey parts)).isSome = true := by
    rw [List.findIdx?_isSome, List.any_eq_true]
    exact ⟨row, List.mem_of_getElem? hi, hkey⟩
  obtain ⟨j, hj⟩ := Option.isSome_iff_exists.mp hsome
  obtain ⟨hlt, hother, -⟩ := List.findIdx?_eq_some_iff_getElem.mp hj
  have hij := hk.place_unique hparts hi (List.getElem?_eq_getElem hlt) hkey hother
  rw [hj, hij]

/-- Where the marking column goes by its own name, the mark that the model sees is that column. -/
theorem isTrashed_eq (hm : r.MarkedByName) (row : List Cell) :
    (r.softDeletes && r.model.isTrashed r.catalog.softDeleteColumn row) = r.isTrashed row := by
  obtain ⟨c, hc, hname⟩ := hm
  unfold Model.isTrashed isTrashed
  simp only [hc, hname]

theorem find_ok {found : Option (List Cell)}
    (h : r.model.find id s.database.current = .ok found) :
    r.find id s = .ok (found.filter fun row =>
      !(r.softDeletes && r.model.isTrashed r.catalog.softDeleteColumn row)) s := by
  unfold Repository.find
  rw [get_bind]
  simp only [h]
  rfl

theorem find_error {e : Failure} (h : r.model.find id s.database.current = .error e) :
    r.find id s = .error e s := by
  unfold Repository.find
  rw [get_bind]
  simp only [h]
  rfl

theorem find_named (hm : r.MarkedByName)
    (h : r.model.find id s.database.current = .ok (some row)) :
    r.find id s = .ok (if r.isTrashed row = true then none else some row) s := by
  rw [find_ok h]
  simp only [isTrashed_eq hm]
  cases hrow : r.isTrashed row <;> simp [Option.filter, hrow]

theorem after_find (id : Value) (s : State) : after (r.find id) s = s := by
  unfold after
  cases h : r.model.find id s.database.current with
  | error e => rw [find_error h]
  | ok found => rw [find_ok h]

theorem of_find (hm : r.MarkedByName) (hk : r.model.Kept s.database.current)
    (h : r.find id s = .ok (some row) s') : s' = s ∧ ∃ (parts : List Value) (i : Nat),
      r.model.keyOf id = .ok parts ∧ (r.rows s)[i]? = some row ∧
        r.model.hasKey parts row = true ∧ r.isTrashed row = false := by
  cases hf : r.model.find id s.database.current with
  | error e =>
    rw [find_error hf] at h
    cases h
  | ok found =>
    rw [find_ok hf] at h
    simp only [isTrashed_eq hm] at h
    obtain ⟨hfound, rfl⟩ := EStateM.Result.ok.inj h
    obtain ⟨rfl, hkeep⟩ := Option.filter_eq_some_iff.mp hfound
    obtain ⟨parts, i, hparts, hi, hkey⟩ := hk.find_eq_ok_some.mp hf
    exact ⟨rfl, parts, i, hparts, hi, hkey, by simpa using hkeep⟩

theorem of_flush {f : Tables → Except Failure (α × Tables)} {a : α}
    (h : flush f s = .ok a s') :
    ∃ ts, f s.database.current = .ok (a, ts) ∧ s' = s.withTables ts := by
  unfold flush at h
  split at h
  next ts hf =>
    cases h
    exact ⟨ts, hf, rfl⟩
  next => cases h

theorem of_flush_error {f : Tables → Except Failure (α × Tables)} {e : Failure}
    (h : flush f s = .error e s') :
    f s.database.current = .error e ∧ s' = s.withTables s.database.committed := by
  unfold flush at h
  split at h
  next => cases h
  next hf =>
    cases h
    exact ⟨hf, rfl⟩

theorem of_find_bind {next : Option (List Cell) → Step α} {a : α}
    (h : (r.find id >>= next) s = .ok a s') :
    ∃ found, r.find id s = .ok found s ∧ next found s = .ok a s' := by
  cases hf : r.model.find id s.database.current with
  | error e =>
    rw [bind_of_error (find_error hf)] at h
    cases h
  | ok found =>
    rw [bind_of_ok (find_ok hf)] at h
    exact ⟨_, find_ok hf, h⟩

theorem of_find_bind_error {next : Option (List Cell) → Step α} {e : Failure}
    (h : (r.find id >>= next) s = .error e s') :
    (r.find id s = .error e s ∧ s' = s) ∨
      ∃ found, r.find id s = .ok found s ∧ next found s = .error e s' := by
  cases hf : r.model.find id s.database.current with
  | error e' =>
    rw [bind_of_error (find_error hf)] at h
    cases h
    exact Or.inl ⟨find_error hf, rfl⟩
  | ok found =>
    rw [bind_of_ok (find_ok hf)] at h
    exact Or.inr ⟨_, find_ok hf, h⟩

theorem withTables_committed (hquiet : s.database.committed = s.database.current) :
    s.withTables s.database.committed = s := by
  rw [hquiet]
  rfl

theorem of_create {data fields : Row} (h : r.create data s = .ok fields s') :
    ∃ row ts, r.model.insert (r.model.writablePart data) s.database.current = .ok (row, ts) ∧
      fields = r.model.record row ∧ s' = s.withTables ts := by
  unfold Repository.create at h
  cases hnames : r.model.checkNames (r.model.writablePart data) with
  | error e =>
    simp only [hnames] at h
    cases h
  | ok u =>
    simp only [hnames] at h
    obtain ⟨row, hrow, rfl⟩ := of_map_ok h
    obtain ⟨ts, hts, rfl⟩ := of_flush hrow
    exact ⟨row, ts, hts, rfl, rfl⟩

/-- Adding a record fails where a name in the data is no attribute, which undoes nothing, or at the
database. -/
theorem of_create_error {data : Row} {e : Failure} (h : r.create data s = .error e s') :
    (r.model.checkNames (r.model.writablePart data) = .error e ∧ s' = s) ∨
      (r.model.checkNames (r.model.writablePart data) = .ok () ∧
        r.model.insert (r.model.writablePart data) s.database.current = .error e ∧
        s' = s.withTables s.database.committed) := by
  unfold Repository.create at h
  cases hnames : r.model.checkNames (r.model.writablePart data) with
  | error e' =>
    simp only [hnames] at h
    cases h
    exact Or.inl ⟨rfl, rfl⟩
  | ok u =>
    simp only [hnames] at h
    obtain ⟨hinsert, rfl⟩ := of_flush_error (of_map_error h)
    exact Or.inr ⟨rfl, hinsert, rfl⟩

theorem of_update {data fields : Row}
    (h : r.update id data s = .ok fields s') :
    (r.find id s = .ok none s ∧ fields = [] ∧ s' = s) ∨
      ∃ row new ts, r.find id s = .ok (some row) s ∧
        r.model.update (r.model.writablePart data) row s.database.current = .ok (new, ts) ∧
        fields = r.model.record new ∧ s' = s.withTables ts := by
  obtain ⟨found, hfound, h⟩ := of_find_bind h
  cases found with
  | none =>
    cases h
    exact Or.inl ⟨hfound, rfl, rfl⟩
  | some row =>
    obtain ⟨new, hnew, rfl⟩ := of_map_ok h
    obtain ⟨ts, hts, rfl⟩ := of_flush hnew
    exact Or.inr ⟨row, new, ts, hfound, hts, rfl, rfl⟩

theorem of_update_error {data : Row} {e : Failure} (h : r.update id data s = .error e s') :
    (r.find id s = .error e s ∧ s' = s) ∨
      ∃ row, r.find id s = .ok (some row) s ∧
        r.model.update (r.model.writablePart data) row s.database.current = .error e ∧
        s' = s.withTables s.database.committed := by
  rcases of_find_bind_error h with hfind | ⟨found, hfound, h⟩
  · exact Or.inl hfind
  · cases found with
    | none => cases h
    | some row =>
      obtain ⟨hupdate, rfl⟩ := of_flush_error (of_map_error h)
      exact Or.inr ⟨row, hfound, hupdate, rfl⟩

theorem of_delete {now : Moment} {deleted : Bool}
    (h : r.delete now id s = .ok deleted s') :
    (r.find id s = .ok none s ∧ deleted = false ∧ s' = s) ∨
      ∃ row ts, r.find id s = .ok (some row) s ∧ deleted = true ∧
        r.deletion now row s.database.current = .ok ts ∧
        s' = { s.withTables ts with
          desk := after (Desk.note (.deleted r.model.name id)) s.desk } := by
  obtain ⟨found, hfound, h⟩ := of_find_bind h
  cases found with
  | none =>
    cases h
    exact Or.inl ⟨hfound, rfl, rfl⟩
  | some row =>
    simp only at h
    cases hc : (flush fun ts => (r.deletion now row ts).map ((), ·)) s with
    | error e t =>
      rw [bind_of_error hc] at h
      cases h
    | ok u t =>
      rw [bind_of_ok hc] at h
      obtain ⟨ts, hts, rfl⟩ := of_flush hc
      obtain ⟨ts', hts', hpair⟩ := ok_of_map hts
      cases hpair
      cases h
      exact Or.inr ⟨row, ts, hfound, rfl, hts', rfl⟩

theorem of_delete_error {now : Moment} {e : Failure} (h : r.delete now id s = .error e s') :
    (r.find id s = .error e s ∧ s' = s) ∨
      ∃ row, r.find id s = .ok (some row) s ∧
        r.deletion now row s.database.current = .error e ∧
        s' = s.withTables s.database.committed := by
  rcases of_find_bind_error h with hfind | ⟨found, hfound, h⟩
  · exact Or.inl hfind
  · cases found with
    | none => cases h
    | some row =>
      simp only at h
      cases hc : (flush fun ts => (r.deletion now row ts).map ((), ·)) s with
      | ok u t =>
        rw [bind_of_ok hc] at h
        cases h
      | error e' t =>
        rw [bind_of_error hc] at h
        cases h
        obtain ⟨hdeletion, rfl⟩ := of_flush_error hc
        exact Or.inr ⟨row, hfound, error_of_map hdeletion, rfl⟩

theorem Act.undone_of_flushed {act : Act} {e : Failure} (h : act.flushed? r s = some (.error e)) :
    act.undone r s = s.withTables s.database.committed := by
  unfold undone rollsBack
  simp only [h, if_true]

theorem Act.undone_of_unflushed {act : Act} (h : act.flushed? r s = none) :
    act.undone r s = s := by
  unfold undone rollsBack
  simp only [h, Bool.false_eq_true, if_false]

theorem Act.undone_of_error {act : Act} {e : Failure} (hw : act.writes = true)
    (h : act.perform r s = .error e s') : s' = act.undone r s := by
  cases act with
  | create data =>
    rcases of_create_error (of_map_error h) with ⟨hnames, rfl⟩ | ⟨hnames, hinsert, rfl⟩
    · exact (undone_of_unflushed (by simp only [flushed?, hnames])).symm
    · refine (undone_of_flushed (e := e) ?_).symm
      simp only [flushed?, hnames, hinsert]
      rfl
  | update id data =>
    rcases of_update_error (of_map_error h) with ⟨hfind, rfl⟩ | ⟨row, hfind, hupdate, rfl⟩
    · exact (undone_of_unflushed (by simp only [flushed?, hfind])).symm
    · refine (undone_of_flushed (e := e) ?_).symm
      simp only [flushed?, hfind, hupdate]
      rfl
  | delete now id =>
    rcases of_delete_error (of_map_error h) with ⟨hfind, rfl⟩ | ⟨row, hfind, hdeletion, rfl⟩
    · exact (undone_of_unflushed (by simp only [flushed?, hfind])).symm
    · exact (undone_of_flushed (e := e) (by simp only [flushed?, hfind, hdeletion])).symm
  | query | call | find | require | read | commit => cases hw

theorem Act.same_of_error {act : Act} {e : Failure} (hw : act.writes = true)
    (hquiet : act.rollsBack r s = true → s.database.committed = s.database.current)
    (h : act.perform r s = .error e s') : s' = s := by
  rw [undone_of_error hw h, undone]
  split
  next hrolls => exact withTables_committed (hquiet hrolls)
  next => rfl

end Winnow.Repository
