import Winnow.Model.Record
import Winnow.Repository.Basic

namespace Winnow.Repository

def find (r : Repository) (id : Value) : Step (Option (List Cell)) := do
  match r.model.find id (← get).database.current with
  | .error e => throw e
  | .ok row => return row.filter fun row =>
      !(r.softDeletes && r.model.isTrashed r.catalog.softDeleteColumn row)

def find? (r : Repository) (id : Value) : Step (Option Row) := do
  return (← r.find id).map r.model.record

def require (r : Repository) (id : Value) : Step Row := do
  match ← r.find? id with
  | some row => return row
  | none => throw (.notFound r.model.name id)

def read (r : Repository) (id : Value) : Step Row := return (← r.find? id).getD []

/-- Writes to the tables; where that fails, all changes since the last commit are undone. -/
def flush {α : Type} (f : Tables → Except Failure (α × Tables)) : Step α := fun s =>
  match f s.database.current with
  | .ok (a, ts) => .ok a { s with database := { s.database with current := ts } }
  | .error e => .error e { s with database := s.database.rollback }

def create (r : Repository) (data : Row) : Step Row := do
  match r.model.checkNames (r.model.writablePart data) with
  | .error e => throw e
  | .ok _ => return r.model.record (← flush (r.model.insert (r.model.writablePart data)))

/-- Writes the part of the data that may be written; gives nothing when the record is missing. -/
def update (r : Repository) (id : Value) (data : Row) : Step Row := do
  match ← r.find id with
  | none => return []
  | some row =>
    return r.model.record (← flush (r.model.update (r.model.writablePart data) row))

def deletion (r : Repository) (now : Moment) (row : List Cell) (ts : Tables) :
    Except Failure Tables :=
  if r.softDeletes then r.model.trash r.catalog.softDeleteColumn now row ts
  else .ok (r.model.erase row ts)

/-- Removes a record or marks it as trashed; says whether there was one. -/
def delete (r : Repository) (now : Moment) (id : Value) : Step Bool := do
  match ← r.find id with
  | none => return false
  | some row =>
    flush fun ts => (r.deletion now row ts).map ((), ·)
    atDesk (Desk.note (.deleted r.model.name id))
    return true

def commit : Step Unit := modify fun s => { s with database := s.database.commit }

end Winnow.Repository
