import Winnow.Column
import Winnow.Session

namespace Winnow

/-- What clients may use, and the limits on it. -/
structure Catalog where
  book : RelationBook
  filterable : List String := []
  sortable : List String := []
  searchable : List String := []
  /-- The columns of the base table that the first join selects. -/
  visible : List String := []
  separator : String := "@"
  filterLimit : Int := 5
  sortLimit : Int := 2
  softDeleteColumn : String := "deleted_at"

namespace Catalog

def allowed (cat : Catalog) : Use → List String
  | .filter => cat.filterable
  | .sort => cat.sortable

def limit (cat : Catalog) : Use → Int
  | .filter => cat.filterLimit
  | .sort => cat.sortLimit

end Catalog

structure Desk (Q : Type) where
  session : Session Q
  memory : Memory := {}
  /-- How often the visible columns were asked for. -/
  defaultReads : Nat := 0
  notes : List Note := []

abbrev Build (Q : Type) := EStateM Failure (Desk Q)

namespace Desk

variable {Q : Type}

def note (n : Note) : Build Q Unit :=
  modify fun d => { d with notes := d.notes ++ [n] }

def take {α : Type} (found : Found α) : Build Q α := do
  modify fun d => { d with memory := found.memory, notes := d.notes ++ found.notes }
  return found.answer

def onSession {α : Type} (step : EStateM Failure (Session Q) α) : Build Q α := fun d =>
  match step d.session with
  | .ok a s => .ok a { d with session := s }
  | .error e s => .error e { d with session := s }

def enter : Build Q Unit := onSession Session.enter

def issue [QueryTarget Q] (c : Call) : Build Q Unit :=
  onSession fun s =>
    match QueryTarget.call c s.query with
    | .ok u q => .ok u { s with query := q }
    | .error e q => .error e { s with query := q }

def issueAll [QueryTarget Q] : List Call → Build Q Unit
  | [] => pure ()
  | c :: cs => do issue c; issueAll cs

def joins : Build Q Joins := return (← get).session.joins

def setJoins (j : Joins) : Build Q Unit :=
  modify fun d => { d with session := { d.session with joins := j } }

def ofExcept {α : Type} : Except Failure α → Build Q α
  | .ok a => pure a
  | .error e => throw e

def reset (make : Nat → Q) : Build Q Unit := do
  onSession (Session.reset make)
  note .discarded

def execute {α : Type} (run : Q → Except Failure α) : Build Q α := fun d =>
  let noted := if d.session.isOpen then { d with notes := d.notes ++ [.executing] } else d
  onSession (Session.execute run) noted

end Desk

end Winnow
