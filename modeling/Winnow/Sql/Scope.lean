import Winnow.Sql.Fault
import Winnow.Sql.Keyword

namespace Winnow.Sql

/-- What a column, or an expression, makes of a value that it is compared with. -/
inductive Affinity where
  | none
  | text
  | number
  deriving DecidableEq, Repr

structure Column where
  name : String
  affinity : Affinity := .none
  /-- Whether the column is the number of the row. -/
  isRowKey : Bool := false
  deriving DecidableEq, Repr

/-- A table or a query whose columns are in sight, under a label. -/
structure Source where
  label : String
  columns : List Column
  /-- The columns that this source shares with one before it. -/
  shared : List String := []
  /-- Whether rows have numbers. -/
  numbered : Bool := true
  deriving DecidableEq, Repr

namespace Source

def position? (s : Source) (column : String) : Option Nat :=
  s.columns.findIdx? fun c => sameName c.name column

def isShared (s : Source) (column : String) : Bool := s.shared.any (sameName column)

end Source

/-- What a name stands for: a column of a source, or the number of its row, so many queries further
out; or, if there is none, the text itself or a truth. -/
inductive Found where
  | column (out source column : Nat)
  | rowNumber (out source : Nat)
  | text (s : String)
  | truth (b : Bool)
  deriving DecidableEq, Repr

/-- The sources of a query and of those around it. -/
abbrev Scope := List (List Source)

namespace Scope

def rowNumberNames : List String := ["rowid", "oid", "_rowid_"]

/-- The sources that a name with these parts may belong to, with their positions. -/
def candidates (sources : List Source) (path : List String) : List (Source × Nat) :=
  let tagged := sources.zipIdx
  match path with
  | [_] => tagged
  | [table, _] | [_, table, _] => tagged.filter fun p => sameName p.1.label table
  | _ => []

def matchesIn (sources : List Source) (path : List String) (out : Nat) : List Found :=
  let column := path.getLast?.getD ""
  let alone := path.length = 1
  (candidates sources path).filterMap fun (s, i) =>
    if alone && s.isShared column then .none
    else (s.position? column).map (.column out i)

/-- The row number that a name stands for, if only one source can be meant. -/
def rowNumberIn (sources : List Source) (path : List String) (out : Nat) : Option Found :=
  match candidates sources path with
  | [(s, i)] =>
    if s.numbered && rowNumberNames.contains (small (path.getLast?.getD "")) then
      some (.rowNumber out i)
    else .none
  | _ => .none

/-- The columns that a name stands for, in the nearest query that has any. -/
def search (path : List String) (out : Nat) : Scope → List Found
  | [] => []
  | sources :: rest =>
    match matchesIn sources path out, rowNumberIn sources path out with
    | [], some found => [found]
    | [], .none => search path (out + 1) rest
    | found, _ => found

/-- What a name stands for where no column has it: a name in double quotes is a text. -/
def fallback (path : List String) (double : Bool) : Option Found :=
  match path with
  | [s] =>
    if double then some (.text s)
    else if small s = "true" then some (.truth true)
    else if small s = "false" then some (.truth false)
    else .none
  | _ => .none

def find (scope : Scope) (path : List String) (double : Bool) : Except Fault Found :=
  let written := String.intercalate "." path
  match scope.search path 0 with
  | [found] => .ok found
  | _ :: _ => .error (.ambiguousColumn written)
  | [] =>
    match fallback path double with
    | some found => .ok found
    | .none => .error (.noColumn written)

def column? (scope : Scope) : Found → Option Column
  | .column out source column => do
    let sources ← scope[out]?
    let s ← sources[source]?
    s.columns[column]?
  | .rowNumber out source => do
    let sources ← scope[out]?
    let s ← sources[source]?
    return (s.columns.find? (·.isRowKey)).getD ⟨"rowid", .number, true⟩
  | _ => .none

end Scope

end Winnow.Sql
