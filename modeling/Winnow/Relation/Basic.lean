import Winnow.Relation.Alias
import Winnow.Failure
import Winnow.Text.Case

namespace Winnow

inductive JoinKind where
  | inner
  | left
  | right
  deriving DecidableEq, Repr

namespace JoinKind

def all : List JoinKind := [inner, left, right]

def name : JoinKind → String
  | inner => "inner"
  | left => "left"
  | right => "right"

def ofName? (s : String) : Option JoinKind :=
  all.find? (·.name = s)

end JoinKind

structure Relation where
  /-- Pairs of `table.column` texts to join on. -/
  chain : List (String × String) := []
  /-- Select entries that the join adds. -/
  entries : List String := []
  filterable : List String := []
  sortable : List String := []
  /-- Tables of which trashed rows are left out. -/
  softDelete : List String := []
  joinKind : JoinKind := .inner
  deriving DecidableEq, Repr

/-- The name under which a relation is asked for; only a text can be registered. -/
inductive RelationName where
  | text (s : String)
  | null
  | bool (b : Bool)
  | int (n : Int)
  | real (x : Binary64)
  deriving DecidableEq, Repr

def RelationName.value : RelationName → Value
  | text s => .text s
  | null => .null
  | bool b => .bool b
  | int n => .int n
  | real x => .real x

/-- A relation asked for by name, or given on the spot. -/
inductive RelationRef where
  | named (name : RelationName)
  | inline (rel : Relation)
  /-- A value of a kind that can name nothing. -/
  | unnameable (kind : String)
  deriving DecidableEq, Repr

end Winnow
