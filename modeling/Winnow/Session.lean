import Winnow.Query.Call

namespace Winnow

inductive Phase where
  | fresh
  | building
  | executed
  deriving DecidableEq, Repr

def Phase.name : Phase → String
  | fresh => "fresh"
  | building => "building"
  | executed => "executed"

/-- The tables joined, the columns selected and the tables guarded against trashed rows. -/
structure Joins where
  joined : List String := []
  selected : List String := []
  guarded : List String := []
  deriving DecidableEq, Repr

def addNew (x : String) (xs : List String) : List String :=
  if x ∈ xs then xs else xs ++ [x]

namespace Joins

def addEntry (expression : String) (j : Joins) : Bool × Joins :=
  (decide (expression ∉ j.selected), { j with selected := addNew expression j.selected })

def addTable (table : String) (j : Joins) : Joins :=
  { j with joined := addNew table j.joined }

def addGuard (table : String) (j : Joins) : Joins :=
  { j with guarded := addNew table j.guarded }

end Joins

structure Session (Q : Type) where
  phase : Phase := .fresh
  query : Q
  joins : Joins := {}
  /-- How many queries were made for this session. -/
  made : Nat := 1

namespace Session

variable {Q : Type}

/-- A session with its first query; `make n` is the query made after `n` others. -/
def new (make : Nat → Q) : Session Q where
  query := make 0

def isOpen (s : Session Q) : Bool := s.phase != .executed

def enter : EStateM Failure (Session Q) Unit := fun s =>
  if s.isOpen then .ok () { s with phase := .building } else .error (.closedSession "build") s

def execute {α : Type} (run : Q → Except Failure α) : EStateM Failure (Session Q) α := fun s =>
  if s.isOpen then
    let s := { s with phase := .executed }
    match run s.query with
    | .ok a => .ok a s
    | .error e => .error e s
  else .error (.closedSession "execute") s

def reset (make : Nat → Q) : EStateM Failure (Session Q) Unit := fun s =>
  if s.isOpen then .ok () { query := make s.made, made := s.made + 1 }
  else .error (.closedSession "reset") s

end Session

end Winnow
