import Winnow.Failure
import Winnow.Select.Query

namespace Winnow

/-- A column can be read when exactly one of some tables has its name. -/
def ColumnRef.checkIn (ts : List TableDef) (c : ColumnRef) : Except Failure Unit :=
  match ts.filter (·.name = c.table) with
  | [] => .error (.rejected (.noColumn (c.table ++ "." ++ c.column)))
  | [_] => .ok ()
  | _ => .error (.rejected (.ambiguousColumn (c.table ++ "." ++ c.column)))

def checkEach {α : Type} (check : α → Except Failure Unit) : List α → Except Failure Unit
  | [] => .ok ()
  | a :: rest => do check a; checkEach check rest

namespace Source

def columns : Source → List ColumnRef
  | table _ => []
  | join left _ on _ => left.columns ++ [on.left, on.right]

/-- Whether the sources in parentheses name only tables of their own. -/
def checkNested : Source → Except Failure Unit
  | table _ => .ok ()
  | join left right _ _ => do
    left.checkNested
    right.checkNested
    checkEach (ColumnRef.checkIn right.tables) right.columns

end Source

/-- A part of a row of joins: the names of its tables, and the condition that joins it. -/
structure Joined where
  names : List String
  on : Option JoinOn := none
  outer : Bool := false

def Source.parts : Source → List Joined
  | table t => [{ names := [t.name] }]
  | join left right on outer =>
    left.parts ++ [{ names := right.tables.map (·.name), on := some on, outer }]

/-- Whether a test is never true for a row without values from some tables. -/
def Test.demands (names : List String) : Test → Bool
  | .compare _ .like _ | .compare _ .notLike _ | .null .. => false
  | .compare column _ _ | .between column .. => column.table ∈ names
  | .member column values _ => column.table ∈ names && !values.isEmpty

/-- Whether an element of a `WHERE` list is never true for such a row. -/
def Clause.demands (names : List String) (c : Clause) : Bool := c.tests.all (·.demands names)

/-- Whether a `WHERE` list is never true for such a row. That a column is not null counts where it
stands first. -/
def demandsAny (names : List String) : List Clause → Bool
  | [] => false
  | first :: rest =>
    let isPresence := match first.tests with
      | [.null column true] => column.table ∈ names
      | _ => false
    isPresence || (first :: rest).any (·.demands names)

def JoinOn.demands (names : List String) (on : JoinOn) : Bool :=
  match on.comparison with
  | .like | .notLike => false
  | _ => on.names.any (· ∈ names)

namespace Joined

/-- Makes the joins inner that need not be outer, from the left to the right. -/
def simplified (clauses : List Clause) (done : List Joined) : List Joined → List Joined
  | [] => done
  | p :: rest =>
    let demanded := demandsAny p.names clauses ||
      (done ++ p :: rest).any fun other => !other.outer && other.on.any (·.demands p.names)
    simplified clauses (done ++ [{ p with outer := p.outer && !demanded }]) rest

/-- Whether the condition of an outer join names a table to its right. -/
def looksRight (beside : List String) : List Joined → Bool
  | [] => false
  | p :: rest =>
    let right := rest.flatMap (·.names) ++ beside
    p.outer && p.on.any (fun on => on.names.any (· ∈ right)) || looksRight beside rest

def check (clauses : List Clause) (beside : List String) (parts : List Joined) :
    Except Failure Unit :=
  if looksRight beside (simplified clauses [] parts) then .error (.rejected .namesRight) else .ok ()

end Joined

def Source.checkSides : Source → Except Failure Unit
  | table _ => .ok ()
  | join left right _ _ => do
    left.checkSides
    right.checkSides
    Joined.check [] [] right.parts

namespace Select

def tables (q : Select) : List TableDef := q.source.tables ++ q.beside

def checkColumn (q : Select) (c : ColumnRef) : Except Failure Unit := c.checkIn q.tables

/-- Whether every name that the query uses is known, given what is to be said of its outputs. -/
def checkNames (q : Select) (outputs : Except Failure Unit) : Except Failure Unit := do
  q.source.checkNested
  outputs
  checkEach q.checkColumn (q.clauses.flatMap fun c => c.tests.map (·.column))
  checkEach q.checkColumn q.source.columns
  checkEach q.checkColumn (q.orders.map (·.1))
  q.source.checkSides
  Joined.check q.clauses (q.beside.map (·.name)) q.source.parts

def bindings (q : Select) : Bindings :=
  q.clauses.flatMap fun clause => clause.tests.flatMap fun test =>
    test.bindings (q.schema.columnType test.column.table test.column.column)

end Select

end Winnow
