import Winnow.Query.Call
import Winnow.Relation.Alias
import Winnow.Grammar.Order
import Winnow.Select.Test
import Winnow.Store.Table
import Winnow.Text.Word

namespace Winnow

structure JoinOn where
  left : ColumnRef
  comparison : Comparison
  right : ColumnRef
  deriving DecidableEq, Repr

/-- A tree of joined tables. A join that is `outer` keeps every row of its left side. -/
inductive Source where
  | table (t : TableDef)
  | join (left right : Source) (on : JoinOn) (outer : Bool)
  deriving Repr

def Source.tables : Source → List TableDef
  | table t => [t]
  | join left right _ _ => left.tables ++ right.tables

def JoinOn.names (on : JoinOn) : List String := [on.left.table, on.right.table]

def JoinOn.isWithin (on : JoinOn) (ts : List TableDef) : Bool :=
  on.names.all fun name => ts.any (·.name = name)

/-- The conditions of the joins in a row that name a table further on. They are looked at when all
tables of the row are there. -/
def Source.late : Source → List JoinOn
  | table _ => []
  | join left right on _ =>
    left.late ++ if on.isWithin (left.tables ++ right.tables) then [] else [on]

/-- What is selected: a column of a table, or raw text. -/
inductive OutputExpr where
  | column (c : ColumnRef)
  | raw (text : String)
  deriving DecidableEq, Repr

structure Output where
  expr : OutputExpr
  label : Option String := none
  deriving DecidableEq, Repr

structure Select where
  schema : Schema
  base : TableDef
  outputs : List Output := []
  source : Source
  clauses : List Clause := []
  orders : List (ColumnRef × Direction) := []

namespace Select

def new (schema : Schema) (base : TableDef) : Select where
  schema := schema
  base := base
  source := .table base

def findTable (q : Select) (name : String) : Except Failure TableDef :=
  match q.schema.table? name with
  | some t => .ok t
  | none => .error (.unknownTable name)

/-- The table and the column of a reference; one without a dot is a column of the base table. -/
def tableAndColumn (q : Select) (reference : String) : String × String :=
  (cut '.' reference).getD (q.base.name, reference)

def findColumn (q : Select) (reference : String) : Except Failure ColumnRef := do
  let (table, column) := q.tableAndColumn reference
  let t ← q.findTable table
  if column ∈ t.columnNames then return ⟨table, column⟩
  throw (.unknownColumn table column)

def findComparison (operator : String) : Except Failure Comparison :=
  match Comparison.ofText? operator with
  | some comparison => .ok comparison
  | none => .error (.unsupportedOperator operator)

def isReference (cs : List Char) : Bool :=
  match cutList '.' cs with
  | some (table, column) => isWord table && isWord column
  | none => false

/-- What a source text selects: the column that it names, or itself as raw text. -/
def findExpr (q : Select) (source : String) : Except Failure OutputExpr :=
  if isReference (trim source.toList) then (q.findColumn (stripped source)).map .column
  else .ok (.raw source)

def findOutput (q : Select) (entry : String) : Except Failure Output :=
  match sourceAndAlias? entry with
  | some (source, label) => (q.findExpr source).map (⟨·, some label⟩)
  | none => (q.findExpr entry).map (⟨·, none⟩)

def findOutputs (q : Select) : List String → Except Failure (List Output)
  | [] => .ok []
  | entry :: entries => do
    let output ← q.findOutput entry
    return output :: (← q.findOutputs entries)

def findTest (q : Select) (column operator : String) (value : Value) :
    Except Failure Test := do
  let comparison ← findComparison operator
  Test.ofComparison (← q.findColumn column) comparison value

def findBounds : Except Value (List Value) → Except Failure (Value × Value)
  | .ok [low, high] => .ok (low, high)
  | .ok (_ :: _ :: _) => .error .tooManyBounds
  | .ok few => .error (.tooFewBounds few.length)
  | .error v => .error (.noBounds v.kindName)

def findMember (q : Select) (column : String) (values : Except Value (List Value))
    (negated : Bool) : Except Failure Test := do
  let c ← q.findColumn column
  match values with
  | .ok values => return .member c values negated
  | .error v => throw (.noElements v.kindName)

def addTest (q : Select) (t : Test) : Select :=
  { q with clauses := q.clauses ++ [⟨t, []⟩] }

/-- Makes a test an alternative to the last element of a `WHERE` list. -/
def orLast (t : Test) : List Clause → List Clause
  | [] => [⟨t, []⟩]
  | [last] => [last.orElse t]
  | c :: cs => c :: orLast t cs

/-- The source with one more table. In a right join the new table comes first. -/
def joinSource (source : Source) (t : TableDef) (on : JoinOn) : JoinKind → Source
  | .inner => .join source (.table t) on false
  | .left => .join source (.table t) on true
  | .right => .join (.table t) source on true

def step (q : Select) : Call → Except Failure Select
  | .filter column operator value => (q.findTest column operator value).map q.addTest
  | .orFilter column operator value =>
    (q.findTest column operator value).map fun t => { q with clauses := orLast t q.clauses }
  | .filterNot column operator value =>
    (q.findTest column operator value).map fun t => q.addTest t.negate
  | .filterIn column values => (q.findMember column values false).map q.addTest
  | .filterNotIn column values => (q.findMember column values true).map q.addTest
  | .filterNull column => (q.findColumn column).map fun c => q.addTest (.null c false)
  | .filterNotNull column => (q.findColumn column).map fun c => q.addTest (.null c true)
  | .filterBetween column bounds => do
    let (low, high) ← findBounds bounds
    return q.addTest (.between (← q.findColumn column) low high false)
  | .filterNotBetween column bounds => do
    let (low, high) ← findBounds bounds
    return q.addTest (.between (← q.findColumn column) low high true)
  | .join table first operator second joinKind => do
    let t ← q.findTable table
    let comparison ← findComparison operator
    let left ← q.findColumn first
    let right ← q.findColumn second
    match joinKind with
    | .error v => throw (.badJoinKind v)
    | .ok joinKind =>
      return { q with source := joinSource q.source t ⟨left, comparison, right⟩ joinKind }
  | .select entries => (q.findOutputs entries).map fun outputs => { q with outputs }
  | .orderBy column direction =>
    (q.findColumn column).map fun c =>
      { q with orders := q.orders ++ [(c, (Direction.read? direction).getD .ascending)] }

instance : QueryTarget Select where
  call c := fun q =>
    match q.step c with
    | .ok q' => .ok () q'
    | .error e => .error e q

/-- What is selected: the chosen outputs, or all columns of the base table. -/
def selected (q : Select) : List Output :=
  if q.outputs.isEmpty then q.base.columnNames.map fun c => ⟨.column ⟨q.base.name, c⟩, none⟩
  else q.outputs

/-- The tables that the outputs name, then those that the tests name. -/
def mentioned (q : Select) : List String :=
  (q.selected.filterMap fun o => match o.expr with | .column c => some c.table | .raw _ => none) ++
    q.clauses.flatMap fun c => c.tests.map (·.column.table)

/-- The tables that stand beside the join tree, in the order in which they are first named. -/
def beside (q : Select) : List TableDef :=
  let joined := q.source.tables.map (·.name)
  (q.mentioned.eraseDups.filter (· ∉ joined)).filterMap q.schema.table?

end Select

end Winnow
