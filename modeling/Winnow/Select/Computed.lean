import Winnow.Page
import Winnow.Select.Meaning
import Winnow.Select.Scope
import Winnow.Select.Text
import Winnow.Sql.Evaluation
import Winnow.Sql.QueryGrammar

namespace Winnow

/-- Only a part of the result: that many rows at most, after that many. No window, or a negative
count, stands for all rows. -/
structure Window where
  limit : Option Int := none
  offset : Int := 0
  deriving DecidableEq, Repr

def Window.bindings (w : Window) : Bindings :=
  match w.limit with
  | some limit => [(.int, .int limit), (.int, .int w.offset)]
  | none => []

def Window.of {α : Type} (w : Window) (xs : List α) : List α :=
  let rest := xs.drop w.offset.toNat
  match w.limit with
  | none => rest
  | some n => if n < 0 then rest else rest.take n.toNat

open Sql

/-- What the database is asked for: the rows in a window, or the number of all rows. -/
inductive Request where
  | rows (w : Window)
  | number
  deriving DecidableEq, Repr

/-- A statement as the database reads it: a list of outputs before the rest of the query, or
another query, which `more` statements may follow; `places` for values stand in the list or the
query. -/
inductive Reading where
  | list (distinct : Bool) (items : List Item) (places : Nat)
  | other (q : Query) (places : Nat) (more : Bool)

namespace TableDef

def typeName : ColumnType → String
  | .int => "integer"
  | .str => "varchar"
  | .float => "float"
  | .bool => "boolean"
  | .datetime => "datetime"

/-- A table as the database knows it. One integer key alone is the number of the row. -/
def entity (t : TableDef) : Entity :=
  let isRowKey (c : ColumnDef) : Bool := c.isKey && c.type = .int && t.keys.length = 1
  ⟨t.name, .main, .table (t.columns.map fun c =>
    { name := c.name, type := typeName c.type, inKey := c.isKey, isRowKey := isRowKey c })⟩

def sqlSource (t : TableDef) : Sql.Source :=
  match t.entity.body with
  | .table columns => { label := t.name, columns := columns.map (·.column) }
  | _ => { label := t.name, columns := [] }

end TableDef

def Tables.content (ts : Tables) (schema : Schema) : Content where
  look := { entities := schema.map (·.entity) }
  tables := schema.map fun t => (t.name, ts.rowsOf t.name)

namespace Select

def isComputed (q : Select) : Bool :=
  q.selected.any fun o =>
    match o.expr with
    | .column _ => false
    | .raw _ => true

def windowSql (w : Window) : String := if w.limit.isSome then "\n LIMIT ? OFFSET ?" else ""

/-- An output within a query whose rows are counted: every column gets a label. -/
def countedOutput (o : NamedOutput) : NamedOutput :=
  match o.expr with
  | .column _ => { o with label := some o.key }
  | .raw _ => o

/-- A statement in three parts: what stands before the list of outputs, the list, and the rest. -/
def statement (q : Select) : Request → Except Failure (String × String × String)
  | .rows w => do
    return ("SELECT ", q.outputsSql .marks, (← q.restSql .marks) ++ windowSql w)
  | .number => do
    let outputs := q.named.1.map fun o => (countedOutput o).sql .marks
    let rest ← restSql { q with orders := [] } .marks
    return ("SELECT count(*) AS count_1 \nFROM (SELECT ", String.intercalate ", " outputs,
      rest ++ ") AS anon_1")

/-- Reads a list of outputs, and whether repeated rows are left out. -/
def readList : Parse (Bool × List Item) := do
  let distinct ← Parse.word? "distinct"
  if !distinct then let _ ← Parse.word? "all"
  return (distinct, ← Parse.list (Grammar.item (← Grammar.whole)))

/-- Reads a query to the end of its statement, and whether something follows it. -/
def readOther : Parse (Query × Bool) := do
  let q ← (← Grammar.whole).query
  if ← Parse.mark? ";" then return (q, (← Parse.peek).isSome)
  if (← Parse.peek).isSome then Parse.refuse
  return (q, false)

/-- The number of places for values in some tokens, up to those that are left. -/
def placesIn (lexemes left : List Lexeme) : Nat :=
  (lexemes.take (lexemes.length - left.length)).countP fun l =>
    match l.token with
    | .parameter _ => true
    | _ => false

def read (q : Select) (r : Request) : Except Failure Reading := do
  let (head, list, rest) ← q.statement r
  let text := head ++ list ++ rest
  if text.toList.any fun c => c.toNat = 0 then throw .zeroInStatement
  let lexemes := (scan text).1
  let ((distinct, items), left) ←
    (readList (lexemes.drop (scan head).1.length)).mapError .rejected
  if left.map (·.token) = (scan rest).1.map (·.token) then
    return .list distinct items (placesIn lexemes left)
  let ((other, more), left) ← (readOther lexemes).mapError .rejected
  return .other other (placesIn lexemes left) more

def steps (q : Select) : Nat :=
  8 * ((q.outputsSql .marks).length + q.tables.length + 16)

def scope (q : Select) : Scope := [q.tables.map (·.sqlSource)]

def lookup (q : Select) : Lookup := { entities := q.schema.map (·.entity) }

def itemNames (q : Select) (items : List Item) : Except Fault (List String) := do
  let columns ← items.mapM (Resolution.itemColumns q.scope true)
  return columns.flatten.map fun c => c.1.getD ""

def checkItems (q : Select) (items : List Item) : Except Failure Unit :=
  checkEach (fun e =>
    ((Resolution.checkExpr q.lookup q.steps q.scope true e).finish).mapError .rejected)
    (items.filterMap Grouping.itemExpr?)

def linesOf (ts : Tables) (env : Env) : List Line :=
  env.map fun b =>
    let key := (b.table.columns.find? fun c => c.type = .int && b.table.keyNames = [c.name])
    let number := match key with
      | some c => b.table.cell c.name b.row
      | none =>
        if b.row = b.table.nullRow then .null
        else .int ((ts.rowsOf b.table.name).findIdx (· = b.row) + 1)
    ⟨b.row, number⟩

/-- The rows of computed outputs, as cells. Aggregates make one row of all; repeated rows are left
out before the rows are sorted. -/
def computedRows (q : Select) (ts : Tables) (distinct : Bool) (items : List Item) :
    Except Failure (List (List Cell)) :=
  let content := ts.content q.schema
  let cells (frame : Frame) : Except Fault (List Cell) :=
    Evaluation.itemCells content q.steps [frame] items
  let exprs := items.filterMap Grouping.itemExpr?
  Except.mapError Failure.rejected do
    let sources := q.tables.map (·.sqlSource)
    let lines := (q.matched ts).map (linesOf ts)
    if exprs.any (Grouping.isGathering q.steps) then
      return [← cells (← Evaluation.groupFrame content q.steps [] sources exprs lines)]
    let frames := Frame.ofLines sources lines
    let rows ← ((q.matched ts).zip frames).mapM fun (env, frame) => do return (env, ← cells frame)
    let rows := if distinct then firsts rows else rows
    return (rows.mergeSort fun a b => compareRows q.orders a.1 b.1 != .gt).map (·.2)
where
  firsts (rows : List (Env × List Cell)) : List (Env × List Cell) :=
    (rows.foldl (fun (done : List (Env × List Cell)) row =>
      if done.any fun d => Gather.sameCells d.2 row.2 then done else row :: done) []).reverse

def keyType? (q : Select) (key : String) : Option ColumnType :=
  (q.named.1.find? fun o => o.key = key).bind fun o =>
    match o.expr with
    | .column c => some (q.schema.columnType c.table c.column)
    | .raw _ => none

def valueOf (t : Option ColumnType) (c : Cell) : Value :=
  match t with
  | some t => c.valueAs t
  | none => c.value

def keyed (q : Select) (o : NamedOutput) (c : Cell) : String × Value :=
  match o.expr with
  | .column column => (o.key, valueOf (some (q.schema.columnType column.table column.column)) c)
  | .raw _ => (o.key, valueOf none c)

/-- A row under its keys: those of the outputs if they are as many as the columns, and otherwise
the names that the columns have. -/
def computedRow (q : Select) (names : List String) (cells : List Cell) : Row :=
  let outputs := q.named.1
  if names.length = outputs.length && outputs.all (·.expr != .raw "*") then
    List.zipWith q.keyed outputs cells
  else
    List.zipWith (fun key c => (key, valueOf (q.keyType? key) c)) names cells

/-- The answer to a request: its rows as cells and the names of its columns. -/
structure Answer where
  names : List String
  rows : List (List Cell)

def Answer.ofCount (n : Nat) : Answer := ⟨["count_1"], [[.int n]]⟩

def Answer.count (a : Answer) : Nat :=
  match a.rows with
  | [.int n] :: _ => n.toNat
  | _ => 0

def listAnswer (q : Select) (ts : Tables) (w : Window) (distinct : Bool) (items : List Item)
    (places : Nat) : Except Failure Answer := do
  let names ← (q.itemNames items).mapError .rejected
  q.checkNames (q.checkItems items)
  if 0 < places then throw .missingBindings
  Bindings.checkStorable (q.bindings ++ w.bindings)
  return ⟨names, ← q.computedRows ts distinct items⟩

/-- What the database answers to another query that stands in place of the meant one. -/
def otherAnswer (q : Select) (ts : Tables) (values : Bindings) (other : Query) (places : Nat)
    (more : Bool) : Except Failure Answer := do
  let content := ts.content q.schema
  let columns ← (Resolution.queryColumns content.look q.steps [] true other).mapError .rejected
  if more then throw .manyStatements
  if places != values.length then throw .missingBindings
  let rows ← (Evaluation.rows content q.steps [] other).mapError .rejected
  return ⟨columns.map (·.name), rows⟩

/-- Runs the query with values for its tests. Faults of the statement come before a wrong number of
values, and that before values that no cell holds. -/
def answer (q : Select) (ts : Tables) (r : Request) : Except Failure Answer := do
  q.bindings.checkPassed
  match ← q.read r, r with
  | .list distinct items places, .rows w => q.listAnswer ts w distinct items places
  | .list distinct items places, .number => do
    let answer ← listAnswer { q with orders := [] } ts {} distinct items places
    return .ofCount answer.rows.length
  | .other other places more, .rows w =>
    q.otherAnswer ts (q.bindings ++ w.bindings) other places more
  | .other other places more, .number => q.otherAnswer ts q.bindings other places more

end Select

end Winnow
