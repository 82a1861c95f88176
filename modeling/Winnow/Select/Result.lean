import Winnow.Page
import Winnow.Select.Computed

namespace Winnow.Select

def checkOutput (q : Select) (o : NamedOutput) : Except Failure Unit :=
  match o.expr with
  | .column c => q.checkColumn c
  | .raw _ => .ok ()

/-- Whether the database accepts the query, if all its outputs are columns. -/
def check (q : Select) : Except Failure Unit := q.checkNames (checkEach q.checkOutput q.named.1)

/-- Whether the database runs the query with its values and a window. Values that do not pass for
their type are noticed first, those without a cell last. -/
def checkRun (q : Select) (w : Window) : Except Failure Unit := do
  q.bindings.checkPassed
  q.check
  Bindings.checkStorable (q.bindings ++ w.bindings)

def outputValue (env : Env) (o : NamedOutput) : Value :=
  match o.expr with
  | .column c => (env.cell c).valueAs (env.type c)
  | .raw _ => .null

def values (q : Select) (ts : Tables) : List (List Value) :=
  (q.sorted ts).map fun env => q.named.1.map (outputValue env)

def keys (q : Select) : List String := q.named.1.map (·.key)

/-- Rows with keys that are not distinct are noticed when there is a row to be read. -/
def checkKeys (keys : List String) (rows : List Row) : Except Failure (List Row) :=
  if !rows.isEmpty && !decide keys.Nodup then .error .ambiguousResult else .ok rows

def fetch (q : Select) (ts : Tables) (w : Window) : Except Failure (List Row) := do
  if q.isComputed then
    let answer ← q.answer ts (.rows w)
    let rows := (w.of answer.rows).map (q.computedRow answer.names)
    checkKeys ((rows.head?.getD []).map (·.1)) rows
  else
    q.checkRun w
    checkKeys q.keys ((w.of (q.values ts)).map q.keys.zip)

/-- The number of rows of the result. Their order is not looked at. -/
def count (q : Select) (ts : Tables) : Except Failure Nat := do
  if q.isComputed then
    return (← q.answer ts .number).count
  else
    checkRun { q with orders := [] } {}
    return (q.values ts).length

end Winnow.Select
