import Winnow.Model.Basic
import Winnow.Page
import Winnow.Select.Meaning

namespace Winnow.Model

/-- The parts of an identifier, in the order of the key: the items of a list, the fields of a
record by their attributes, or the value alone. -/
def keyParts (m : Model) : Value → Option (List Value)
  | .list parts => some parts
  | .record fields =>
    if fields.length = m.table.keys.length then
      m.table.keys.mapM fun c => fields.lookup (m.attributeName c.name)
    else none
  | v => some [v]

def checkKey (m : Model) (parts : List Value) : Except Failure Unit := do
  match parts.find? fun v => !v.isKey with
  | some v => throw (.unnameable v.kindName)
  | none => Bindings.checkStorable ((m.table.keys.map (·.type)).zip parts)

def hasKey (m : Model) (parts : List Value) (row : List Cell) : Bool :=
  (m.table.keys.zip parts).all fun p =>
    (compareBound p.1.type .eq (m.table.cell p.1.name row) (Cell.ofValue p.1.type p.2)).isTrue

/-- The parts of an identifier, one for each part of the key, if they can be looked up. -/
def keyOf (m : Model) (id : Value) : Except Failure (List Value) :=
  match m.keyParts id with
  | none => .error .wrongKey
  | some parts => do
    if parts.length ≠ m.table.keys.length then throw .wrongKey
    m.checkKey parts
    return parts

def find (m : Model) (id : Value) (ts : Tables) : Except Failure (Option (List Cell)) :=
  (m.keyOf id).map fun parts => (ts.rowsOf m.table.name).find? (m.hasKey parts)

def valueOf (m : Model) (c : ColumnDef) (row : List Cell) : Value :=
  (m.table.cell c.name row).valueAs c.type

def record (m : Model) (row : List Cell) : Row :=
  (m.attributes.filter fun a => a.1 ∉ m.hidden).map fun a => (a.1, m.valueOf a.2 row)

def writablePart (m : Model) (data : Row) : Row := data.filter fun d => d.1 ∈ m.writable

/-- A row with a value in an attribute; a name without attribute changes nothing. -/
def assign (m : Model) (row : List Cell) (d : String × Value) : List Cell :=
  match m.attribute? d.1 with
  | some c => m.table.setCell c.name ((Cell.ofValue c.type d.2).store c.type) row
  | none => row

def assignAll (m : Model) (data : Row) (row : List Cell) : List Cell := data.foldl m.assign row

/-- The values of some data with the types of their columns, in the order of the table. -/
def bindings (m : Model) (data : Row) : Bindings :=
  m.attributes.filterMap fun a => (data.lookup a.1).map (a.2.type, ·)

def checkData (m : Model) (data : Row) : Except Failure Unit := do
  (m.bindings data).checkPassed
  (m.bindings data).checkStorable

def sameKey (m : Model) (a b : List Cell) : Bool :=
  m.table.keys.all fun c => (m.table.cell c.name a).same (m.table.cell c.name b)

/-- Whether a row may stand in the table beside the rows `others`. -/
def check (m : Model) (others : List (List Cell)) (row : List Cell) : Except Failure Unit :=
  match m.table.missing? row with
  | some c => .error (.nullValue m.table.name c.name)
  | none =>
    if others.any (m.sameKey row) then .error (.duplicateKey m.table.name m.table.keyNames)
    else .ok ()

def nextNumber (cells : List Cell) : Int :=
  (cells.foldl (fun largest c =>
    match c, largest with
    | .int n, some l => some (max n l)
    | .int n, none => some n
    | _, l => l) none).elim 1 (· + 1)

/-- A row whose key is one integer gets the next number if it has none. -/
def number (m : Model) (rows : List (List Cell)) (row : List Cell) : List Cell :=
  match m.table.keys with
  | [key] =>
    if key.type = .int ∧ m.table.cell key.name row = .null then
      m.table.setCell key.name (.int (nextNumber (rows.map (m.table.cell key.name)))) row
    else row
  | _ => row

def checkNames (m : Model) (data : Row) : Except Failure Unit :=
  match data.find? fun d => (m.attribute? d.1).isNone with
  | some d => .error (.noAttribute d.1 m.name)
  | none => .ok ()

/-- Some data without the entries that are null; a new row takes them for missing. -/
def valued (data : Row) : Row := data.filter fun d => !(d.2 matches .null)

def newRow (m : Model) (others : List (List Cell)) (data : Row) : List Cell :=
  m.number others (m.assignAll (valued data) m.table.presetRow)

def insert (m : Model) (data : Row) (ts : Tables) : Except Failure (List Cell × Tables) := do
  m.checkData data
  let row := m.newRow (ts.rowsOf m.table.name) data
  m.check (ts.rowsOf m.table.name) row
  return (row, ts.modifyRows m.table.name (· ++ [row]))

def replace (m : Model) (old new : List Cell) (ts : Tables) : Tables :=
  ts.modifyRows m.table.name fun rows => rows.map fun row => if m.sameKey old row then new else row

def update (m : Model) (data : Row) (row : List Cell) (ts : Tables) :
    Except Failure (List Cell × Tables) := do
  m.checkData data
  let new := m.assignAll data row
  m.check ((ts.rowsOf m.table.name).filter fun other => !m.sameKey row other) new
  return (new, m.replace row new ts)

def erase (m : Model) (row : List Cell) (ts : Tables) : Tables :=
  ts.modifyRows m.table.name fun rows => rows.filter fun other => !m.sameKey row other

def isTrashed (m : Model) (softDeleteColumn : String) (row : List Cell) : Bool :=
  match m.attribute? softDeleteColumn with
  | some c => m.table.cell c.name row != .null
  | none => false

def trash (m : Model) (softDeleteColumn : String) (now : Moment) (row : List Cell) (ts : Tables) :
    Except Failure Tables :=
  (m.update [(softDeleteColumn, .moment now)] row ts).map (·.2)

end Winnow.Model
