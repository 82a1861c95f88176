import Winnow.Store.Cell

namespace Winnow

structure ColumnDef where
  name : String
  type : ColumnType
  isKey : Bool := false
  nullable : Bool := true
  /-- What a new row has in the column where nothing is written to it. -/
  preset : Cell := .null
  deriving DecidableEq, Repr

structure TableDef where
  name : String
  columns : List ColumnDef
  deriving DecidableEq, Repr

abbrev Schema := List TableDef

namespace TableDef

def columnNames (t : TableDef) : List String := t.columns.map (·.name)

def column? (t : TableDef) (name : String) : Option ColumnDef :=
  t.columns.find? (·.name = name)

def keys (t : TableDef) : List ColumnDef := t.columns.filter (·.isKey)

def keyNames (t : TableDef) : List String := t.keys.map (·.name)

def qualified (t : TableDef) (column : String) : String := t.name ++ "." ++ column

def cell (t : TableDef) (name : String) (row : List Cell) : Cell :=
  (row.getD (t.columns.findIdx (·.name = name)) .null)

def setCell (t : TableDef) (name : String) (c : Cell) (row : List Cell) : List Cell :=
  row.set (t.columns.findIdx (·.name = name)) c

def keyCells (t : TableDef) (row : List Cell) : List Cell := t.keyNames.map fun c => t.cell c row

/-- The first column of a row that must have a value and has none. -/
def missing? (t : TableDef) (row : List Cell) : Option ColumnDef :=
  t.columns.find? fun c => !c.nullable && t.cell c.name row = .null

def nullRow (t : TableDef) : List Cell := t.columns.map fun _ => .null

def preset (t : TableDef) (column : String) : Cell := (t.column? column).elim .null (·.preset)

def presetRow (t : TableDef) : List Cell := t.columns.map (·.preset)

end TableDef

namespace Schema

def table? (s : Schema) (name : String) : Option TableDef :=
  s.find? (·.name = name)

def columnType (s : Schema) (table column : String) : ColumnType :=
  match (s.table? table).bind (·.column? column) with
  | some c => c.type
  | none => .str

def columnNames (s : Schema) (table : String) : List String :=
  match s.table? table with
  | some t => t.columnNames
  | none => []

end Schema

structure Table where
  table : TableDef
  rows : List (List Cell) := []
  deriving Repr

abbrev Tables := List Table

namespace Tables

def rowsOf (ts : Tables) (name : String) : List (List Cell) :=
  match ts.find? (·.table.name = name) with
  | some t => t.rows
  | none => []

def modifyRows (ts : Tables) (name : String) (f : List (List Cell) → List (List Cell)) : Tables :=
  ts.map fun t => if t.table.name = name then { t with rows := f t.rows } else t

end Tables

structure Database where
  current : Tables
  committed : Tables
  deriving Repr

namespace Database

def ofTables (ts : Tables) : Database := ⟨ts, ts⟩

def commit (db : Database) : Database := { db with committed := db.current }

def rollback (db : Database) : Database := { db with current := db.committed }

end Database

namespace Tables

def compareKeys : List Cell → List Cell → Ordering
  | a :: as, b :: bs => (Cell.sortOrder a b).then (compareKeys as bs)
  | _, _ => .eq

def dump (ts : Tables) (table : TableDef) : List (List Cell) :=
  (ts.rowsOf table.name).mergeSort fun a b =>
    compareKeys (table.keyCells a) (table.keyCells b) != .gt

end Tables

end Winnow
