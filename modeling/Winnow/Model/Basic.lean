import Winnow.Store.Table

namespace Winnow

structure Model where
  name : String
  table : TableDef
  /-- Attributes that are not named like their column, with that column. -/
  renamed : List (String × String) := []
  hidden : List String := []
  /-- The attributes that may be written, if they are listed. -/
  listed : Option (List String) := none
  deriving Repr

namespace Model

def attributeName (m : Model) (column : String) : String :=
  match m.renamed.find? (·.2 = column) with
  | some (name, _) => name
  | none => column

def attributes (m : Model) : List (String × ColumnDef) :=
  m.table.columns.map fun c => (m.attributeName c.name, c)

def attribute? (m : Model) (name : String) : Option ColumnDef := m.attributes.lookup name

/-- What may be written: the listed names, or every column outside the key. -/
def writable (m : Model) : List String :=
  match m.listed with
  | some names => names
  | none => m.table.columnNames.filter (· ∉ m.table.keyNames)

end Model

/-- The columns of a table that a join selects on its own: all but the hidden ones and the one that
marks trashed rows. -/
def Schema.defaultColumns (s : Schema) (table : String) (hidden : List String)
    (softDeleteColumn : String) : List String :=
  ((s.columnNames table).filter fun c => c ∉ hidden ∧ c ≠ softDeleteColumn).map
    fun c => table ++ "." ++ c

end Winnow
