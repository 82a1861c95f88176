import Winnow.Sql.Expr
import Winnow.Sql.Scope
import Winnow.Text.Split

namespace Winnow.Sql

inductive Part where
  | main
  | temporary
  deriving DecidableEq, Repr

namespace Part

def word : Part → String
  | main => "main"
  | temporary => "temp"

def ofName? (s : String) : Option Part :=
  [main, temporary].find? fun p => sameName p.word s

end Part

structure ColumnEntry where
  name : String
  type : String := ""
  inKey : Bool := false
  isRowKey : Bool := false
  unique : Bool := false
  deriving DecidableEq, Repr

inductive Body where
  | table (columns : List ColumnEntry)
  /-- A view, perhaps with names for its columns, and the number of tokens that define it. -/
  | view (columns : List String) (q : Query) (size : Nat)
  | index (table : String) (keys : List Expr)

structure Entity where
  name : String
  part : Part := .main
  body : Body

abbrev Entities := List Entity

def Affinity.ofType (type : String) : Affinity :=
  let holds (piece : String) : Bool := occursIn piece (small type)
  if holds "int" then .number
  else if holds "char" || holds "clob" || holds "text" then .text
  else if holds "blob" || type = "" then .none
  else .number

def ColumnEntry.column (c : ColumnEntry) : Column := ⟨c.name, Affinity.ofType c.type, c.isRowKey⟩

namespace Entity

def isIndex (e : Entity) : Bool :=
  match e.body with
  | .index .. => true
  | _ => false

def isView (e : Entity) : Bool :=
  match e.body with
  | .view .. => true
  | _ => false

end Entity

namespace Entities

def listing : List ColumnEntry :=
  ["type", "name", "tbl_name", "rootpage", "sql"].map fun name =>
    ⟨name, if name = "rootpage" then "int" else "text", false, false, false⟩

def listingNames : Part → List String
  | .main => ["sqlite_master", "sqlite_schema"]
  | .temporary => ["sqlite_temp_master", "sqlite_temp_schema"]

def listing? (part : Option Part) (name : String) : Option Entity :=
  let isOf (p : Part) : Bool :=
    part.all (· = p) && (listingNames p).any (sameName name) ||
      part = some p && (listingNames .main).any (sameName name)
  (if isOf .temporary then some Part.temporary else if isOf .main then some .main else none).map
    fun p => ⟨name, p, .table listing⟩

/-- How much all views hold together: a bound for looking into them. -/
def size (es : Entities) : Nat :=
  es.foldl (fun total e => match e.body with | .view _ _ n => total + n | _ => total) 0

def findIn (es : Entities) (part : Part) (name : String) : Option Entity :=
  es.find? fun e => e.part = part && sameName e.name name && !e.isIndex

/-- The table or view of a name; without a part, temporary ones come first. -/
def find (es : Entities) (part : Option Part) (name : String) : Option Entity :=
  match part with
  | some p => (es.findIn p name).or (listing? part name)
  | none =>
    ((es.findIn .temporary name).or (es.findIn .main name)).or (listing? part name)

def findIndex (es : Entities) (part : Option Part) (name : String) : Option Entity :=
  es.find? fun e => e.isIndex && sameName e.name name && part.all (e.part = ·)

end Entities

end Winnow.Sql
