import Winnow.Failure
import Winnow.Sql.Alteration
import Winnow.Store.Table

namespace Winnow.Sql

namespace Definition

open Parse

def create (es : Entities) : Parse Entities := do
  let temporary := (← oneOf? ["temp", "temporary"]).isSome
  if ← word? "table" then createTable es temporary
  else if ← word? "view" then createView es temporary
  else if temporary then refuse
  else if ← word? "unique" then do word "index"; createIndex es
  else if ← word? "index" then createIndex es
  else refuse

/-- Nothing may follow a statement but the mark that ends it; says whether more follows the mark.
-/
def finish : Parse Bool := do
  if ← mark? ";" then return (← peek).isSome
  if (← peek).isSome then refuse
  return false

def isOther : Parse Bool := do
  let rest := (← get).map (·.token)
  return (rest.take 3).any fun t => t.isWord "trigger" || t.isWord "virtual"

/-- The words that statements about rows and transactions start with. -/
def otherWords : List String :=
  ["analyze", "attach", "begin", "commit", "delete", "detach", "end", "explain", "insert", "pragma",
    "reindex", "release", "replace", "rollback", "savepoint", "select", "update", "vacuum",
    "values", "with"]

def statement (es : Entities) : Parse (Entities × Bool) := do
  let _ ← all do if ← mark? ";" then return some () else return none
  if (← atWord "create") && !(← isOther) then
    skip
    let es ← create es
    return (es, ← finish)
  if ← word? "drop" then
    if ← atWord "trigger" then return (es, false)
    let es ← if ← word? "index" then dropIndex es
      else if ← word? "table" then drop es false
      else if ← word? "view" then drop es true
      else refuse
    return (es, ← finish)
  if ← word? "alter" then
    let es ← alter es
    return (es, ← finish)
  match ← peek with
  | none => return (es, false)
  | some t =>
    if otherWords.any fun w => t.isWord w then return (es, false)
    if t.isWord "create" then return (es, false)
    refuse

end Definition

def Entities.execute (es : Entities) (text : String) : Except Failure Entities := do
  if text.toList.any fun c => c.toNat = 0 then throw .zeroInStatement
  let ((es, more), _) ← (Definition.statement es (scan text).1).mapError .rejected
  if more then throw .manyStatements
  return es

def Entities.ofStatements (statements : List String) : Except Failure Entities :=
  statements.foldlM Entities.execute []

end Winnow.Sql

namespace Winnow

/-- The columns of a table or view of a database; those of the main part come first. -/
def Sql.Entities.columnNames (es : Entities) (table : String) : Except Failure (List String) := do
  match ← look .main with
  | some columns => return columns
  | none =>
    match ← look .temporary with
    | some columns => return columns
    | none => throw .noSuchTable
where
  look (part : Part) : Except Failure (Option (List String)) :=
    (Resolution.columnsOf es part table).mapError .rejected

/-- The columns of a table: of a known one from the schema, of another one from the database, if
there is one. -/
def knownColumns (schema : Schema) (db : Option Sql.Entities) (table : String) :
    Except Failure (List String) :=
  match schema.table? table, db with
  | some t, _ => .ok t.columnNames
  | none, none => .ok []
  | none, some db => db.columnNames table

end Winnow
