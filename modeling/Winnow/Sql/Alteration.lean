import Winnow.Sql.Creation
import Winnow.Sql.Rename

namespace Winnow.Sql

namespace Definition

open Parse

/-- The first thing that a database no longer understands, after a change. Views see what the part
they are in holds; those of the temporary part see everything. -/
def findBroken (es : Entities) (part : Part) (change : String) : Except Fault Unit :=
  es.forM fun e => do
    if e.part = part || e.part = .temporary then
      match e.body with
      | .table _ => pure ()
      | .view .. =>
        match Resolution.columnsOf es e.part e.name with
        | .error f => throw (.broken "view" e.name change f.message)
        | .ok _ => pure ()
      | .index table keys =>
        match (es.findIn e.part table).map (·.body) with
        | some (Body.table columns) =>
          match keys.forM (checkKey table columns) with
          | .error f => throw (.broken "index" e.name change f.message)
          | .ok () => pure ()
        | _ => pure ()

def checkBroken (es : Entities) (part : Part) (change : String) : Parse Unit :=
  match findBroken es part change with
  | .error f => deny f
  | .ok () => pure ()

def replace (es : Entities) (old new : Entity) : Entities :=
  es.map fun e =>
    if e.part = old.part && !e.isIndex && sameName e.name old.name then new else e

/-- Gives a new name to a table in the views and indexes that use it. -/
def renameUses (es : Entities) (n : Renaming) (table new : String) : Entities :=
  es.map fun e =>
    match e.body with
    | .view names q size => { e with body := .view names (n.query (8 * (size + 2)) q) size }
    | .index of keys => if sameName of table then { e with body := .index new keys } else e
    | .table _ => e

def renameTable (es : Entities) (e : Entity) : Parse Entities := do
  let new ← name
  if (es.findIn e.part new).isSome || (es.findIndex (some e.part) new).isSome then
    deny (.takenByAny new)
  if isInternal e.name then deny (.unalterable e.name)
  if isInternal new then deny (.reservedName new)
  if e.isView then deny (.viewUnalterable e.name)
  checkBroken es e.part ""
  return renameUses (replace es e { e with name := new }) (.table e.name new) e.name new

/-- Gives a new name to a column in the views that would not be understood without it, and in the
indexes of its table. -/
def renameColumnUses (es : Entities) (table : Entity) (n : Renaming) : Entities :=
  es.map fun e =>
    match e.body with
    | .view names q size =>
      match Resolution.columnsOf es e.part e.name with
      | .ok _ => e
      | .error _ => { e with body := .view names (n.query (8 * (size + 2)) q) size }
    | .index of keys =>
      if isIndexOf table.part table.name e then
        { e with body := .index of (keys.map (n.expr 1000)) }
      else e
    | .table _ => e

def tableColumns (action : String) (e : Entity) : Parse (List ColumnEntry) := do
  match e.body with
  | .table columns => return columns
  | _ => deny (.columnOfView action e.name)

def renameColumn (es : Entities) (e : Entity) : Parse Entities := do
  let old ← nameToken
  word "to"
  let new ← name
  if isInternal e.name then deny (.unalterable e.name)
  let columns ← tableColumns "rename columns of" e
  let oldName := old.name?.getD ""
  if !columns.any fun c => sameName c.name oldName then
    deny (.noColumn ("\"" ++ old.raw ++ "\""))
  checkBroken es e.part ""
  if columns.any fun c => sameName c.name new && !sameName c.name oldName then
    deny (.broken "table" e.name "rename" (Fault.duplicateColumn new).message)
  let renamed := columns.map fun c => if sameName c.name oldName then { c with name := new } else c
  let es := replace es e { e with body := .table renamed }
  let es := renameColumnUses es e (.column oldName new)
  checkBroken es e.part "rename"
  return es

/-- Adds a column; what it demands must not need a look at the rows. -/
def addColumn (es : Entities) (e : Entity) : Parse Entities := do
  match e.body with
  | .table columns =>
    if isInternal e.name then deny (.unalterable e.name)
    let _ ← word? "column"
    let b ← TableBody.column (← Grammar.whole) { name := e.name, columns }
    let added := b.columns.getLast?
    if added.any (·.inKey) then deny (.addedColumn "PRIMARY KEY column")
    if added.any (·.unique) then deny (.addedColumn "UNIQUE column")
    return replace es e { e with body := .table b.columns }
  | _ => deny (.addedColumn "column to a view")

def dropColumn (es : Entities) (e : Entity) : Parse Entities := do
  let _ ← word? "column"
  let t ← nameToken
  if isInternal e.name then deny (.unalterable e.name)
  let columns ← tableColumns "drop column from" e
  match columns.find? fun c => sameName c.name (t.name?.getD "") with
  | none => deny (.noColumn ("\"" ++ t.raw ++ "\""))
  | some c =>
    if c.inKey then deny (.keyColumn "PRIMARY KEY" c.name)
    if c.unique then deny (.keyColumn "UNIQUE" c.name)
    if columns.length ≤ 1 then deny (.lastColumn c.name)
    checkBroken es e.part ""
    let es := replace es e { e with body := .table (columns.filter (·.name != c.name)) }
    checkBroken es e.part "drop column"
    return es

def alter (es : Entities) : Parse Entities := do
  word "table"
  let t ← target
  let found ← match lookup es t with
    | some e => pure e
    | none => deny (.noTable t.written)
  if ← word? "rename" then
    if ← word? "to" then renameTable es found
    else
      let _ ← word? "column"
      renameColumn es found
  else if ← word? "add" then addColumn es found
  else if ← word? "drop" then dropColumn es found
  else refuse

end Definition

end Winnow.Sql
