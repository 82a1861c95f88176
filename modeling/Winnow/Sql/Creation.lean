import Winnow.Sql.Resolution
import Winnow.Sql.TableBody

namespace Winnow.Sql

namespace Definition

open Parse

/-- A name with perhaps a database before it, as both are written. -/
structure Target where
  database : Option Token
  token : Token

namespace Target

def name (t : Target) : String := t.token.name?.getD ""

def databaseName (t : Target) : Option String := t.database.bind Token.name?

def written (t : Target) : String :=
  match t.databaseName with
  | some d => d ++ "." ++ t.name
  | none => t.name

end Target

def target : Parse Target := do
  let first ← nameToken
  if ← mark? "." then return ⟨some first, ← nameToken⟩
  return ⟨none, first⟩

def newPart (temporary : Bool) (t : Target) : Parse Part := do
  match t.database, t.databaseName.bind Part.ofName? with
  | none, _ => return if temporary then .temporary else .main
  | some d, none => deny (.unknownDatabase d.raw)
  | some _, some .main => if temporary then deny .qualifiedTemporary else return .main
  | some _, some .temporary => return .temporary

def isInternal (name : String) : Bool := "sqlite_".toList.isPrefixOf (small name).toList

/-- The words that make a statement harmless if the name is in use. -/
def ifNotExists : Parse Bool := do
  if ← word? "if" then
    words ["not", "exists"]
    return true
  return false

/-- Whether the name of a new table or view is free. A name in use is a fault, or nothing when it
may be in use. -/
def isFree (es : Entities) (part : Part) (t : Target) (mayExist : Bool) : Parse Bool := do
  if isInternal t.name then deny (.reservedName t.name)
  match es.findIn part t.name with
  | some e =>
    if mayExist then return false
    deny (.taken (if e.isView then "view" else "table") t.token.raw)
  | none =>
    if (es.findIndex (some part) t.name).isSome then deny (.takenByIndex t.name)
    return true

def isIndexOf (part : Part) (table : String) (e : Entity) : Bool :=
  e.part = part &&
    match e.body with
    | .index of _ => sameName of table
    | _ => false

def typeOf : Affinity → String
  | .none => ""
  | .text => "text"
  | .number => "num"

/-- The table of the numbers that are counted up, made with the first table that needs it. -/
def withCounters (es : Entities) (part : Part) : Entities :=
  let name := "sqlite_sequence"
  if (es.findIn part name).isSome then es
  else es ++ [⟨name, part, .table [{ name := "name" }, { name := "seq" }]⟩]

def createTable (es : Entities) (temporary : Bool) : Parse Entities := do
  let mayExist ← ifNotExists
  let t ← target
  let part ← newPart temporary t
  let free ← isFree es part t mayExist
  let (columns, counted) ← if ← word? "as" then do
      let before := (← get).length
      let q ← (← Grammar.whole).query
      if free then
        match Resolution.queryColumns { entities := es } (Resolution.steps es before) [] true q with
        | .ok columns =>
          pure (columns.map fun c => { name := c.name, type := typeOf c.affinity }, false)
        | .error f => deny f
      else pure ([], false)
    else do
      let b ← TableBody.read { name := t.name, idle := !free }
      pure (b.columns, b.counted)
  if !free then return es
  return (if counted then withCounters es part else es) ++ [⟨t.name, part, .table columns⟩]

def createView (es : Entities) (temporary : Bool) : Parse Entities := do
  let mayExist ← ifNotExists
  let t ← target
  let names ← if ← atMark "(" then parens (list name) else pure []
  word "as"
  let size := (← get).length
  let q ← (← Grammar.whole).query
  let part ← newPart temporary t
  let free ← isFree es part t mayExist
  return if free then es ++ [⟨t.name, part, .view names q size⟩] else es

/-- Checks that an expression needs no more than the columns of a table. -/
def checkKey (name : String) (columns : List ColumnEntry) (e : Expr) : Except Fault Unit :=
  let scope : Scope := [[{ label := name, columns := columns.map (·.column) }]]
  (Resolution.checkExpr { entities := [] } 1000 scope false e).finish

def createIndex (es : Entities) : Parse Entities := do
  let mayExist ← ifNotExists
  let t ← target
  word "on"
  let table ← nameToken
  let r ← Grammar.whole
  let keys ← parens (list (Grammar.sortTerm r))
  if ← word? "where" then let _ ← r.expr 0
  let tableName := table.name?.getD ""
  let part ← newPart false t
  let home := if t.database.isNone && (es.findIn .temporary tableName).isSome then .temporary
    else part
  match es.find (some home) tableName with
  | none => deny (.noTable (home.word ++ "." ++ tableName))
  | some e =>
    match e.body with
    | .table columns =>
      if isInternal e.name then deny (.unindexable e.name)
      if isInternal t.name then deny (.reservedName t.name)
      if (es.findIn home t.name).isSome then deny (.takenByTable t.name)
      if (es.findIndex (some home) t.name).isSome then
        if mayExist then return es
        deny (.indexExists t.name)
      match (keys.map (·.1)).forM (checkKey e.name columns) with
      | .error f => deny f
      | .ok () => return es ++ [⟨t.name, home, .index e.name (keys.map (·.1))⟩]
    | _ => deny .indexedView

def lookup (es : Entities) (t : Target) : Option Entity :=
  match t.databaseName with
  | none => es.find none t.name
  | some d => (Part.ofName? d).bind fun part => es.find (some part) t.name

/-- What remains when a table or view goes, with the indexes that it has. -/
def remove (es : Entities) (gone : Entity) : Entities :=
  es.filter fun e =>
    !(e.part = gone.part && !e.isIndex && sameName e.name gone.name) &&
      !isIndexOf gone.part gone.name e

def ifExists : Parse Bool := do
  if ← word? "if" then
    word "exists"
    return true
  return false

def dropIndex (es : Entities) : Parse Entities := do
  let mayMiss ← ifExists
  let t ← target
  match es.findIndex (t.databaseName.bind Part.ofName?) t.name with
  | none => if mayMiss then return es else deny (.noIndex t.written)
  | some gone =>
    return es.filter fun e =>
      !(e.isIndex && e.part = gone.part && sameName e.name gone.name)

def drop (es : Entities) (view : Bool) : Parse Entities := do
  let mayMiss ← ifExists
  let t ← target
  match lookup es t with
  | none =>
    if mayMiss then return es
    deny (if view then .noView t.written else .noTable t.written)
  | some e =>
    if isInternal e.name then deny (.undroppable e.name)
    let isView := e.isView
    if isView && !view then deny (.wrongKind "VIEW" "view" e.name)
    if !isView && view then deny (.wrongKind "TABLE" "table" e.name)
    return remove es e

end Definition

end Winnow.Sql
