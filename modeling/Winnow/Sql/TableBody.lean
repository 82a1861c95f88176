import Winnow.Sql.Entity
import Winnow.Sql.QueryGrammar

namespace Winnow.Sql

structure TableBody where
  name : String
  columns : List ColumnEntry := []
  /-- Whether a key was stated. -/
  keyed : Bool := false
  /-- Whether the numbers of rows are counted up for ever. -/
  counted : Bool := false
  /-- A body that is only read has no faults of meaning. -/
  idle : Bool := false

namespace TableBody

open Parse

def changeLast (change : ColumnEntry → ColumnEntry) (b : TableBody) : TableBody :=
  { b with columns := b.columns.dropLast ++ b.columns.getLast?.toList.map change }

def addColumn (b : TableBody) (name type : String) : Parse TableBody := do
  if b.idle then return b
  if b.columns.any fun c => sameName c.name name then deny (.duplicateColumn name)
  return { b with columns := b.columns ++ [{ name, type }] }

/-- Makes columns the key. One column of whole numbers alone becomes the number of the row, unless
it is stated with the word `DESC` behind it. -/
def addKey (b : TableBody) (names : List String) (descending counted : Bool) :
    Parse TableBody := do
  if b.idle then return b
  if b.keyed then deny (.manyKeys b.name)
  let isNamed (c : ColumnEntry) : Bool := names.any (sameName c.name)
  let isNumber := names.length = 1 && !descending &&
    b.columns.any fun c => isNamed c && small c.type = "integer"
  if counted && !isNumber then deny .misusedCounter
  match names.find? fun s => !b.columns.any fun c => sameName c.name s with
  | some s => deny (.noColumn s)
  | none =>
    return { b with
      counted
      keyed := true
      columns := b.columns.map fun c =>
        if isNamed c then { c with inKey := true, isRowKey := isNumber } else c }

def conflict : Parse Unit := do
  if ← word? "on" then
    word "conflict"
    if (← oneOf? ["rollback", "abort", "fail", "ignore", "replace"]).isNone then refuse

def deferral : Parse Unit := do
  if ← word? "initially" then
    if (← oneOf? ["deferred", "immediate"]).isNone then refuse

def reaction? : Parse (Option Unit) := do
  if ← word? "match" then
    let _ ← Parse.name
    return some ()
  if ← word? "on" then
    if (← oneOf? ["insert", "delete", "update"]).isNone then refuse
    if ← word? "set" then
      if (← oneOf? ["null", "default"]).isNone then refuse
    else if ← word? "no" then word "action"
    else if (← oneOf? ["cascade", "restrict"]).isNone then refuse
    return some ()
  return none

def reference : Parse Unit := do
  let _ ← Parse.name
  if ← atMark "(" then let _ ← parens (list Parse.name)
  let _ ← all reaction?

def constant : Parse Unit := do
  match ← peek with
  | some (.number _) | some (.text ..) | some (.blob _) => skip
  | some (.word _) =>
    if !(← word? "null") then
      let _ ← nameAs Token.identifier?
  | some (.quotedName ..) => skip
  | _ => refuse

def standard (r : Nested) : Parse Unit := do
  if ← atMark "(" then
    let _ ← parens (r.expr 0)
  else
    if !(← mark? "-") then let _ ← mark? "+"
    constant

def computed (r : Nested) : Parse Unit := do
  let _ ← parens (r.expr 0)
  let _ ← oneOf? ["stored", "virtual"]

def columnRule? (r : Nested) (b : TableBody) : Parse (Option TableBody) := do
  if ← word? "constraint" then let _ ← Parse.name; return some b
  if ← word? "default" then standard r; return some b
  if ← word? "null" then conflict; return some b
  if ← word? "not" then
    if ← word? "deferrable" then deferral else word "null"; conflict
    return some b
  if ← word? "primary" then
    word "key"
    let direction ← oneOf? ["asc", "desc"]
    conflict
    let counted ← word? "autoincrement"
    return some (← b.addKey (b.columns.getLast?.toList.map (·.name)) (direction = some "desc")
      counted)
  if ← word? "unique" then
    conflict
    return some (b.changeLast fun c => { c with unique := true })
  if ← word? "check" then let _ ← parens (r.expr 0); return some b
  if ← word? "references" then reference; return some b
  if ← word? "deferrable" then deferral; return some b
  if ← word? "collate" then let _ ← Parse.name; return some b
  if ← word? "generated" then word "always"; word "as"; computed r; return some b
  if ← word? "as" then computed r; return some b
  return none

/-- All demands on the last column, at most as many as there are tokens. -/
def columnRules (r : Nested) : Nat → TableBody → Parse TableBody
  | 0, b => return b
  | fuel + 1, b => do
    match ← columnRule? r b with
    | some b => columnRules r fuel b
    | none => return b

def column (r : Nested) (b : TableBody) : Parse TableBody := do
  let s ← Parse.name
  let (_, type) ← written Grammar.typeName
  let b ← b.addColumn s type
  columnRules r ((← get).length + 1) b

def keyTerm (r : Nested) : Parse (Option String) := do
  match ← Grammar.sortTerm r with
  | (.name [s] _, _) | (.collate (.name [s] _) _, _) => return some s
  | _ => return none

def tableRule? (r : Nested) (b : TableBody) : Parse (Option TableBody) := do
  if ← word? "constraint" then let _ ← Parse.name; return some b
  if ← word? "primary" then
    word "key"
    mark "("
    let names ← list (keyTerm r)
    let counted ← word? "autoincrement"
    mark ")"
    conflict
    return some (← b.addKey (names.filterMap id) false counted)
  if ← word? "unique" then
    let names ← parens (list (keyTerm r))
    conflict
    match (names.filterMap id).find? fun s => !b.columns.any fun c => sameName c.name s with
    | some s => if b.idle then return some b else deny (.noColumn s)
    | none => return some b
  if ← word? "check" then
    let _ ← parens (r.expr 0)
    conflict
    return some b
  if ← word? "foreign" then
    word "key"
    let _ ← parens (list Parse.name)
    word "references"
    reference
    if ← word? "not" then word "deferrable"; deferral
    else if ← word? "deferrable" then deferral
    return some b
  return none

/-- All demands of the table, with commas between them or without. -/
def tableRules (r : Nested) : Nat → TableBody → Parse TableBody
  | 0, b => return b
  | fuel + 1, b => do
    let more ← mark? ","
    match ← tableRule? r b with
    | some b => tableRules r fuel b
    | none => if more then refuse else return b

def ruleWords : List String := ["constraint", "primary", "unique", "check", "foreign"]

def columnsAndRules (r : Nested) : Nat → TableBody → Parse TableBody
  | 0, _ => refuse
  | fuel + 1, b => do
    let b ← column r b
    if (← atMark ",") && !(← peekSecond).any fun t => ruleWords.any t.isWord then
      skip
      columnsAndRules r fuel b
    else if ← atMark "," then tableRules r ((← get).length + 1) b
    else return b

/-- The options behind a body, between commas: whether rows have no numbers. -/
def options : Nat → Parse Bool
  | 0 => return false
  | fuel + 1 => do
    let first ← if ← word? "without" then do
        let s ← Parse.name
        if small s = "rowid" then pure true else deny (.unknownOption s)
      else match (← peek).bind Token.name? with
        | some s => do
          skip
          if small s = "strict" then pure false else deny (.unknownOption s)
        | none => return false
    if ← mark? "," then return (← options fuel) || first
    return first

def read (b : TableBody) : Parse TableBody := do
  let r ← Grammar.whole
  mark "("
  let b ← columnsAndRules r ((← get).length + 1) b
  mark ")"
  let unnumbered ← options ((← get).length + 1)
  if !unnumbered then return b
  if !b.idle && !b.keyed then deny (.noKey b.name)
  return { b with columns := b.columns.map fun c => { c with isRowKey := false } }

end TableBody

end Winnow.Sql
