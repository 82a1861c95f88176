import Winnow.Sql.Fault
import Winnow.Sql.Keyword

namespace Winnow.Sql

abbrev Parse := StateT (List Lexeme) (Except Fault)

namespace Parse

def fault {α : Type} (f : Fault) : Parse α := throw f

def peek : Parse (Option Token) := return (← get).head?.map (·.token)

def peekSecond : Parse (Option Token) := return ((← get).drop 1).head?.map (·.token)

def skip : Parse Unit := modify (List.drop 1)

def refuse {α : Type} : Parse α := do
  match ← peek with
  | none => fault .incomplete
  | some (.bad raw) => fault (.badToken raw)
  | some t => fault (.syntaxNear t.raw)

/-- Refuses what is meant, once the next token is known to be one. -/
def deny {α : Type} (f : Fault) : Parse α := do
  match ← peek with
  | some (.bad _) => refuse
  | _ => fault f

def atWord (keyword : String) : Parse Bool := return (← peek).any (·.isWord keyword)

def atMark (mark : String) : Parse Bool := return (← peek).any (· = .mark mark)

def word? (keyword : String) : Parse Bool := do
  if ← atWord keyword then skip; return true else return false

def mark? (mark : String) : Parse Bool := do
  if ← atMark mark then skip; return true else return false

def word (keyword : String) : Parse Unit := do
  if !(← word? keyword) then refuse

def mark (m : String) : Parse Unit := do
  if !(← mark? m) then refuse

def words : List String → Parse Unit
  | [] => pure ()
  | keyword :: rest => do word keyword; words rest

def oneOf? : List String → Parse (Option String)
  | [] => return none
  | keyword :: rest => do
    if ← word? keyword then return some keyword else oneOf? rest

def nameAs (read : Token → Option String) : Parse String := do
  match (← peek).bind read with
  | some s => skip; return s
  | none => refuse

def name : Parse String := nameAs Token.name?

def alias? : Parse (Option String) := do
  if ← word? "as" then return some (← name)
  match (← peek).bind Token.bareAlias? with
  | some s => skip; return some s
  | none => return none

def separated {α : Type} (item : Parse α) : Nat → Parse (List α)
  | 0 => refuse
  | fuel + 1 => do
    let a ← item
    if ← mark? "," then return a :: (← separated item fuel) else return [a]

def list {α : Type} (item : Parse α) : Parse (List α) := do
  separated item ((← get).length + 1)

def nameToken : Parse Token := do
  match ← peek with
  | some t => if t.name?.isSome then do skip; return t else refuse
  | none => refuse

def parens {α : Type} (inner : Parse α) : Parse α := do
  mark "("
  let a ← inner
  mark ")"
  return a

/-- Runs a step as long as it finds something, at most as often as there are tokens. -/
def many {α : Type} (item : Parse (Option α)) : Nat → Parse (List α)
  | 0 => return []
  | fuel + 1 => do
    match ← item with
    | some a => return a :: (← many item fuel)
    | none => return []

def all {α : Type} (item : Parse (Option α)) : Parse (List α) := do
  many item ((← get).length + 1)

def written {α : Type} (item : Parse α) : Parse (α × String) := do
  let before ← get
  let a ← item
  let after ← get
  let next := (after.head?.map (·.space)).getD []
  return (a, spanText (before.take (before.length - after.length)) next)

end Parse

end Winnow.Sql
