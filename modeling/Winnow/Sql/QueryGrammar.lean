import Winnow.Sql.Grammar

namespace Winnow.Sql

namespace Grammar

open Parse

def item (r : Nested) : Parse Item := do
  if ← mark? "*" then return .all
  match ← get with
  | ⟨_, t⟩ :: ⟨_, .mark "."⟩ :: ⟨_, .mark "*"⟩ :: rest =>
    match t.name? with
    | some s => set rest; return .allOf s
    | none => refuse
  | _ =>
    let (e, text) ← written (r.expr 0)
    return .expr e (← alias?) text

def joinForm? : Parse (Option JoinForm) := do
  if ← mark? "," then return some {}
  let words ← all (oneOf? joinWords)
  if words.isEmpty then
    if ← word? "join" then return some {} else return none
  word "join"
  return some { keepsLeft := words.contains "left" || words.contains "full"
                keepsRight := words.contains "right" || words.contains "full"
                natural := words.contains "natural" }

/-- The condition of a join, or the columns that both sides share. -/
def joinTest (r : Nested) : Parse (Option Expr × List String) := do
  if ← word? "on" then return (some (← r.expr 0), [])
  if ← word? "using" then return (none, ← parens (list name))
  return (none, [])

def operand (r : Nested) (terms : Parse (List Term)) : Parse Operand := do
  if ← atMark "(" then
    parens do
      if ← atQuery then return .query (← r.query)
      return .group (← terms)
  else
    let first ← name
    if ← mark? "." then return .table (some first) (← name)
    return .table none first

def term (r : Nested) (terms : Parse (List Term)) (form : JoinForm) : Parse Term := do
  let source ← operand r terms
  let label ← alias?
  if ← word? "indexed" then
    word "by"
    let _ ← name
  else if (← atWord "not") then words ["not", "indexed"]
  let (test, shared) ← joinTest r
  return .mk form source label test shared

def terms (r : Nested) : Nat → Parse (List Term)
  | 0 => refuse
  | fuel + 1 => do
    let inner := terms r fuel
    let first ← term r inner {}
    let others ← all do
      match ← joinForm? with
      | some form => return some (← term r inner form)
      | none => return none
    return first :: others

def select (r : Nested) : Parse Query := do
  let distinct ← word? "distinct"
  if !distinct then let _ ← word? "all"
  let items ← list (item r)
  let source ← if ← word? "from" then terms r ((← get).length + 1) else pure []
  let test ← if ← word? "where" then some <$> r.expr 0 else pure none
  let groups ← if ← word? "group" then do word "by"; list (r.expr 0) else pure []
  let groupTest ← if ← word? "having" then some <$> r.expr 0 else pure none
  return .select distinct items source test groups groupTest

def simpleQuery (r : Nested) : Parse Query := do
  if ← word? "select" then select r
  else if ← word? "values" then return .rows (← list (parens (list (r.expr 0))))
  else refuse

def setOperator? : Parse (Option SetOperator) := do
  if ← word? "union" then
    if ← word? "all" then return some .unionAll else return some .union
  if ← word? "intersect" then return some .intersect
  if ← word? "except" then return some .except
  return none

/-- The queries that a query is united with or compared to, at most as many as there are tokens. -/
def compound (r : Nested) : Nat → Query → Parse Query
  | 0, q => return q
  | fuel + 1, q => do
    match ← setOperator? with
    | some o => compound r fuel (.compound o q (← simpleQuery r))
    | none => return q

def arranged (r : Nested) (q : Query) : Parse Query := do
  let orders ← if ← word? "order" then do word "by"; list (sortTerm r) else pure []
  let (limit, offset) : Option Expr × Option Expr ←
    if ← word? "limit" then do
      let first ← r.expr 0
      if ← word? "offset" then pure (some first, some (← r.expr 0))
      else if ← mark? "," then pure (some (← r.expr 0), some first)
      else pure (some first, none)
    else pure (none, none)
  if orders.isEmpty && limit.isNone then return q
  return .arranged q orders limit offset

def namedQuery (r : Nested) : Parse (String × List String × Query) := do
  let s ← name
  let columns ← if ← atMark "(" then parens (list name) else pure []
  word "as"
  if ← word? "not" then word "materialized" else let _ ← word? "materialized"
  return (s, columns, ← parens r.query)

def query (r : Nested) : Parse Query := do
  if ← word? "with" then
    let _ ← word? "recursive"
    let named ← list (namedQuery r)
    return .scoped named (← body)
  body
where
  body : Parse Query := do
    let first ← simpleQuery r
    let q ← compound r ((← get).length + 1) first
    arranged r q

def nested : Nat → Nested
  | 0 => ⟨fun _ => refuse, refuse⟩
  | depth + 1 => ⟨expr (nested depth), query (nested depth)⟩

/-- The readers for what is left of a statement: nesting takes a token at least. -/
def whole : Parse Nested := return nested ((← get).length + 1)

end Grammar

end Winnow.Sql
