import Winnow.Sql.Entity
import Winnow.Sql.Function
import Winnow.Sql.Operation

namespace Winnow.Sql

/-- Where the tables of a statement are looked up. -/
structure Lookup where
  entities : Entities
  /-- The only part of the database whose tables are in sight. -/
  home : Option Part := none
  /-- Queries that have names within the statement. -/
  named : List (String × List Column) := []
  /-- The views that are being looked at. -/
  opened : List String := []

/-- A check that keeps the last fault that does not end it. -/
abbrev Check := StateT (Option Fault) (Except Fault)

namespace Check

def note (f : Fault) : Check Unit := set (some f)

def ofExcept {α : Type} : Except Fault α → Check α
  | .ok a => pure a
  | .error f => throw f

def finish (c : Check Unit) : Except Fault Unit :=
  match c none with
  | .ok (_, none) => .ok ()
  | .ok (_, some f) => .error f
  | .error f => .error f

end Check

namespace Resolution

/-- The part after a colon at the end of a name, if it is a number, left out. -/
def withoutNumber (cs : List Char) : List Char :=
  let back := cs.reverse
  match back.dropWhile Char.isDigit with
  | ':' :: rest => if rest.isEmpty then cs else rest.reverse
  | _ => cs

/-- A name that differs from those taken: a number behind a colon is counted up. -/
def freshName (taken : List String) (name : String) : Nat → Nat → String
  | 0, _ => name
  | fuel + 1, n =>
    if taken.any (sameName name) then
      let stem := String.ofList (withoutNumber name.toList)
      freshName taken (stem ++ ":" ++ toString n) fuel (n + 1)
    else name

/-- The names of some result columns, told apart; one without a name, or called `true` or `false`,
gets its number. -/
def distinctNames (taken : List String) : List (Option String × Affinity) → List Column
  | [] => []
  | (name, affinity) :: rest =>
    let numbered := "column" ++ toString (taken.length + 1)
    let given := match name with
      | some s => if ["true", "false"].contains (small s) then numbered else s
      | none => numbered
    let s := freshName taken given (taken.length + 1) 1
    { name := s, affinity } :: distinctNames (taken ++ [s]) rest

def bare : Nat → Expr → Expr
  | 0, e => e
  | _ + 1, .collate e _ => e
  | fuel + 1, .call f d s (e :: args) filter =>
    if ["likely", "unlikely", "likelihood"].contains (small f) then bare fuel e
    else .call f d s (e :: args) filter
  | _ + 1, e => e

def affinity (scope : Scope) : Expr → Affinity
  | .name path double =>
    match (scope.find path double).toOption.bind scope.column? with
    | some c => c.affinity
    | none => .none
  | .cast _ type => Affinity.ofType type
  | .collate (.name path double) _ => affinity scope (.name path double)
  | _ => .none

/-- The name of a result column. Where names are already looked up, a column has the name of its
definition, and elsewhere the name that is written. -/
def itemName (scope : Scope) (lookedUp : Bool) (e : Expr) (written : String) : String :=
  match bare 4 e with
  | .name path double =>
    if lookedUp then
      match (scope.find path double).toOption.bind scope.column? with
      | some c => c.name
      | none => written
    else path.getLast?.getD written
  | _ => written

def starColumns (s : Source) : List Column := s.columns.filter fun c => !s.isShared c.name

def itemColumns (scope : Scope) (lookedUp : Bool) :
    Item → Except Fault (List (Option String × Affinity))
  | .all =>
    match scope.head?.getD [] with
    | [] => .error .nothingToSelect
    | sources =>
      .ok ((sources.flatMap starColumns).map fun c => (some c.name, c.affinity))
  | .allOf table =>
    match (scope.head?.getD []).filter fun s => sameName s.label table with
    | [] => .error (.noTable table)
    | sources => .ok ((sources.flatMap (·.columns)).map fun c => (some c.name, c.affinity))
  | .expr e (some label) _ => .ok [(some label, affinity scope e)]
  | .expr e none written => .ok [(some (itemName scope lookedUp e written), affinity scope e)]

def allColumns (scope : Scope) (lookedUp : Bool) (items : List Item) :
    Except Fault (List Column) := do
  return distinctNames [] (← items.mapM (itemColumns scope lookedUp)).flatten

def sharedColumns (before : List Source) (natural : Bool) (given : List String) (s : Source) :
    Except Fault (List String) :=
  let isThere (column : String) : Bool := before.any fun b => (b.position? column).isSome
  if natural then .ok ((s.columns.map (·.name)).filter isThere)
  else match given.find? fun column => !(isThere column && (s.position? column).isSome) with
    | some column => .error (.noSharedColumn column)
    | none => .ok given

mutual

/-- Checks the names and functions of an expression. Aggregates are allowed outside others only. -/
def checkExpr (look : Lookup) : Nat → Scope → Bool → Expr → Check Unit
  | 0, _, _, _ => pure ()
  | fuel + 1, scope, aggregates, e =>
    let walk := checkExpr look fuel scope aggregates
    match e with
    | .literal _ | .whole _ | .blob _ | .parameter => pure ()
    | .name path double => do let _ ← Check.ofExcept (scope.find path double)
    | .unary _ e | .isNull e _ | .cast e _ => walk e
    | .collate e order => do
      walk e
      if (Collation.ofName? order).isNone then Check.note (.noCollation order)
    | .binary _ a b => do walk a; walk b
    | .between e low high _ => do walk e; walk low; walk high
    | .inList e es _ => do walk e; es.forM walk
    | .inQuery e q _ => do
      walk e
      let columns ← Check.ofExcept (queryColumns look fuel scope false q)
      if columns.length ≠ 1 then Check.note (.subqueryCount columns.length 1)
    | .cases base whens otherwise => do
      base.forM walk
      whens.forM fun p => do walk p.1; walk p.2
      otherwise.forM walk
    | .call f distinct _ args filter => do
      let inner ← match Signature.find f args.length with
        | .error fault => Check.note fault; pure aggregates
        | .ok s => do
          if Signature.isRanking f then
            Check.note (.misusedRanking f)
            pure aggregates
          else if s.aggregate then
            if !aggregates then Check.note (.misusedAggregate f)
            else if distinct && args.length ≠ 1 then Check.note .distinctCount
            pure false
          else
            if filter.isSome then Check.note (.filterOutsideAggregate f)
            pure aggregates
      args.forM (checkExpr look fuel scope inner)
      filter.forM (checkExpr look fuel scope inner)
    | .over f distinct args filter parts orders => do
      match Signature.find f args.length with
      | .error fault => Check.note fault
      | .ok s =>
        if !s.aggregate && !Signature.isRanking f then Check.note (.noRanking f)
        else if !aggregates then Check.note (.misusedRanking f)
        else if distinct then Check.note .distinctRanking
      args.forM walk
      filter.forM walk
      parts.forM walk
      orders.forM fun p => walk p.1
    | .exist q => do let _ ← Check.ofExcept (queryColumns look fuel scope false q)
    | .scalar q => do
      let columns ← Check.ofExcept (queryColumns look fuel scope false q)
      if columns.length ≠ 1 then Check.note (.subqueryCount columns.length 1)
    | .row es => do es.forM walk; Check.note .misusedRow

/-- The columns of a query's result, if all names in it are known. -/
def queryColumns (look : Lookup) : Nat → Scope → Bool → Query → Except Fault (List Column)
  | 0, _, _, _ => .ok []
  | fuel + 1, outer, lookedUp, q =>
    match q with
    | .select _ items source test groups groupTest => do
      let (sources, tests) ← termSources look fuel outer [] source
      let scope := sources :: outer
      let columns ← allColumns scope lookedUp items
      let check (aggregates : Bool) (e : Expr) : Except Fault Unit :=
        (checkExpr look fuel scope aggregates e).finish
      items.forM fun item =>
        match item with
        | .expr e _ _ => check true e
        | _ => .ok ()
      test.forM (check false)
      tests.forM (check false)
      groups.forM (check false)
      groupTest.forM (check true)
      return columns
    | .rows all => do
      let width := (all.head?.map List.length).getD 0
      if all.any (·.length ≠ width) then throw .unevenRows
      all.forM fun row => row.forM fun e => (checkExpr look fuel ([] :: outer) false e).finish
      return distinctNames [] ((all.head?.getD []).map fun _ => (none, .none))
    | .compound o left right => do
      let columns ← queryColumns look fuel outer lookedUp left
      let others ← queryColumns look fuel outer lookedUp right
      if columns.length ≠ others.length then throw (.setCount o.word)
      return columns
    | .arranged q _ _ _ => queryColumns look fuel outer lookedUp q
    | .scoped named q => do
      let look ← withNamed look fuel outer named
      queryColumns look fuel outer lookedUp q

def withNamed (look : Lookup) : Nat → Scope → List (String × List String × Query) →
    Except Fault Lookup
  | 0, _, _ => .ok look
  | _ + 1, _, [] => .ok look
  | fuel + 1, outer, (name, names, q) :: rest => do
    let columns ← firstColumns look fuel outer q
    let columns :=
      if names.isEmpty then columns
      else distinctNames [] (names.map fun s => (some s, .none))
    withNamed { look with named := (name, columns) :: look.named } fuel outer rest

def firstColumns (look : Lookup) : Nat → Scope → Query → Except Fault (List Column)
  | 0, _, _ => .ok []
  | fuel + 1, outer, q =>
    match q with
    | .compound _ left _ => firstColumns look fuel outer left
    | .arranged q _ _ _ => firstColumns look fuel outer q
    | q => queryColumns look fuel outer false q

/-- The sources of the terms of a query, after those found, and the conditions of its joins. -/
def termSources (look : Lookup) : Nat → Scope → List Source → List Term →
    Except Fault (List Source × List Expr)
  | 0, _, found, _ => .ok (found, [])
  | _ + 1, _, found, [] => .ok (found, [])
  | fuel + 1, outer, found, .mk form source label test shared :: rest => do
    let (added, inner) ← operandSources look fuel outer label source
    let added ← added.mapM fun s => do
      return { s with shared := s.shared ++ (← sharedColumns found form.natural shared s) }
    let (sources, tests) ← termSources look fuel outer (found ++ added) rest
    return (sources, inner ++ test.toList ++ tests)

def operandSources (look : Lookup) : Nat → Scope → Option String → Operand →
    Except Fault (List Source × List Expr)
  | 0, _, _, _ => .ok ([], [])
  | fuel + 1, outer, label, operand =>
    match operand with
    | .table database name => do
      return ([{ (← tableSource look fuel database name) with label := label.getD name }], [])
    | .query q => do
      let columns ← queryColumns look fuel (outer.drop outer.length) false q
      return ([{ label := label.getD "", columns, numbered := false }], [])
    | .group terms => termSources look fuel outer [] terms

def tableSource (look : Lookup) : Nat → Option String → String → Except Fault Source
  | 0, _, name => .error (.circularView name)
  | fuel + 1, database, name =>
    match database, look.named.find? fun p => sameName p.1 name with
    | none, some (label, columns) => .ok { label, columns, numbered := false }
    | _, _ =>
      let part := (database.bind Part.ofName?).or look.home
      let isUnknown := database.isSome && (database.bind Part.ofName?).isNone
      let written := match database, look.home with
        | some d, _ => d ++ "." ++ name
        | none, some home => home.word ++ "." ++ name
        | none, none => name
      match if isUnknown then none else look.entities.find part name with
      | none => .error (.noTable written)
      | some e =>
        match e.body with
        | .table columns => .ok { label := e.name, columns := columns.map (·.column) }
        | .index .. => .error (.noTable written)
        | .view names q _ => do
          if look.opened.any (sameName e.name) then throw (.circularView e.name)
          let inner : Lookup :=
            { look with
              named := [], opened := e.name :: look.opened,
              home := if e.part = .main then some .main else none }
          let columns ← queryColumns inner fuel [] true q
          if !names.isEmpty && names.length ≠ columns.length then
            throw (.columnCount e.name names.length columns.length)
          let columns :=
            if names.isEmpty then columns
            else distinctNames [] (names.map fun s => (some s, .none))
          return { label := e.name, columns, numbered := false }

end

/-- Enough steps for a statement of that many tokens and the views that it may look into. -/
def steps (es : Entities) (tokens : Nat) : Nat := 8 * (tokens + es.size + 2)

def columnsOf (es : Entities) (part : Part) (name : String) :
    Except Fault (Option (List String)) :=
  match es.find part name with
  | none => .ok none
  | some _ => do
    let s ← tableSource { entities := es } (steps es 1) part.word name
    return some (s.columns.map (·.name))

end Resolution

end Winnow.Sql
