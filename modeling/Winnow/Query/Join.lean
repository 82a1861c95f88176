import Winnow.Query.Desk

namespace Winnow.Desk

variable {Q : Type} [QueryTarget Q]

def route (cat : Catalog) (ref : RelationRef) : Build Q Route := fun d =>
  match cat.book.consult ref d.memory with
  | .error e => .error e d
  | .ok found => .ok found.answer.value
      { d with memory := found.memory, notes := d.notes ++ found.notes }

/-- Whether nothing is left to do for a route with these select entries. -/
def isSettled (j : Joins) (route : Route) (entries : List String) : Bool :=
  !j.selected.isEmpty && route.hops.all (·.toTable ∈ j.joined) && entries.all (· ∈ j.selected)

def addEntries (entries : List String) (j : Joins) : Joins :=
  entries.foldl (fun j entry => (j.addEntry entry).2) j

/-- Adds the visible columns, if nothing is selected yet, and the entries of a relation. -/
def selectEntries (cat : Catalog) (entries : List String) : Build Q Unit := do
  let d ← get
  if d.session.joins.selected.isEmpty then
    set { d with defaultReads := d.defaultReads + 1 }
    setJoins (addEntries cat.visible d.session.joins)
  setJoins (addEntries entries (← joins))
  let selected := (← joins).selected
  if !selected.isEmpty then issue (.select selected)

def guard (cat : Catalog) (table : String) : Build Q Unit := do
  if table ∉ (← joins).guarded then
    enter
    issue (.filterNull (table ++ "." ++ cat.softDeleteColumn))
    setJoins ((← joins).addGuard table)

def guardAll (cat : Catalog) : List String → Build Q Unit
  | [] => pure ()
  | table :: tables => do guard cat table; guardAll cat tables

/-- The tables that a hop brings under guard. The table that a route starts from is the base table,
which has a scope of its own. -/
def guardedBy (rel : Relation) (first : Bool) (hop : Hop) : List String :=
  (if first then [hop.toTable] else [hop.fromTable, hop.toTable]).filter
    (· ∈ rel.softDelete)

def joinHop (cat : Catalog) (rel : Relation) (joinKind : JoinKind) (first : Bool)
    (hop : Hop) : Build Q Unit := do
  if hop.toTable ∉ (← joins).joined then
    issue (.join hop.toTable hop.fromColumn "=" hop.toColumn (.ok joinKind))
    setJoins ((← joins).addTable hop.toTable)
    note (.joined hop.toTable hop.fromColumn hop.toColumn joinKind)
    guardAll cat (guardedBy rel first hop)

def joinHops (cat : Catalog) (rel : Relation) (joinKind : JoinKind) (first : Bool) :
    List Hop → Build Q Unit
  | [] => pure ()
  | hop :: hops => do
    joinHop cat rel joinKind first hop
    joinHops cat rel joinKind false hops

def applyRelation (cat : Catalog) (ref : RelationRef) : Build Q Route := do
  let r ← route cat ref
  match cat.book.relationOf? ref with
  | none => return r
  | some rel =>
    let entries := rel.entries.map normalizeEntry
    if r.hops.isEmpty || isSettled (← joins) r entries then return r
    enter
    selectEntries cat entries
    joinHops cat rel r.joinKind true r.hops
    return r

def join (cat : Catalog) (ref : RelationRef) : Build Q Unit := do
  let _ ← applyRelation cat ref

/-- Joins several relations in order; what is neither a text nor a relation is passed over. -/
def joinAll (cat : Catalog) : List RelationRef → Build Q Unit
  | [] => pure ()
  | ref :: refs => do
    match ref with
    | .named (.text _) | .inline _ => join cat ref
    | _ => pure ()
    joinAll cat refs

end Winnow.Desk
