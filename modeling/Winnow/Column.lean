import Winnow.Relation.Book

namespace Winnow

/-- The column of the database behind a reference. -/
structure FoundColumn where
  column : String
  source : Origin
  relation : Option String := none
  deriving DecidableEq, Repr

def Relation.offered (use : Use) (rel : Relation) : List String :=
  match use with
  | .filter => rel.filterable
  | .sort => rel.sortable

namespace RelationBook

/-- A column with its table; one without a dot belongs to the base table. -/
def qualify (book : RelationBook) (column : String) : String :=
  if column.toList.contains '.' then column else book.base ++ "." ++ column

/-- The column behind a field of a route with its aliases; a route without a hop has none. -/
def fieldOf (relation field : String) (aliases : AliasMap) (route : Route) :
    Option FoundColumn :=
  route.target.map fun table =>
    match aliases.lookup field with
    | some source => ⟨source, .aliased, some relation⟩
    | none => ⟨table ++ "." ++ field, .relation, some relation⟩

def field (book : RelationBook) (relation field : String) (m : Memory) :
    Found (Option FoundColumn) :=
  let found := book.consultName (.text relation) m
  if found.answer.value.hops.isEmpty then ⟨none, found.memory, found.notes⟩
  else
    let names := book.consultAliasesOfName (.text relation) found.memory
    ⟨fieldOf relation field names.answer.value found.answer.value, names.memory,
      found.notes ++ names.notes⟩

/-- The relation and the field of a reference, if the relation offers the field. -/
def offeredField? (book : RelationBook) (use : Use) (column : String) : Option (String × String) :=
  match halves '.' column with
  | none => none
  | some (relation, field) =>
    match book.relation? (.text relation) with
    | none => none
    | some rel => if field ∈ rel.offered use then some (relation, field) else none

/-- The column behind a client's reference, if the client may use it. -/
def column (book : RelationBook) (use : Use) (allowed : List String) (column : String)
    (m : Memory) : Found (Option FoundColumn) :=
  if column ∈ allowed then ⟨some ⟨book.qualify column, .direct, none⟩, m, []⟩
  else
    match book.offeredField? use column with
    | none => ⟨none, m, []⟩
    | some (relation, field) => book.field relation field m

end RelationBook

end Winnow
