import Winnow.Relation.Route

namespace Winnow

structure RelationBook where
  base : String
  relations : List (String × Relation) := []
  deriving Repr

/-- A value with the stamp of the moment it was made; equal stamps mean one and the same object. -/
structure Kept (α : Type) where
  value : α
  stamp : Nat
  deriving Repr

structure Memory where
  routes : List (String × Kept Route) := []
  aliases : List (RelationName × Kept AliasMap) := []
  next : Nat := 0
  deriving Repr

namespace Memory

def clear (m : Memory) : Memory := { m with routes := [], aliases := [] }

end Memory

/-- An answer of the book, the memory after it and the notes taken. -/
structure Found (α : Type) where
  answer : α
  memory : Memory
  notes : List Note := []
  deriving Repr

namespace RelationBook

def inlineName : Value := .text "<inline>"

def relation? (book : RelationBook) : RelationName → Option Relation
  | .text s => book.relations.lookup s
  | _ => none

def relationOf? (book : RelationBook) : RelationRef → Option Relation
  | .named name => book.relation? name
  | .inline rel => some rel
  | .unnameable _ => none

def route (book : RelationBook) : RelationRef → Route
  | .inline rel => Route.ofRelation book.base inlineName rel
  | .named name =>
    match book.relation? name with
    | some rel => Route.ofRelation book.base name.value rel
    | none => ⟨name.value, [], .inner⟩
  | .unnameable _ => ⟨.null, [], .inner⟩

def aliasMap (book : RelationBook) (ref : RelationRef) : AliasMap :=
  match book.relationOf? ref with
  | some rel => AliasMap.ofEntries rel.entries
  | none => []

def fresh {α : Type} (value : α) (m : Memory) (notes : List Note) : Found (Kept α) :=
  ⟨⟨value, m.next⟩, { m with next := m.next + 1 }, notes⟩

/-- Resolves a name. Only the routes of registered names are kept. -/
def consultName (book : RelationBook) (name : RelationName) (m : Memory) : Found (Kept Route) :=
  match name with
  | .text s =>
    match m.routes.lookup s with
    | some kept => ⟨kept, m, []⟩
    | none =>
      match book.relations.lookup s with
      | none => fresh (book.route (.named name)) m [.unknownRelation name.value]
      | some rel =>
        let kept : Kept Route := ⟨book.route (.named name), m.next⟩
        ⟨kept, { m with routes := (s, kept) :: m.routes, next := m.next + 1 },
          Route.notes name.value rel⟩
  | _ => fresh (book.route (.named name)) m [.unknownRelation name.value]

/-- The aliases of a name. Those of every name are kept, registered or not. -/
def consultAliasesOfName (book : RelationBook) (name : RelationName) (m : Memory) :
    Found (Kept AliasMap) :=
  match m.aliases.lookup name with
  | some kept => ⟨kept, m, []⟩
  | none =>
    let kept : Kept AliasMap := ⟨book.aliasMap (.named name), m.next⟩
    ⟨kept, { m with aliases := (name, kept) :: m.aliases, next := m.next + 1 }, []⟩

/-- Resolves a reference; a relation given on the spot is worked out every time. -/
def consult (book : RelationBook) (ref : RelationRef) (m : Memory) :
    Except Failure (Found (Kept Route)) :=
  match ref with
  | .unnameable kind => .error (.unnameable kind)
  | .inline rel => .ok (fresh (book.route ref) m (Route.notes inlineName rel))
  | .named name => .ok (book.consultName name m)

def consultAliases (book : RelationBook) (ref : RelationRef) (m : Memory) :
    Except Failure (Found (Kept AliasMap)) :=
  match ref with
  | .unnameable kind => .error (.unnameable kind)
  | .inline _ => .ok (fresh (book.aliasMap ref) m [])
  | .named name => .ok (book.consultAliasesOfName name m)

end RelationBook

end Winnow
