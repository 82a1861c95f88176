import Winnow.Proofs.BookMemory
import Winnow.Proofs.RelationSelection
import Winnow.Proofs.FailingSteps
import Winnow.Query.ClientText

open Relation (ReflTransGen)

namespace Winnow

/-- The column behind a client's reference. -/
def Catalog.columnOf? (cat : Catalog) (use : Use) (given : String) : Option FoundColumn :=
  cat.book.columnOf? use (cat.allowed use) given

/-- The call that leaves out the trashed rows of a table. -/
def Catalog.guardCall (cat : Catalog) (table : String) : Call :=
  .filterNull (table ++ "." ++ cat.softDeleteColumn)

/-- The first hop whose table is missing. -/
def firstMissing (joined : List String) (hops : List Hop) : Option Hop :=
  hops.find? (·.toTable ∉ joined)

/-- The call that joins the table of a hop. -/
def Hop.call (joinKind : JoinKind) (hop : Hop) : Call :=
  .join hop.toTable hop.fromColumn "=" hop.toColumn (.ok joinKind)

namespace Desk

variable {Q : Type}

def withQuery (d : Desk Q) (q : Q) : Desk Q := { d with session := { d.session with query := q } }

def withJoins (d : Desk Q) (j : Joins) : Desk Q :=
  { d with session := { d.session with joins := j } }

def entered (d : Desk Q) : Desk Q := { d with session := { d.session with phase := .building } }

variable [QueryTarget Q]

/-- A call to the query of a building session. Where the query takes it, the joins change by `f`.
-/
inductive Sends (c : Call) (f : Joins → Joins) (d : Desk Q) : Desk Q → Prop
  | taken {q : Q} : d.session.phase = .building → QueryTarget.call c d.session.query = .ok () q →
      Sends c f d ((d.withQuery q).withJoins (f d.session.joins))
  | refused {e : Failure} {q : Q} : d.session.phase = .building →
      QueryTarget.call c d.session.query = .error e q → Sends c f d (d.withQuery q)

/-- What may be done for a relation with these hops: its columns are selected, the first hop whose
table is missing is joined, and a table of a hop up to which all are joined is put under guard. -/
inductive JoinMove (cat : Catalog) (rel : Relation) (hops : List Hop) : Desk Q → Desk Q → Prop
  | select {d d' : Desk Q} {j : Joins} :
      j = chosen cat (rel.entries.map normalizeEntry) d.session.joins → j.selected ≠ [] →
      Sends (.select j.selected) id (d.withJoins j) d' → JoinMove cat rel hops d d'
  | join {d d' : Desk Q} {hop : Hop} : firstMissing d.session.joins.joined hops = some hop →
      Sends (hop.call rel.joinKind) (·.addTable hop.toTable) d d' → JoinMove cat rel hops d d'
  | guard {d d' : Desk Q} {before rest : List Hop} {hop : Hop} {table : String} :
      hops = before ++ hop :: rest →
      hop.toTable :: before.map (·.toTable) ⊆ d.session.joins.joined →
      table ∈ rel.softDelete → (table = hop.toTable ∨ before ≠ [] ∧ table = hop.fromTable) →
      table ∉ d.session.joins.guarded →
      Sends (cat.guardCall table) (·.addGuard table) d d' → JoinMove cat rel hops d d'

/-- What an operation asks for: relations to be joined, and calls that test or order the rows,
given what is joined when they are sent. -/
structure Asks where
  relation : RelationRef → Prop
  call : Joins → Call → Prop

inductive Move (cat : Catalog) (asks : Asks) : Desk Q → Desk Q → Prop
  /-- Only the memory or the notes change. -/
  | aside {d d' : Desk Q} : d'.session = d.session →
      (cat.book.Reaches d.memory → cat.book.Reaches d'.memory) → Move cat asks d d'
  | enter {d : Desk Q} : d.session.isOpen → Move cat asks d d.entered
  | call {d d' : Desk Q} {c : Call} : asks.call d.session.joins c → Sends c id d d' →
      Move cat asks d d'
  | relation {d d' : Desk Q} {ref : RelationRef} {rel : Relation} : asks.relation ref →
      cat.book.relationOf? ref = some rel → JoinMove cat rel (cat.book.route ref).hops d d' →
      Move cat asks d d'

theorem Sends.memory {c : Call} {f : Joins → Joins} {d d' : Desk Q} (h : Sends c f d d') :
    d'.memory = d.memory := by
  cases h with
  | taken => rfl
  | refused => rfl

theorem Sends.building {c : Call} {f : Joins → Joins} {d d' : Desk Q} (h : Sends c f d d') :
    d.session.phase = .building ∧ d'.session.phase = .building := by
  cases h with
  | taken hp => exact ⟨hp, hp⟩
  | refused hp => exact ⟨hp, hp⟩

theorem JoinMove.memory {cat : Catalog} {rel : Relation} {hops : List Hop} {d d' : Desk Q}
    (h : JoinMove cat rel hops d d') : d'.memory = d.memory := by
  cases h with
  | select _ _ hs => exact hs.memory
  | join _ hs => exact hs.memory
  | guard _ _ _ _ _ hs => exact hs.memory

theorem Move.reaches {cat : Catalog} {asks : Asks} {d d' : Desk Q} (h : Move cat asks d d')
    (hm : cat.book.Reaches d.memory) : cat.book.Reaches d'.memory := by
  cases h with
  | aside _ hk => exact hk hm
  | enter => exact hm
  | call _ hs =>
    rw [hs.memory]
    exact hm
  | relation _ _ hj =>
    rw [hj.memory]
    exact hm

/-- What one asks for is among what the other does. -/
structure Asks.Within (asks more : Asks) : Prop where
  relation : ∀ ref, asks.relation ref → more.relation ref
  call : ∀ j c, asks.call j c → more.call j c

theorem Move.mono {cat : Catalog} {asks more : Asks} (hw : asks.Within more) (d d' : Desk Q)
    (h : Move cat asks d d') : Move cat more d d' := by
  cases h with
  | aside hs hm => exact .aside hs hm
  | enter ho => exact .enter ho
  | call ha hs => exact .call (hw.call _ _ ha) hs
  | relation ha hk hm => exact .relation (hw.relation _ ha) hk hm

end Desk

end Winnow
