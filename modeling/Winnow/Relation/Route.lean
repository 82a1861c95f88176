import Winnow.Note

namespace Winnow

structure Hop where
  fromTable : String
  fromKey : String
  toTable : String
  toKey : String
  deriving DecidableEq, Repr

namespace Hop

def fromColumn (h : Hop) : String := h.fromTable ++ "." ++ h.fromKey

def toColumn (h : Hop) : String := h.toTable ++ "." ++ h.toKey

def ofPair? (pair : String × String) : Option Hop :=
  match halves '.' pair.1, halves '.' pair.2 with
  | some (fromTable, fromKey), some (toTable, toKey) =>
    some ⟨fromTable, fromKey, toTable, toKey⟩
  | _, _ => none

end Hop

structure Route where
  name : Value
  hops : List Hop
  joinKind : JoinKind := .inner
  deriving Repr

namespace Route

def target (r : Route) : Option String :=
  r.hops.getLast?.map (·.toTable)

def rebase (base : String) : List Hop → List Hop
  | [] => []
  | hop :: hops => { hop with fromTable := base } :: hops

def ofRelation (base : String) (name : Value) (rel : Relation) : Route :=
  ⟨name, rebase base (rel.chain.filterMap Hop.ofPair?), rel.joinKind⟩

def notes (name : Value) (rel : Relation) : List Note :=
  (rel.chain.filter fun pair => (Hop.ofPair? pair).isNone).map fun pair =>
    .malformedPair pair.1 pair.2 name

end Route

/-- Aliases with their sources, in the order in which the aliases first appear. -/
abbrev AliasMap := List (String × String)

namespace AliasMap

def put (name source : String) : AliasMap → AliasMap
  | [] => [(name, source)]
  | (a, s) :: rest => if a = name then (a, source) :: rest else (a, s) :: put name source rest

/-- The aliases of a run of select entries; the last source of an alias counts. -/
def ofEntries (entries : List String) : AliasMap :=
  (entries.filterMap sourceAndAlias?).foldl (fun m p => put p.2 p.1 m) []

theorem lookup_put (m : AliasMap) (name source a : String) :
    (put name source m).lookup a = if a = name then some source else m.lookup a := by
  induction m with
  | nil =>
    by_cases h : a = name
    · simp [put, h]
    · simp [put, List.lookup_cons, beq_eq_false_iff_ne.mpr h, h]
  | cons p rest ih =>
    obtain ⟨b, s⟩ := p
    by_cases hb : b = name
    · subst hb
      by_cases ha : a = b
      · simp [put, ha]
      · simp [put, List.lookup_cons, beq_eq_false_iff_ne.mpr ha, ha]
    · by_cases ha : a = b
      · subst ha
        simp [put, hb]
      · simp [put, List.lookup_cons, hb, beq_eq_false_iff_ne.mpr ha, ih]

end AliasMap

end Winnow
