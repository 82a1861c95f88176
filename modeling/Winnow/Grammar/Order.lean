import Winnow.Text.Case

namespace Winnow

inductive Direction where
  | ascending
  | descending
  deriving DecidableEq, Repr

namespace Direction

def name : Direction → String
  | ascending => "ASC"
  | descending => "DESC"

def ofName? (s : String) : Option Direction :=
  if s = "ASC" then some ascending else if s = "DESC" then some descending else none

def read? (s : String) : Option Direction :=
  if spells ['A', 'S', 'C'] s.toList then some ascending
  else if spells ['D', 'E', 'S', 'C'] s.toList then some descending
  else none

end Direction

structure Order where
  column : String
  direction : Direction := .ascending
  deriving DecidableEq, Repr

def Order.compile (column expression : String) : Option Order :=
  (Direction.read? expression).map (⟨column, ·⟩)

end Winnow
