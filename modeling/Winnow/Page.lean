import Winnow.Input.Checked

namespace Winnow

/-- Keys with their values, in the order of the columns. -/
abbrev Row := List (String × Value)

structure PageTexts where
  search : Option String := none
  filter : Option String := none
  sort : Option String := none
  deriving DecidableEq, Repr

structure Page where
  items : List Row := []
  total : Nat
  perPage : Nat
  currentPage : Nat
  query : PageTexts := {}
  deriving Repr

/-- A page that knows only whether more rows follow. -/
structure OpenPage where
  items : List Row := []
  perPage : Nat
  currentPage : Nat
  hasMore : Bool := false
  query : PageTexts := {}
  deriving Repr

/-- The quotient of two natural numbers as the nearest double, rounded up to a whole number; at
least one. -/
def lastPage (total perPage : Nat) : Except Failure Nat :=
  let (m, e) := roundRatio total perPage
  if total ≠ 0 ∧ overflowExponent ≤ e then .error .quotientTooLarge
  else .ok (max 1 (ceilScaled m e))

def Page.lastPage (p : Page) : Except Failure Nat := Winnow.lastPage p.total p.perPage

open Checked Reader

def PageTexts.read : Reader PageTexts := fun place v =>
  match v with
  | .record fields =>
    (both (field fields "search" (some none) optionalString place)
      (both (field fields "filter" (some none) optionalString place)
        (field fields "sort" (some none) optionalString place))).map fun p =>
      ⟨p.1, p.2.1, p.2.2⟩
  | _ => fault place (.nested "QueryStrings")

def readItems (fields : List (String × Value)) : Checked (List Row) :=
  field fields "items" (some []) (Reader.list record)

def natFrom (bound : Nat) : Reader Nat := fun place v =>
  (integerFrom bound place v).map Int.toNat

def Page.read (fields : List (String × Value)) : Checked Page :=
  (both (readItems fields)
    (both (field fields "total" none (natFrom 0))
      (both (field fields "per_page" none (natFrom 1))
        (both (field fields "current_page" none (natFrom 1))
          (field fields "query" (some {}) PageTexts.read))))).map fun p =>
    ⟨p.1, p.2.1, p.2.2.1, p.2.2.2.1, p.2.2.2.2⟩

def OpenPage.read (fields : List (String × Value)) : Checked OpenPage :=
  (both (readItems fields)
    (both (field fields "per_page" none (natFrom 1))
      (both (field fields "current_page" none (natFrom 1))
        (both (field fields "has_more" (some false) boolean)
          (field fields "query" (some {}) PageTexts.read))))).map fun p =>
    ⟨p.1, p.2.1, p.2.2.1, p.2.2.2.1, p.2.2.2.2⟩

end Winnow
