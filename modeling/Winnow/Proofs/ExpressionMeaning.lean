import Winnow.Proofs.PredicateCalls
import Winnow.Proofs.SplitPieces

namespace Winnow

/-- What a keyword with one operand says of a cell of a column of type `t`. -/
def keywordMeaning? (t : ColumnType) (a : Cell) (keyword operand : String) : Option Truth :=
  let compared (c : Comparison) (v : String) : Truth := compareValue t c a (.text v)
  if operand = "" then none
  else match keyword with
    | "equal" => some (compared .eq operand)
    | "like" => some (compared .like ("%" ++ operand ++ "%"))
    | "upper" => some (compared .gt operand)
    | "lower" => some (compared .lt operand)
    | "in" => some (((splitAt ',' operand).map (compared .eq)).foldr Truth.or (some false))
    | _ => none

/-- What the word after `is` says of a cell. -/
def nullMeaning? (a : Cell) : String → Option Truth
  | "null" => some (some (a = .null))
  | "not-null" => some (some (a ≠ .null))
  | _ => none

/-- What the bounds of a range that are there say of a cell; nothing when there is none. -/
def rangeMeaning? (t : ColumnType) (a : Cell) (operand : String) : Option Truth :=
  let low := (splitAt ',' operand).getD 0 ""
  let high := (splitAt ',' operand).getD 1 ""
  let above := compareValue t .ge a (.text low)
  let below := compareValue t .le a (.text high)
  if low = "" then if high = "" then none else some below
  else if high = "" then some above
  else some (above.and below)

/-- What a filter expression says of a cell of a column of type `t`, if it can be understood. A
range without bounds says nothing, negated or not. -/
def meaning? (t : ColumnType) (a : Cell) (expression : String) : Option Truth :=
  let token (i : Nat) : String := (splitAt '_' expression).getD i ""
  let range (operand : String) (f : Truth → Truth) : Option Truth :=
    if operand = "" then none else some (((rangeMeaning? t a operand).map f).getD (some true))
  match token 0 with
  | "is" => nullMeaning? a (token 1)
  | "not" =>
    if token 1 = "between" then range (token 2) Truth.not
    else (keywordMeaning? t a (token 1) (token 2)).map Truth.not
  | "between" => range (token 1) id
  | keyword => keywordMeaning? t a keyword (token 1)

def allTrue (t : ColumnType) (a : Cell) (tests : List Test) : Bool :=
  tests.all fun test => (test.truth t a).isTrue

variable {t : ColumnType} {a : Cell} {c : ColumnRef}

theorem Predicate.bounds_eq (operand : String) : bounds operand =
    [(splitAt ',' operand).getD 0 "", (splitAt ',' operand).getD 1 ""] := by
  unfold bounds
  split
  next h => rw [h]; rfl
  next h => rw [h]; rfl
  next h => exact absurd h (splitAt_ne_nil ',' operand)

def FilterKind.negation : FilterKind → FilterKind
  | equal => notEqual
  | like => notLike
  | between => notBetween
  | oneOf => notOneOf
  | above => notAbove
  | below => notBelow
  | kind => kind

theorem Predicate.negated?_eq (keyword operand : String) : negated? keyword operand =
    (plain? keyword operand).map fun p => (p.1.negation, p.2) := by
  unfold negated? plain?
  split
  next => rfl
  next => split <;> rfl

theorem compareValue_negate (comparison : Comparison) (v : String) :
    compareValue t comparison.negate a (.text v) = (compareValue t comparison a (.text v)).not :=
  Test.truth_negate t a (.compare ⟨"", ""⟩ comparison (.text v))

theorem memberTruth_texts {vs : List String} (h : vs ≠ []) : memberTruth t a (vs.map .text) =
    (vs.map fun v => compareValue t .eq a (.text v)).foldr Truth.or (some false) := by
  cases vs with
  | nil => exact absurd rfl h
  | cons v vs =>
    unfold memberTruth
    rw [List.foldr_map, List.foldr_map, List.foldr_map]
    rfl

theorem allTrue_singleton (test : Test) : allTrue t a [test] = (test.truth t a).isTrue := by
  simp [allTrue]

theorem allTrue_append (xs ys : List Test) :
    allTrue t a (xs ++ ys) = (allTrue t a xs && allTrue t a ys) := List.all_append

theorem allTrue_between (column operand : String) :
    allTrue t a (Predicate.tests c ⟨column, .between, Predicate.bounds operand⟩) =
      ((rangeMeaning? t a operand).getD (some true)).isTrue := by
  rw [Predicate.bounds_eq]
  unfold rangeMeaning?
  simp only [Predicate.tests, allTrue_append]
  split
  next =>
    split
    next => simp [allTrue, Truth.isTrue]
    next => simp [allTrue, Test.truth]
  next =>
    split
    next => simp [allTrue, Test.truth]
    next => simp [allTrue, Test.truth, Truth.isTrue_and]

theorem allTrue_notBetween (column operand : String) :
    allTrue t a (Predicate.tests c ⟨column, .notBetween, Predicate.bounds operand⟩) =
      (((rangeMeaning? t a operand).map Truth.not).getD (some true)).isTrue := by
  rw [Predicate.bounds_eq]
  unfold rangeMeaning?
  simp only [Predicate.tests]
  split
  next =>
    split
    next => simp [allTrue, Truth.isTrue]
    next =>
      rw [allTrue_singleton]
      exact congrArg Truth.isTrue (compareValue_negate .le _)
  next =>
    split
    next =>
      rw [allTrue_singleton]
      exact congrArg Truth.isTrue (compareValue_negate .ge _)
    next => rw [allTrue_singleton]; rfl

theorem plain?_meaning (column keyword operand : String) (h : keyword ≠ "between") :
    (Predicate.plain? keyword operand).map
        (fun p => allTrue t a (Predicate.tests c ⟨column, p.1, p.2⟩)) =
      (keywordMeaning? t a keyword operand).map Truth.isTrue := by
  unfold Predicate.plain? keywordMeaning?
  by_cases ho : operand = ""
  · simp only [ho, ↓reduceIte, Option.map_none]
  · simp only [ho, ↓reduceIte]
    split
    next => simp only [Option.map_some, Predicate.tests, allTrue_singleton]; rfl
    next => simp only [Option.map_some, Predicate.tests, allTrue_singleton]; rfl
    next => simp only [Option.map_some, Predicate.tests, allTrue_singleton]; rfl
    next => simp only [Option.map_some, Predicate.tests, allTrue_singleton]; rfl
    next => exact absurd rfl h
    next =>
      simp only [Option.map_some, Predicate.tests, allTrue_singleton]
      rw [← memberTruth_texts (splitAt_ne_nil ',' operand)]
      rfl
    next h1 h2 h3 h4 h5 h6 =>
      split
      next => exact absurd rfl h1
      next => exact absurd rfl h2
      next => exact absurd rfl h3
      next => exact absurd rfl h4
      next => exact absurd rfl h6
      next => rfl

theorem negated?_meaning (column keyword operand : String) (h : keyword ≠ "between") :
    (Predicate.negated? keyword operand).map
        (fun p => allTrue t a (Predicate.tests c ⟨column, p.1, p.2⟩)) =
      ((keywordMeaning? t a keyword operand).map Truth.not).map Truth.isTrue := by
  unfold Predicate.negated? keywordMeaning?
  by_cases ho : operand = ""
  · simp only [ho, ↓reduceIte, Option.map_none]
  · simp only [ho, ↓reduceIte]
    split
    next =>
      simp only [Option.map_some, Predicate.tests, allTrue_singleton]
      rw [← compareValue_negate]
      rfl
    next =>
      simp only [Option.map_some, Predicate.tests, allTrue_singleton]
      rw [← compareValue_negate]
      rfl
    next =>
      simp only [Option.map_some, Predicate.tests, allTrue_singleton]
      rw [← compareValue_negate]
      rfl
    next =>
      simp only [Option.map_some, Predicate.tests, allTrue_singleton]
      rw [← compareValue_negate]
      rfl
    next => exact absurd rfl h
    next =>
      simp only [Option.map_some, Predicate.tests, allTrue_singleton]
      rw [← memberTruth_texts (splitAt_ne_nil ',' operand)]
      rfl
    next h1 h2 h3 h4 h5 h6 =>
      split
      next => exact absurd rfl h1
      next => exact absurd rfl h2
      next => exact absurd rfl h3
      next => exact absurd rfl h4
      next => exact absurd rfl h6
      next => rfl

theorem null?_meaning (column word : String) :
    (Predicate.null? word).map (fun p => allTrue t a (Predicate.tests c ⟨column, p.1, p.2⟩)) =
      (nullMeaning? a word).map Truth.isTrue := by
  unfold Predicate.null?
  split
  next =>
    simp only [Option.map_some, Predicate.tests, allTrue_singleton]
    simp [Test.truth, nullMeaning?]
  next =>
    simp only [Option.map_some, Predicate.tests, allTrue_singleton]
    simp [Test.truth, nullMeaning?]
  next h1 h2 =>
    unfold nullMeaning?
    split
    next => exact absurd rfl h1
    next => exact absurd rfl h2
    next => rfl

/-- The tests of an expression's predicate are all true for a cell exactly when the expression says
what is true of it; the two understand the same expressions. -/
theorem tests_eq_meaning (column expression : String) :
    (Predicate.compile column expression).map (fun p => allTrue t a (p.tests c)) =
      (meaning? t a expression).map Truth.isTrue := by
  unfold Predicate.compile Predicate.ofTokens? meaning?
  rw [Option.map_map]
  change Option.map (fun p : FilterKind × List String =>
    allTrue t a (Predicate.tests c ⟨column, p.1, p.2⟩)) _ = _
  simp only
  generalize (splitAt '_' expression).getD 0 "" = first
  generalize (splitAt '_' expression).getD 1 "" = second
  generalize (splitAt '_' expression).getD 2 "" = third
  split
  next =>
    by_cases hb : second = "between"
    · subst hb
      simp only [↓reduceIte]
      unfold Predicate.negated?
      by_cases ho : third = ""
      · simp only [ho, ↓reduceIte, Option.map_none]
      · simp only [ho, ↓reduceIte, Option.map_some, allTrue_notBetween]
    · simp only [hb, ↓reduceIte]
      exact negated?_meaning column second third hb
  next => exact null?_meaning column second
  next h1 h2 =>
    by_cases hb : first = "between"
    · subst hb
      simp only
      unfold Predicate.plain?
      by_cases ho : second = ""
      · simp only [ho, ↓reduceIte, Option.map_none]
      · simp only [ho, ↓reduceIte, Option.map_some, allTrue_between, Option.map_id_fun, id_eq]
    · rw [plain?_meaning column first second hb]
      split
      next => exact absurd rfl h2
      next => exact absurd rfl h1
      next => exact absurd rfl hb
      next => rfl

end Winnow
