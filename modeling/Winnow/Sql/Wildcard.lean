import Winnow.Store.Pattern

namespace Winnow.Sql

inductive Wild where
  /-- Any run of characters. -/
  | run
  | one
  /-- One character, in either case if `loose`. -/
  | letter (c : Char) (loose : Bool)
  /-- A character in one of some ranges, or in none of them if `negated`. -/
  | among (ranges : List (Char × Char)) (negated : Bool)
  deriving DecidableEq, Repr

namespace Wild

def admits (c : Char) : Wild → Bool
  | run => false
  | one => true
  | letter p loose => if loose then sameLetter p c else p = c
  | among ranges negated => (ranges.any fun r => r.1 ≤ c && c ≤ r.2) != negated

def fits : List Wild → List Char → Bool
  | [], cs => cs.isEmpty
  | w :: ws, cs =>
    if w = run then anyTail (fits ws) cs
    else match cs with
      | [] => false
      | c :: rest => w.admits c && fits ws rest

/-- The places of a `LIKE` pattern, where `escape` makes the next character literal. One at the end
admits nothing. -/
def ofLike (escape : Char) : List Char → Option (List Wild)
  | [] => some []
  | c :: cs =>
    if c = escape then
      match cs with
      | [] => none
      | d :: rest => (ofLike escape rest).map (letter d true :: ·)
    else
      let w := if c = '%' then run else if c = '_' then one else letter c true
      (ofLike escape cs).map (w :: ·)

def ranges : List (Char × Char) → List Char → Option (List (Char × Char) × List Char)
  | _, [] => none
  | done, ']' :: rest => if done.isEmpty then ranges [(']', ']')] rest else some (done, rest)
  | done, '-' :: d :: rest =>
    match done with
    | (low, _) :: before =>
      if d = ']' then some (('-', '-') :: done, rest) else ranges ((low, d) :: before) rest
    | [] => ranges [('-', '-')] (d :: rest)
  | done, c :: rest => ranges ((c, c) :: done) rest

/-- The places of a `GLOB` pattern; a bracket that is not closed admits nothing. -/
def ofGlob : Nat → List Char → Option (List Wild)
  | 0, _ => some []
  | _ + 1, [] => some []
  | fuel + 1, c :: cs =>
    if c = '*' then (ofGlob fuel cs).map (run :: ·)
    else if c = '?' then (ofGlob fuel cs).map (one :: ·)
    else if c = '[' then do
      let negated := cs.head? = some '^'
      let (rs, rest) ← ranges [] (if negated then cs.drop 1 else cs)
      return among rs negated :: (← ofGlob fuel rest)
    else (ofGlob fuel cs).map (letter c false :: ·)

end Wild

/-- Whether a text matches a `LIKE` pattern with a character that makes marks literal. -/
def isLikeEscaped (escape : Char) (pattern text : String) : Bool :=
  match Wild.ofLike escape (untilZero pattern) with
  | some ws => Wild.fits ws (untilZero text)
  | none => false

def isGlob (pattern text : String) : Bool :=
  match Wild.ofGlob (pattern.length + 1) (untilZero pattern) with
  | some ws => Wild.fits ws (untilZero text)
  | none => false

end Winnow.Sql
