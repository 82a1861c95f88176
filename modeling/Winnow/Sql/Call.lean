import Winnow.Sql.Fault
import Winnow.Sql.Format
import Winnow.Sql.Wildcard

namespace Winnow.Sql

namespace Call

def text (c : Cell) : List Char := (c.text?.getD "").toList

def ofChars (cs : List Char) : Cell := .text (String.ofList cs)

def onText (f : List Char → Cell) (c : Cell) : Cell := if c = .null then .null else f (text c)

def length (c : Cell) : Cell := onText (fun cs => .int (cs.takeWhile (·.toNat != 0)).length) c

def position (piece : List Char) : Nat → List Char → Nat
  | n, [] => if piece.isEmpty then n else 0
  | n, c :: cs => if piece.isPrefixOf (c :: cs) then n else position piece (n + 1) cs

/-- So many characters from a place on. Places below zero count from the end, and of a number below
zero as many characters before the place are meant. -/
def substring (cs : List Char) (start : Int) (count : Option Int) : List Char :=
  let size : Int := cs.length
  let count := count.getD (size + 1 + start.natAbs)
  let (p, n) :=
    if start < 0 then
      let p := start + size
      if p < 0 then (0, if count < 0 then 0 else count + p) else (p, count)
    else if 0 < start then (start - 1, count)
    else (0, if 0 < count then count - 1 else count)
  let (p, n) :=
    if n < 0 then
      let n := if p < -n then p else -n
      (p - n, n)
    else (p, n)
  (cs.drop p.toNat).take n.toNat

def trimStart (marks cs : List Char) : List Char := cs.dropWhile marks.contains

def trimEnd (marks cs : List Char) : List Char := (trimStart marks cs.reverse).reverse

/-- A function that takes characters off a text, blanks if it is not told which. -/
def trimmed (f : List Char → List Char → List Char) : List Cell → Cell
  | [c] => onText (fun cs => ofChars (f [' '] cs)) c
  | [c, marks] => if marks = .null then .null else onText (fun cs => ofChars (f (text marks) cs)) c
  | _ => .null

def replace (c old new : Cell) : Cell :=
  if c = .null || old = .null || new = .null then .null
  else .text (replaced (old.text?.getD "") (new.text?.getD "") (c.text?.getD ""))

def quote : Cell → Cell
  | .null => .text "NULL"
  | .text s => ofChars ('\'' :: FormatSpec.doubled '\'' (untilZero s) ++ ['\''])
  | c => c.textual

def hex (c : Cell) : Cell :=
  ofChars ((text c).flatMap fun ch =>
    (utf8Bytes ch).flatMap fun b => [capitalHex (b / 16), capitalHex (b % 16)])

/-- A function of numbers, which leaves texts that are none at null. -/
def onNumber (ofInt : Int → Cell) (ofReal : Binary64 → Cell) (c : Cell) : Cell :=
  match c.numeric with
  | .int n => ofInt n
  | .real x => ofReal x
  | _ => .null

def sign (c : Cell) : Cell :=
  onNumber (fun n => .int n.sign)
    (fun x => .int (if x.isZero then 0 else if x.isNegative then -1 else 1)) c

def absolute : Cell → Except Fault Cell
  | .null => .ok .null
  | .int n => if n = -int64Bound then .error .integerOverflow else .ok (.int n.natAbs)
  | c => .ok (.real c.toReal.abs)

def round (c places : Cell) : Cell :=
  if c = .null || places = .null then .null
  else
    let n := min 30 (max 0 places.toInteger)
    .real (c.toReal.rounded n.toNat)

def extreme (before : Ordering) (cells : List Cell) : Cell :=
  if cells.contains .null then .null
  else match cells with
    | [] => .null
    | c :: cs =>
      cs.foldl (fun best c => if Cell.sortOrder c best = before then c else best) c

def coalesce (cells : List Cell) : Cell := (cells.find? (· != .null)).getD .null

/-- The value beside the first test that is true, or the last value, if it has no test. -/
def choose : List Cell → Cell
  | test :: value :: rest => if test.truth.isTrue then value else choose rest
  | [value] => value
  | [] => .null

def joined (separator : Cell) (cells : List Cell) : Cell :=
  if separator = .null then .null
  else .text (String.intercalate (separator.text?.getD "") (cells.filterMap (·.text?)))

/-- Whether a text matches a pattern, with perhaps a character that makes marks literal. -/
def like (pattern c : Cell) : List Cell → Except Fault Cell
  | [] => .ok (Cell.ofTruth do return isLike (← pattern.text?) (← c.text?))
  | escape :: _ =>
    match escape.text? with
    | none => .ok .null
    | some s =>
      match s.toList with
      | [e] => .ok (Cell.ofTruth do return isLikeEscaped e (← pattern.text?) (← c.text?))
      | _ => .error .longEscape

def glob (pattern c : Cell) : Cell :=
  Cell.ofTruth do return isGlob (← pattern.text?) (← c.text?)

/-- The characters of some numbers; a number without one gives the sign of replacement. -/
def characters (cells : List Cell) : Cell :=
  ofChars (cells.map fun c =>
    let n := c.toInteger
    if 0 ≤ n && n < 0x110000 && !(0xD800 ≤ n && n < 0xE000) then Char.ofNat n.toNat
    else replacementSign)

/-- The remainder of a division of doubles, with the sign of the first. -/
def remainder (a b : Cell) : Cell :=
  match a.numeric, b.numeric with
  | .null, _ | _, .null | .text _, _ | _, .text _ => .null
  | a, b =>
    let x := a.toReal
    let y := b.toReal
    match x, y with
    | .finite s m d, .finite _ n e =>
      let least := min d e
      let unit := n * twoTo (e - least).toNat
      if n = 0 then .null
      else .real (Binary64.ofScaled s
        (Binary64.signed s (m * twoTo (d - least).toNat % unit)) least)
    | _, _ => .null

/-- What a function, by its name in small letters, makes of its arguments. -/
def run (function : String) (args : List Cell) : Except Fault Cell :=
  match function, args with
  | "abs", [c] => absolute c
  | "char", cs => .ok (characters cs)
  | "coalesce", cs | "ifnull", cs => .ok (coalesce cs)
  | "concat", cs => .ok (joined (.text "") cs)
  | "concat_ws", separator :: cs => .ok (joined separator cs)
  | "format", c :: cs | "printf", c :: cs =>
    .ok (match c.text? with
      | some s => .text (formatted s cs)
      | none => .null)
  | "glob", [pattern, c] => .ok (glob pattern c)
  | "like", pattern :: c :: escape => like pattern c escape
  | "hex", [c] => .ok (hex c)
  | "if", cs | "iif", cs => .ok (choose cs)
  | "instr", [c, piece] =>
    .ok (if c = .null || piece = .null then .null else .int (position (text piece) 1 (text c)))
  | "length", [c] => .ok (length c)
  | "octet_length", [c] => .ok (onText (fun cs => .int (String.ofList cs).utf8ByteSize) c)
  | "likely", [c] | "unlikely", [c] | "likelihood", [c, _] => .ok c
  | "lower", [c] => .ok (onText (fun cs => ofChars (cs.map Char.toLower)) c)
  | "upper", [c] => .ok (onText (fun cs => ofChars (cs.map Char.toUpper)) c)
  | "ltrim", cs => .ok (trimmed trimStart cs)
  | "rtrim", cs => .ok (trimmed trimEnd cs)
  | "trim", cs => .ok (trimmed (fun marks cs => trimEnd marks (trimStart marks cs)) cs)
  | "max", cs => .ok (extreme .gt cs)
  | "min", cs => .ok (extreme .lt cs)
  | "nullif", [a, b] => .ok (if a.order b = some .eq then .null else a)
  | "quote", [c] => .ok (quote c)
  | "replace", [c, old, new] => .ok (replace c old new)
  | "round", [c] => .ok (round c (.int 0))
  | "round", [c, places] => .ok (round c places)
  | "sign", [c] => .ok (sign c)
  | "substr", [c, start] | "substring", [c, start] =>
    .ok (if start = .null then .null
      else onText (fun cs => ofChars (substring cs start.toInteger none)) c)
  | "substr", [c, start, count] | "substring", [c, start, count] =>
    .ok (if start = .null || count = .null then .null
      else onText (fun cs => ofChars (substring cs start.toInteger (some count.toInteger))) c)
  | "typeof", [c] => .ok (.text c.kind)
  | "unicode", [c] => .ok (onText (fun cs => (cs.head?.map (.int ·.toNat)).getD .null) c)
  | "ceil", [c] | "ceiling", [c] => .ok (onNumber .int (fun x => .real x.ceil) c)
  | "floor", [c] => .ok (onNumber .int (fun x => .real x.floor) c)
  | "trunc", [c] => .ok (onNumber .int (fun x => .real x.truncate) c)
  | "mod", [a, b] => .ok (remainder a b)
  | _, _ => .ok .null

end Call

end Winnow.Sql
