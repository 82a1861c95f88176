import Winnow.Text.CaseTable

namespace Winnow

/-- The shift from a character beyond ASCII to its lower-case partner. -/
def lowerShift : List CaseRun → Nat → Int
  | [], _ => 0
  | run :: rest, n =>
    if n < run.first then 0
    else if n ≤ run.last then (if (n - run.first) % run.step = 0 then run.shift else 0)
    else lowerShift rest n

def lowerChar (c : Char) : List Char :=
  let n := c.toNat
  if n < 0x80 then [c.toLower]
  else if n = 0x130 then ['i', Char.ofNat 0x307]
  else [Char.ofNat (n + lowerShift lowerRuns n).toNat]

def isCased (c : Char) : Bool :=
  if c.toNat < 0x80 then c.isAlpha else casedRanges.holds c.toNat

def isPassedOver (c : Char) : Bool :=
  passedOverRanges.holds c.toNat

/-- Whether the first of `cs` that is not passed over is a letter with case. -/
def meetsCased (cs : List Char) : Bool :=
  match cs.dropWhile isPassedOver with
  | [] => false
  | c :: _ => isCased c

/-- The lower-case form of `cs`, where `before` holds the characters already read, last first. A
sigma at the end of a word is written `ς`. -/
def lowerList (before : List Char) : List Char → List Char
  | [] => []
  | c :: cs =>
    let here :=
      if c = 'Σ' then (if meetsCased before && !meetsCased cs then ['ς'] else ['σ'])
      else lowerChar c
    here ++ lowerList (c :: before) cs

def lower (text : String) : String :=
  String.ofList (lowerList [] text.toList)

/-- Whether the upper-case form of `c` is the ASCII capital `capital`. The long s is a small s, and
the dotless i a small i. -/
def isUpperOf (capital c : Char) : Bool :=
  c.toUpper = capital || (capital = 'S' && c = 'ſ') || (capital = 'I' && c = 'ı')

/-- Whether `cs` spells the ASCII capitals `word` in some letter case. -/
def spells : List Char → List Char → Bool
  | [], [] => true
  | w :: word, c :: cs => isUpperOf w c && spells word cs
  | _, _ => false

end Winnow
