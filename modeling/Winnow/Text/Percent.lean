import Winnow.Text.Split
import Winnow.Text.Utf8

namespace Winnow

def hexDigit? (c : Char) : Option Nat :=
  if c.isDigit then some (c.toNat - '0'.toNat)
  else if 'a' ≤ c && c ≤ 'f' then some (c.toNat - 'a'.toNat + 10)
  else if 'A' ≤ c && c ≤ 'F' then some (c.toNat - 'A'.toNat + 10)
  else none

/-- The bytes that a run of ASCII stands for; a percent sign without two digits is itself. -/
def percentBytes : List Char → List Nat
  | '%' :: a :: b :: rest =>
    match hexDigit? a, hexDigit? b with
    | some high, some low => (16 * high + low) :: percentBytes rest
    | _, _ => '%'.toNat :: percentBytes (a :: b :: rest)
  | c :: rest => c.toNat :: percentBytes rest
  | [] => []

/-- Reads percent signs; `run` holds the ASCII characters just before, last first. Every run of
ASCII is read on its own. -/
def readPercent (run : List Char) : List Char → List Char
  | [] => ofUtf8 (percentBytes run.reverse)
  | c :: cs =>
    if c.toNat < 0x80 then readPercent (c :: run) cs
    else ofUtf8 (percentBytes run.reverse) ++ c :: readPercent [] cs

def percentDecoded (cs : List Char) : String := String.ofList (readPercent [] cs)

/-- Letters, digits and the four marks that are never written with a percent sign. -/
def isUnreserved (c : Char) : Bool :=
  c.isAlphanum || c = '_' || c = '.' || c = '-' || c = '~'

def capitalHex (n : Nat) : Char := (Nat.digitChar n).toUpper

/-- A text with percent signs for all but unreserved and `safe` characters. -/
def percentEncoded (safe : List Char) (text : String) : String :=
  String.ofList (text.toList.flatMap fun c =>
    if isUnreserved c || safe.contains c then [c]
    else (utf8Bytes c).flatMap fun b => ['%', capitalHex (b / 16), capitalHex (b % 16)])

def queryEncoded (text : String) : String :=
  replaced " " "+" (percentEncoded [' '] text)

def queryDecoded (cs : List Char) : String :=
  percentDecoded (cs.map fun c => if c = '+' then ' ' else c)

/-- The keys of a query with their values. A key without a value is left out, and the values of a
key that comes again stand together. -/
def readQuery (cs : List Char) : List (String × List String) :=
  let add (query : List (String × List String)) (pair : List Char × List Char) :=
    let key := queryDecoded pair.1
    let value := queryDecoded pair.2
    if query.any (·.1 = key) then
      query.map fun entry => if entry.1 = key then (key, entry.2 ++ [value]) else entry
    else query ++ [(key, [value])]
  let pairs := (splitList '&' [] cs).filterMap (cutList '=')
  (pairs.filter fun pair => !pair.2.isEmpty).foldl add []

def writeQuery (query : List (String × List String)) : String :=
  let sorted := query.mergeSort fun a b => !decide (b.1 < a.1)
  String.intercalate "&" (sorted.flatMap fun entry =>
    entry.2.map fun value => queryEncoded entry.1 ++ "=" ++ queryEncoded value)

end Winnow
