import Winnow.Failure
import Winnow.Number.Typed
import Winnow.Text.Percent
import Winnow.Text.Word

namespace Winnow

/-- The parts of an address; one that is not written is `none`. An option has the values that are
given for its name, one or more. -/
structure Address where
  driver : String
  user : Option String := none
  password : Option String := none
  host : Option String := none
  portNumber : Option Int := none
  database : Option String := none
  options : List (String × List String) := []
  deriving DecidableEq, Repr

namespace Address

def cutLast (mark : Char) (cs : List Char) : Option (List Char × List Char) :=
  (cutList mark cs.reverse).map fun halves => (halves.2.reverse, halves.1.reverse)

def readUser (cs : List Char) : Option String × Option String × List Char :=
  let name := cs.takeWhile fun c => c != ':' && c != '/'
  let afterName := cs.dropWhile fun c => c != ':' && c != '/'
  let bare : Option String × Option String × List Char :=
    match cutLast '@' name with
    | some (user, rest) => (some (percentDecoded user), none, rest ++ afterName)
    | none => (none, none, cs)
  match afterName with
  | ':' :: tail =>
    match cutList '@' tail with
    | some (password, rest) => (some (percentDecoded name), some (percentDecoded password), rest)
    | none => bare
  | _ => bare

def readHost (cs : List Char) : Option String × List Char :=
  let host := cs.takeWhile fun c => c != '/' && c != ':' && c != '?'
  let plain : Option String × List Char :=
    (if host.isEmpty then none else some (String.ofList host), cs.drop host.length)
  match cs with
  | '[' :: tail =>
    match cutLast ']' (tail.takeWhile fun c => c != '/' && c != '?') with
    | some (c :: host, rest) =>
      (some (String.ofList (c :: host)), rest ++ tail.dropWhile fun c => c != '/' && c != '?')
    | _ => plain
  | _ => plain

def readTyped (text : String) : Except Failure Int :=
  if mostDigits < typedSize text then .error (.longNumber (typedSize text))
  else match typedInteger? text with
    | some n => .ok n
    | none => .error (.badInteger text)

def readPort (cs : List Char) : Except Failure (Option Int × List Char) :=
  match cs with
  | ':' :: tail => do
    let n ← readTyped (String.ofList (tail.takeWhile fun c => c != '/' && c != '?'))
    return (some n, tail.dropWhile fun c => c != '/' && c != '?')
  | _ => .ok (none, cs)

/-- The name of the database, which stands between a slash and a question mark, and the rest. -/
def readDatabase : List Char → Option String × List Char
  | '/' :: tail =>
    (some (percentDecoded (tail.takeWhile (· != '?'))), tail.dropWhile (· != '?'))
  | cs => (none, cs)

def readOptions : List Char → List (String × List String)
  | '?' :: tail => readQuery (tail.takeWhile (· != '\n'))
  | _ => []

def read (text : String) : Except Failure Address :=
  let isDriverChar (c : Char) : Bool := isWordChar c || c = '+'
  let driver := text.toList.takeWhile isDriverChar
  match after? "://".toList (text.toList.drop driver.length) with
  | none => .error .badAddress
  | some cs => do
    if driver.isEmpty then throw .badAddress
    let (user, password, cs) := readUser cs
    let (host, cs) := readHost cs
    let (portNumber, cs) ← readPort cs
    let (database, cs) := readDatabase cs
    return { driver := String.ofList driver, user, password, host, portNumber, database,
             options := readOptions cs }

def isRemote (a : Address) : Bool :=
  [a.user, a.password, a.host].any (fun part => part.any (· ≠ "")) || a.portNumber.any (· ≠ 0)

def shown (a : Address) : String :=
  let part (text : Option String) (f : String → String) : String := (text.map f).getD ""
  let password := part a.password fun _ => ":***"
  a.driver ++ "://" ++
    part a.user (fun user => percentEncoded [' ', '+'] user ++ password ++ "@") ++
    part a.host (fun host => if occursIn ":" host then "[" ++ host ++ "]" else host) ++
    part (a.portNumber.map toString) (":" ++ ·) ++
    part a.database (fun name => "/" ++ percentEncoded [' ', '+', '/'] name) ++
    (if a.options.isEmpty then "" else "?" ++ writeQuery a.options)

end Address

end Winnow
