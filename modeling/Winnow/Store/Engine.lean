import Winnow.Settings
import Winnow.Store.Address

namespace Winnow

namespace Address

/-- The kinds of options that a driver reads. -/
inductive OptionKind where
  | truth
  | real
  | integer
  | text
  deriving DecidableEq, Repr

/-- The options that the driver for files reads, in the order in which it does. -/
def fileOptions : List (String × OptionKind) :=
  [("uri", .truth), ("timeout", .real), ("isolation_level", .text), ("detect_types", .integer),
    ("check_same_thread", .truth), ("cached_statements", .integer)]

def readTruth (text : String) : Except Failure Bool :=
  let word := lower (stripped text)
  if ["true", "yes", "on", "y", "t", "1"].contains word then .ok true
  else if ["false", "no", "off", "n", "f", "0"].contains word then .ok false
  else .error (.badTruth word)

/-- Whether the values of an option can be read; more than one make no number. -/
def checkOption : OptionKind → List String → Except Failure Unit
  | .truth, [text] => do let _ ← readTruth text
  | .real, [text] => if (typedReal? text).isSome then .ok () else .error (.badReal text)
  | .integer, [text] => do let _ ← readTyped text
  | .real, _ => .error .manyReals
  | .integer, _ => .error .manyIntegers
  | .truth, _ | .text, _ => .ok ()

def checkOptions (a : Address) : List (String × OptionKind) → Except Failure Unit
  | [] => .ok ()
  | (name, kind) :: rest => do
    match a.options.lookup name with
    | some values => checkOption kind values
    | none => pure ()
    checkOptions a rest

def isNested (a : Address) : Bool :=
  match a.options.lookup "uri" with
  | some [text] => (readTruth text).toOption.getD false
  | some _ => true
  | none => false

/-- Options for which there is no driver belong to the name of the database. -/
def checkName (a : Address) : Except Failure Unit :=
  let others := a.options.filter fun entry => (fileOptions.lookup entry.1).isNone
  if a.isNested && a.database.isNone && !others.isEmpty then .error .namelessDatabase else .ok ()

def drivers : List String := ["sqlite", "sqlite+base", "sqlite+pysqlite"]

def checkDriver (driver : String) : Except Failure Unit :=
  if 2 < (splitAt '+' driver).length then .error .manyDriverParts
  else if driver ∈ drivers then .ok ()
  else .error (.unknownDriver (replaced "+" "." driver))

def checkExtensions (a : Address) : Except Failure Unit :=
  match a.options.lookup "plugin" with
  | some (name :: _) => .error (.unknownExtension name)
  | _ => .ok ()

def withoutExtensions (a : Address) : Address :=
  { a with options := a.options.filter (·.1 ≠ "plugins") }

end Address

structure Engine where
  address : Address
  /-- Whether all sessions share one connection: each connection to memory has its own database. -/
  shared : Bool
  deriving DecidableEq, Repr

namespace Engine

def open? (text : String) : Except Failure Engine := do
  let written ← Address.read text
  written.checkExtensions
  let address := written.withoutExtensions
  Address.checkDriver address.driver
  if address.isRemote then throw (.remoteFile address.shown)
  address.checkOptions Address.fileOptions
  address.checkName
  return ⟨address, (after? "sqlite".toList text.toList).isSome && occursIn ":memory:" text⟩

/-- The engine for a given address; without one, or with the empty one, for that of the settings.
-/
def choose (text : Option String) (settings : Except Failure Settings) : Except Failure Engine := do
  match text.filter (· ≠ "") with
  | some text => open? text
  | none => open? (← settings).address

end Engine

/-- What makes sessions on an engine; they send nothing to the database before they are told to. -/
structure SessionSource where
  engine : Engine
  autoflush : Bool := false
  deriving DecidableEq, Repr

def SessionSource.make (engine : Option Engine) (settings : Except Failure Settings) :
    Except Failure SessionSource :=
  match engine with
  | some engine => .ok { engine }
  | none => (Engine.choose none settings).map fun engine => { engine }

end Winnow
