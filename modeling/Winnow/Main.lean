import Winnow.Console.Run

namespace Winnow.Console

def opensMark (c : Char) : Bool := c.isLower || c = '#' || c = '/' || c = '@'

/-- Leaves out the marks for colours; `inMark` between the brackets of one. -/
def dropMarks : Bool → List Char → List Char
  | _, [] => []
  | true, c :: cs => dropMarks (c != ']') cs
  | false, '[' :: c :: cs =>
    if opensMark c then dropMarks true cs else '[' :: dropMarks false (c :: cs)
  | false, c :: cs => c :: dropMarks false cs

def unmarked (text : String) : String := String.ofList (dropMarks false text.toList)

def Content.plain : Content → String
  | styled plainText => plainText
  | sql code => code
  | text marked => unmarked marked

def rowLine (cells : List String) : String := String.intercalate " | " cells

def Event.plain : Event → List String
  | blank => [""]
  | text marked => splitAt '\n' (unmarked marked)
  | panel title content =>
    (match title with | some t => [unmarked t ++ ":"] | none => []) ++ splitAt '\n' content.plain
  | table title headers rows => unmarked title :: rowLine headers :: rows.map rowLine

end Winnow.Console

namespace Winnow.Terminal

def readEnvironment : IO Environment := do
  let spellings := Settings.names.flatMap fun name =>
    ["REPOQL_" ++ name.map Char.toUpper, "repoql_" ++ name]
  let found ← spellings.mapM fun name => do
    return (← IO.getEnv name).map fun value => (name, value)
  return found.filterMap id

def display (events : List Console.Event) : IO Unit :=
  events.forM fun e => e.plain.forM IO.println

partial def talk (input : IO.FS.Stream) (s : Console.Session) : IO (Option Nat) := do
  IO.print "repoql: "
  (← IO.getStdout).flush
  let line ← input.getLine
  if line.isEmpty then
    display [Console.Event.goodbye]
    return none
  else
    let (events, next) := Console.answer .lenient s line
    display events
    match next with
    | .on s => talk input s
    | .ended code => return code

end Winnow.Terminal

def main : IO UInt32 := do
  let env ← Winnow.Terminal.readEnvironment
  let (events, session) := Winnow.Console.begin .lenient env
  Winnow.Terminal.display events
  match session with
  | some s =>
    let code ← Winnow.Terminal.talk (← IO.getStdin) s
    return UInt32.ofNat (code.getD 0)
  | none => return 1
