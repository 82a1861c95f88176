import Winnow.Console.Event
import Winnow.Demo.Models
import Winnow.Repository.Result
import Winnow.Select.Text
import Winnow.Store.Engine

namespace Winnow.Console

open Event

def profile : Relation where
  chain := [("users.pic_id", "user_pictures.id")]
  entries := ["user_pictures.path AS photo"]
  filterable := ["photo"]
  sortable := ["photo"]
  softDelete := ["user_pictures"]

def role : Relation where
  chain := [("users.role_id", "roles.id")]
  entries := ["roles.title AS role"]
  filterable := ["role"]
  sortable := ["role"]
  joinKind := .left

def users (settings : Settings) : Repository :=
  .define Demo.user Demo.schema settings [("profile", profile), ("role", role)]
    ["id", "name", "status"] ["id", "name"] ["name", "email"] false

/-- A repository with the query built so far. -/
structure Session where
  repository : Repository
  state : Repository.State

def Session.start (settings : Settings) (db : Database) : Except Failure Session := do
  let r := users settings
  return ⟨r, ← r.start db⟩

def cellText : Value → String
  | .null => "NULL"
  | .text s => s
  | .moment m => m.spelled " "
  | v => v.shown

def results : List Row → Event
  | [] => text "[dim]No results found.[/dim]"
  | row :: rows =>
    table ("[bold cyan]Results (" ++ toString (rows.length + 1) ++ " rows)[/bold cyan]")
      (row.map (·.1)) ((row :: rows).map fun r => r.map fun entry => cellText entry.2)

/-- Whether a query was put together wrongly, so that it is given up. -/
def isConfigurationFailure : Failure → Bool
  | .unknownTable _ | .unknownColumn .. | .unsupportedOperator _ => true
  | _ => false

def showQuery : Repository.Step Event := do
  let s ← get
  return query (← Repository.atDesk (Desk.ofExcept (s.desk.session.query.sql .placeholders)))

/-- What a line comes to: what is shown, and the session that goes on, unless the console breaks
off. -/
structure Turn where
  events : List Event
  session : Session
  broken : Bool := false

def Turn.behind (shown : List Event) (t : Turn) : Turn := { t with events := shown ++ t.events }

/-- Shows the message of a failure. If that is refused the console breaks off. -/
def complain (d : Drawing) (s : Session) (title message : String) : Turn :=
  match d.refusal (error title message) with
  | none => { events := [error title message], session := s }
  | some _ => { events := [], session := s, broken := true }

def present (d : Drawing) (s : Session) (events : List Event) : Turn :=
  match d.draw events with
  | (shown, none) => { events := shown, session := s }
  | (shown, some message) => (complain d s "Unexpected Error" message).behind shown

def recover (d : Drawing) (s : Session) (e : Failure) (state : Repository.State) : Turn :=
  if isConfigurationFailure e then
    let fresh := match s.repository.start state.database with
      | .ok state => state
      | .error _ => state
    complain d { s with state := fresh } "Configuration Error" e.explanation
  else complain d { s with state } "Unexpected Error" e.explanation

def act (d : Drawing) (s : Session) (step : Repository.Step (List Event)) : Turn :=
  match step s.state with
  | .ok events state => present d { s with state } events
  | .error e state => recover d s e state

def runQuery (d : Drawing) (s : Session) : Turn :=
  match showQuery s.state with
  | .error e state => recover d s e state
  | .ok shown state =>
    match d.refusal shown with
    | some message => complain d { s with state } "Unexpected Error" message
    | none =>
      (act d { s with state } (do return [results (← s.repository.all)])).behind [shown]

/-- The command at the start of a line, in small letters, and its argument. -/
def splitLine (line : String) : String × String :=
  let (command, argument) := (cut ' ' line).getD (line, "")
  (lower command, argument)

def command (d : Drawing) (s : Session) (line : String) : Turn :=
  let (name, argument) := splitLine line
  let r := s.repository
  let apply (step : Repository.Step Unit) : Turn :=
    act d s (do step; return [done (name ++ " applied")])
  match name with
  | "filter" => apply (r.filter (some argument) none)
  | "sort" => apply (r.sort (some argument) none)
  | "search" => apply (r.search (some argument))
  | "join" => apply (r.join (.named (.text argument)))
  | "sql" => act d s (do return [← showQuery])
  | "run" => runQuery d s
  | "reset" => act d s (do r.reset; return [done "Query reset"])
  | _ => present d s
      [error "Unknown Command" ("'" ++ name ++ "' - type 'help' for commands")]

def isFarewell (line : String) : Bool := ["exit", "quit", "q"].contains (lower line)

def turn (d : Drawing) (s : Session) (typed : String) : Turn :=
  let line := stripped typed
  if line = "" then { events := [], session := s }
  else if lower line = "help" then present d s [help]
  else command d s line

/-- Where a console stands after a line: it goes on, or it ends, with a code if it broke off. -/
inductive Next where
  | on (s : Session)
  | ended (code : Option Nat)

def answer (d : Drawing) (s : Session) (typed : String) : List Event × Next :=
  if isFarewell (stripped typed) then ([goodbye], .ended none)
  else
    let t := turn d s typed
    (t.events, if t.broken then .ended (some 1) else .on t.session)

/-- What lines show, and the exit code; when there are no more lines, the person is gone. -/
def answerAll (d : Drawing) (s : Session) : List String → List Event × Option Nat
  | [] => ([goodbye], none)
  | line :: lines =>
    match answer d s line with
    | (events, .ended code) => (events, code)
    | (events, .on s) => (events ++ (answerAll d s lines).1, (answerAll d s lines).2)

/-- The engine and the tables, as the settings of an environment tell. -/
def prepare (env : Environment) : Except Failure Session := do
  let settings := Checked.answer (Settings.read env [])
  let _ ← Engine.choose none settings
  Session.start (← settings) (Database.ofTables Demo.tables)

/-- How a console begins: what it shows, and the session, unless it failed to start. -/
def begin (d : Drawing) (env : Environment) : List Event × Option Session :=
  let opening := header ++ [text "[dim]Initializing...[/dim]"]
  match prepare env with
  | .ok s =>
    (opening ++ [done "Demo schema created and seeded", blank,
      text "[dim]Type 'help' for available commands.[/dim]", blank], some s)
  | .error e =>
    (opening ++ (d.draw [error "Initialization Error" e.explanation,
      text "\n[dim]Make sure your .env file is configured correctly.[/dim]"]).1, none)

def run (env : Environment) (lines : List String) (d : Drawing := .lenient) :
    List Event × Option Nat :=
  match begin d env with
  | (events, none) => (events, some 1)
  | (events, some s) => (events ++ (answerAll d s lines).1, (answerAll d s lines).2)

end Winnow.Console
