import Winnow.Text.Split

namespace Winnow.Console

inductive Content where
  /-- Text whose pieces have colours of their own. -/
  | styled (text : String)
  | sql (code : String)
  /-- Text with marks for colours. -/
  | text (marked : String)
  deriving DecidableEq, Repr

inductive Event where
  | blank
  | text (marked : String)
  | panel (title : Option String) (content : Content)
  | table (title : String) (headers : List String) (rows : List (List String))
  deriving DecidableEq, Repr

namespace Event

def header : List Event :=
  [blank, panel none (.styled "RepoQL - Query String Console"), blank]

def done (message : String) : Event := text ("[green]✓[/green] " ++ message)

def goodbye : Event := text "\n[dim]Goodbye![/dim]\n"

def error (title message : String) : Event :=
  panel (some ("[bold red]" ++ title ++ "[/bold red]")) (.text ("[red]" ++ message ++ "[/red]"))

def commands : List (String × String) :=
  [("filter <raw>", "Apply a filter string"), ("sort <raw>  ", "Apply a sort string"),
    ("search <term>", "Search name and email"), ("join <name> ", "Join a relation (profile, role)"),
    ("sql         ", "Show the SQL built so far"),
    ("run         ", "Execute and start a new query"),
    ("reset       ", "Discard the current query"), ("exit        ", "Exit the application")]

def examples : List String :=
  ["filter status:is_not-null@profile.photo:like_a",
    "filter id:between_2,4@role.role:not_equal_admin", "sort profile.photo:desc@id:asc"]

def helpText : String :=
  "Available Commands:\n" ++
    String.join (commands.map fun c => "  " ++ c.1 ++ " " ++ "- " ++ c.2 ++ "\n") ++
    "\nExamples:\n" ++ String.join (examples.map fun e => "  " ++ e ++ "\n")

def help : Event := panel (some "[bold]Help[/bold]") (.styled helpText)

def spread (sql : String) : String :=
  [(" FROM ", "\nFROM "), (" JOIN ", "\n  JOIN "), (" WHERE ", "\nWHERE "),
    (" ORDER BY ", "\nORDER BY "), (" AND ", "\n  AND ")].foldl
      (fun text change => replaced change.1 change.2 text) sql

def query (code : String) : Event :=
  panel (some "[bold yellow]Generated SQL[/bold yellow]") (.sql (spread code))

/-- Whether marked text from outside stands in an event: other marks are the console's own. -/
def isForeign : Event → Bool
  | panel _ (.text _) | table .. => true
  | _ => false

end Event

/-- How events are drawn. Where text from outside stands among the marks an event may be refused,
with a message. -/
structure Drawing where
  refusal : Event → Option String
  own : ∀ e : Event, e.isForeign = false → refusal e = none

namespace Drawing

def lenient : Drawing := ⟨fun _ => none, fun _ _ => rfl⟩

/-- The events that are drawn before the first one that is refused, and the message of that. -/
def draw (d : Drawing) : List Event → List Event × Option String
  | [] => ([], none)
  | e :: es =>
    match d.refusal e with
    | some message => ([], some message)
    | none => (e :: (d.draw es).1, (d.draw es).2)

end Drawing

end Winnow.Console
