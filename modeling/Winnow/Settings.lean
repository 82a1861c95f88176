import Winnow.Input.Checked
import Winnow.Text.Case

namespace Winnow

structure Settings where
  address : String := "sqlite+pysqlite:///:memory:"
  separator : String := "@"
  filterLimit : Int := 5
  sortLimit : Int := 2
  perPage : Int := 15
  softDeleteColumn : String := "deleted_at"
  deriving DecidableEq, Repr

/-- Variables with their values, in the order in which they were first set. -/
abbrev Environment := List (String × String)

namespace Environment

def put (name value : String) : Environment → Environment
  | [] => [(name, value)]
  | (n, v) :: rest => if n = name then (n, value) :: rest else (n, v) :: put name value rest

/-- The value of a setting; of several spellings the last one counts. -/
def setting? (env : Environment) (name : String) : Option String :=
  (env.reverse.find? fun entry => lower entry.1 = "repoql_" ++ name).map (·.2)

end Environment

namespace Settings

def names : List String :=
  ["database_url", "condition_separator", "filter_limit", "sort_limit", "per_page",
    "soft_delete_column"]

/-- The fields that are given: a direct value comes before one of the environment. -/
def given (env : Environment) (values : List (String × Value)) : List (String × Value) :=
  names.filterMap fun name =>
    match values.lookup name with
    | some v => some (name, v)
    | none => (env.setting? name).map fun text => (name, .text text)

open Checked Reader in
def read (env : Environment) (values : List (String × Value)) : Checked Settings :=
  let fields := given env values
  let d : Settings := {}
  (both (field fields "database_url" (some d.address) string)
    (both (field fields "condition_separator" (some d.separator) filledString)
      (both (field fields "filter_limit" (some d.filterLimit) (integerFrom 1))
        (both (field fields "sort_limit" (some d.sortLimit) (integerFrom 1))
          (both (field fields "per_page" (some d.perPage) (integerFrom 1))
            (field fields "soft_delete_column" (some d.softDeleteColumn) string)))))).map fun p =>
    ⟨p.1, p.2.1, p.2.2.1, p.2.2.2.1, p.2.2.2.2.1, p.2.2.2.2.2⟩

end Settings

/-- The settings as they were read first; kept until they are cleared. -/
structure SettingsStore where
  env : Environment := []
  kept : Option Settings := none

namespace SettingsStore

/-- The settings kept, or those of the environment. Settings that do not pass are not kept. -/
def get (s : SettingsStore) : Except Failure Settings × SettingsStore :=
  match s.kept with
  | some settings => (.ok settings, s)
  | none =>
    match Settings.read s.env [] with
    | .ok settings => (.ok settings, { s with kept := some settings })
    | .error problems => (.error (.invalid problems), s)

def setVariable (name value : String) (s : SettingsStore) : SettingsStore :=
  { s with env := s.env.put name value }

def clear (s : SettingsStore) : SettingsStore := { s with kept := none }

end SettingsStore

end Winnow
