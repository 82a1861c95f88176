import Winnow.Model.Basic
import Winnow.Page
import Winnow.Query.ClientText
import Winnow.Select.Query
import Winnow.Settings
import Winnow.Store.Table

namespace Winnow

structure Repository where
  model : Model
  schema : Schema
  catalog : Catalog
  /-- Whether rows are marked as trashed instead of removed. -/
  softDeletes : Bool := false
  /-- The number of rows on a page where the caller gives none. -/
  perPage : Int := 15

namespace Repository

structure State where
  desk : Desk Select
  /-- The texts that went into the query. -/
  strings : PageTexts := {}
  database : Database

/-- A step of a repository. One that fails leaves behind what it did before it failed. -/
abbrev Step := EStateM Failure State

/-- The lists of a model's clients, with the limits of the settings. -/
def define (model : Model) (schema : Schema) (settings : Settings)
    (relations : List (String × Relation)) (filterable sortable searchable : List String)
    (softDeletes : Bool) : Repository where
  model := model
  schema := schema
  softDeletes := softDeletes
  perPage := settings.perPage
  catalog :=
    { book := ⟨model.table.name, relations⟩
      filterable, sortable, searchable
      visible := schema.defaultColumns model.table.name model.hidden settings.softDeleteColumn
      separator := settings.separator
      filterLimit := settings.filterLimit
      sortLimit := settings.sortLimit
      softDeleteColumn := settings.softDeleteColumn }

/-- The calls that every query starts with: trashed rows are left out. -/
def scopeCalls (r : Repository) : List Call :=
  if r.softDeletes then
    [.filterNull (r.model.table.qualified r.catalog.softDeleteColumn)]
  else []

def bareQuery (r : Repository) : Select := .new r.schema r.model.table

def callAll : List Call → EStateM Failure Select Unit
  | [] => pure ()
  | c :: cs => do QueryTarget.call c; callAll cs

def scopedQuery (r : Repository) (_ : Nat) : Select :=
  match callAll r.scopeCalls r.bareQuery with
  | .ok _ q => q
  | .error _ q => q

def start (r : Repository) (db : Database) : Except Failure State :=
  match callAll r.scopeCalls r.bareQuery with
  | .ok _ _ => .ok { desk := { session := Session.new r.scopedQuery }, database := db }
  | .error e _ => .error e

def atDesk {α : Type} (step : Build Select α) : Step α := fun s =>
  match step s.desk with
  | .ok a d => .ok a { s with desk := d }
  | .error e d => .error e { s with desk := d }

def filled? (text : Option String) : Option String := text.filter (· ≠ "")

def withText (text : Option String) (f : String → Step Unit) : Step Unit :=
  match filled? text with
  | some s => f s
  | none => pure ()

def remember (f : PageTexts → PageTexts) : Step Unit :=
  modify fun s => { s with strings := f s.strings }

def filter (r : Repository) (raw : Option String) (limit : Option Int) : Step Unit :=
  withText raw fun text => do
    remember ({ · with filter := some text })
    let _ ← atDesk (Desk.filter r.catalog (some text) limit)

def sort (r : Repository) (raw : Option String) (limit : Option Int) : Step Unit :=
  withText raw fun text => do
    remember ({ · with sort := some text })
    let _ ← atDesk (Desk.sort r.catalog (some text) limit)

def search (r : Repository) (term : Option String) : Step Unit :=
  withText term fun text => do
    remember ({ · with search := some text })
    atDesk (Desk.search r.catalog (some text))

def join (r : Repository) (ref : RelationRef) : Step Unit := atDesk (Desk.join r.catalog ref)

def joins (r : Repository) (refs : List RelationRef) : Step Unit :=
  atDesk (Desk.joinAll r.catalog refs)

/-- Sends a test of the caller's own; its column need not be listed. -/
def restrict (column operator : String) (value : Value) : Step Unit :=
  atDesk do
    Desk.enter
    Desk.issue (.filter column operator value)

def callQuery (c : Call) : Step Unit := atDesk (Desk.issue c)

def reset (r : Repository) : Step Unit := do
  atDesk (Desk.reset r.scopedQuery)
  remember fun _ => {}

end Repository

end Winnow
