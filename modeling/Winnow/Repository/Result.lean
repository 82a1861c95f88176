import Winnow.Repository.Basic
import Winnow.Select.Result

namespace Winnow.Repository

def execute {α : Type} (r : Repository) (run : Tables → Select → Except Failure α) :
    Step α := fun s =>
  let renewed (d : Desk Select) : State :=
    { s with desk := { d with session := Session.new r.scopedQuery }, strings := {} }
  match Desk.execute (run s.database.current) s.desk with
  | .ok a d => .ok a (renewed d)
  | .error e d => .error e (renewed d)

/-- The keys of hidden columns in the result of a query. A column under an alias is not hidden. -/
def concealedKeys (r : Repository) (q : Select) : List String :=
  q.selected.filterMap fun o =>
    match o.expr, o.label with
    | .column c, none =>
      if c.table = r.model.table.name ∧ c.column ∈ r.model.hidden then some c.column else none
    | _, _ => none

/-- The rows of a query in a window, without their hidden columns. -/
def fetch (r : Repository) (w : Window) (ts : Tables) (q : Select) :
    Except Failure (List Row) :=
  (q.fetch ts w).map fun rows => rows.map fun row =>
    row.filter fun entry => entry.1 ∉ r.concealedKeys q

def all (r : Repository) : Step (List Row) := r.execute (r.fetch {})

def first (r : Repository) : Step (Option Row) := do
  return (← r.execute (r.fetch { limit := some 1 })).head?

def count (r : Repository) : Step Nat := r.execute fun ts q => q.count ts

/-- The number of rows on a page: the given one, unless it is zero. -/
def pageSize (r : Repository) (perPage : Option Int) : Int :=
  match perPage with
  | some n => if n = 0 then r.perPage else n
  | none => r.perPage

def checkSize (size : Int) : Except Failure Nat :=
  if size < 1 then .error (.invalid [⟨[.field "per_page"], .atLeast 1⟩]) else .ok size.toNat

def page (r : Repository) (perPage : Option Int) (page : Int) : Step Page := do
  let size := r.pageSize perPage
  let page := max page 1
  let strings := (← get).strings
  r.execute fun ts q => do
    let total ← q.count ts
    let items ← r.fetch { limit := some size, offset := (page - 1) * size } ts q
    let perPage ← checkSize size
    return { items, total, perPage, currentPage := page.toNat, query := strings }

/-- The rows of one page; one row more tells whether others follow. -/
def openPage (r : Repository) (perPage : Option Int) (page : Int) : Step OpenPage := do
  let size := r.pageSize perPage
  let page := max page 1
  let strings := (← get).strings
  r.execute fun ts q => do
    let rows ← r.fetch { limit := some (size + 1), offset := (page - 1) * size } ts q
    let perPage ← checkSize size
    return { items := rows.take perPage, perPage, currentPage := page.toNat,
             hasMore := perPage < rows.length, query := strings }

structure Listing where
  search : Option String := none
  filter : Option String := none
  sort : Option String := none
  perPage : Option Int := none
  page : Int := 1

def Listing.names : List String := ["search", "filter", "sort", "per_page", "page"]

def Listing.ofFields (fields : List (String × Value)) : Except Failure Listing :=
  let text (name : String) : Option String :=
    match fields.lookup name with
    | some (.text s) => some s
    | _ => none
  let number (name : String) : Option Int :=
    match fields.lookup name with
    | some (.int n) => some n
    | _ => none
  match fields.find? fun f => f.1 ∉ names with
  | some f => .error (.unexpectedArgument f.1)
  | none => .ok ⟨text "search", text "filter", text "sort", number "per_page",
      (number "page").getD 1⟩

def listing (r : Repository) (listing : Listing) : Step OpenPage := do
  r.search listing.search
  r.filter listing.filter none
  r.sort listing.sort none
  r.openPage listing.perPage listing.page

end Winnow.Repository
