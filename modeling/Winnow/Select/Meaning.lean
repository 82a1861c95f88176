import Winnow.Select.Query
import Winnow.Store.Binding
import Winnow.Store.Pattern

namespace Winnow

structure Bound where
  table : TableDef
  row : List Cell
  deriving Repr

/-- The rows that stand side by side in a join. -/
abbrev Env := List Bound

namespace Env

def find? (env : Env) (c : ColumnRef) : Option Bound := List.find? (·.table.name = c.table) env

def cell (env : Env) (c : ColumnRef) : Cell :=
  match env.find? c with
  | some b => b.table.cell c.column b.row
  | none => .null

def type (env : Env) (c : ColumnRef) : ColumnType :=
  match (env.find? c).bind fun b => b.table.column? c.column with
  | some d => d.type
  | none => .str

end Env

namespace Comparison

def admits : Comparison → Ordering → Bool
  | eq, o => o == .eq
  | ne, o => o != .eq
  | lt, o => o == .lt
  | le, o => o != .gt
  | gt, o => o == .gt
  | ge, o => o != .lt
  | like, _ | notLike, _ => false

def likeTruth (a b : Cell) : Truth :=
  match a.text?, b.text? with
  | some s, some pattern => some (isLike pattern s)
  | _, _ => none

def truth (c : Comparison) (a b : Cell) : Truth :=
  match c with
  | like => likeTruth a b
  | notLike => (likeTruth a b).not
  | _ => (a.order b).map c.admits

theorem truth_negate (c : Comparison) (a b : Cell) : c.negate.truth a b = (c.truth a b).not := by
  cases c
  case like => rfl
  case notLike =>
    simp only [negate, truth, Truth.not]
    cases likeTruth a b with
    | none => rfl
    | some x => simp
  all_goals
    simp only [negate, truth, Truth.not]
    cases a.order b with
    | none => rfl
    | some o => cases o <;> rfl

end Comparison

/-- A comparison of a cell of a column of type `t` with a bound cell. -/
def compareBound (t : ColumnType) (c : Comparison) (a b : Cell) : Truth :=
  match c with
  | .like | .notLike => c.truth a b
  | _ => c.truth a (b.met t)

def compareValue (t : ColumnType) (c : Comparison) (a : Cell) (v : Value) : Truth :=
  compareBound t c a (Cell.ofValue (v.typeBeside t) v)

/-- Whether a cell of a column of type `t` equals one of some values. -/
def memberTruth (t : ColumnType) (a : Cell) (values : List Value) : Truth :=
  let bound := values.map (Cell.ofValue (Value.listType t values))
  bound.foldr (fun b rest => Truth.or (compareBound t .eq a b) rest) (some false)

namespace Test

def truth (t : ColumnType) (a : Cell) : Test → Truth
  | compare _ c v => compareValue t c a v
  | null _ negated => some ((a = .null) != negated)
  | between _ low high negated =>
    let inside := Truth.and (compareValue t .ge a low) (compareValue t .le a high)
    if negated then inside.not else inside
  | member _ values negated =>
    let found := memberTruth t a values
    if negated then found.not else found

def eval (env : Env) (t : Test) : Truth := t.truth (env.type t.column) (env.cell t.column)

theorem truth_negate (t : ColumnType) (a : Cell) (test : Test) :
    test.negate.truth t a = (test.truth t a).not := by
  have notNot (x : Truth) : x = x.not.not := by
    cases x with
    | none => rfl
    | some b => cases b <;> rfl
  cases test with
  | compare column c v =>
    cases c
    case eq => exact Comparison.truth_negate .eq _ _
    case ne => exact Comparison.truth_negate .ne _ _
    case lt => exact Comparison.truth_negate .lt _ _
    case le => exact Comparison.truth_negate .le _ _
    case gt => exact Comparison.truth_negate .gt _ _
    case ge => exact Comparison.truth_negate .ge _ _
    case like => exact Comparison.truth_negate .like _ _
    case notLike => exact Comparison.truth_negate .notLike _ _
  | null column negated =>
    have flip (x y : Bool) : (x != !y) = !(x != y) := by cases x <;> cases y <;> rfl
    exact congrArg some (flip _ _)
  | between column low high negated =>
    cases negated
    · rfl
    · exact notNot _
  | member column values negated =>
    cases negated
    · rfl
    · exact notNot _

end Test

namespace Clause

/-- An element of a `WHERE` list is true when one of its alternatives is. -/
def eval (env : Env) (c : Clause) : Truth :=
  c.others.foldl (fun t test => Truth.or t (test.eval env)) (c.first.eval env)

end Clause

namespace JoinOn

def eval (env : Env) (on : JoinOn) : Truth :=
  let l := env.type on.left
  let r := env.type on.right
  let a := env.cell on.left
  let b := env.cell on.right
  match on.comparison with
  | .like | .notLike => on.comparison.truth a b
  | c =>
    c.truth (if l.isTextual && !r.isTextual then a.numeric else a)
      (if r.isTextual && !l.isTextual then b.numeric else b)

end JoinOn

namespace Source

def nullEnv (s : Source) : Env := s.tables.map fun t => ⟨t, t.nullRow⟩

/-- Whether two rows may stand side by side; a condition that names a table which is not there yet
does not stop them. -/
def joins (on : JoinOn) (env : Env) : Bool :=
  !on.isWithin (env.map (·.table)) || (on.eval env).isTrue

/-- The rows of `right` that match `a`; an outer join keeps `a` when there are none. -/
def joinRow (on : JoinOn) (outer : Bool) (nulls : Env) (right : List Env) (a : Env) : List Env :=
  let found := right.filter fun b => joins on (a ++ b)
  if outer && found.isEmpty then [a ++ nulls] else found.map (a ++ ·)

/-- Whether a row keeps the conditions that name tables further on. -/
def keepsLate (s : Source) (env : Env) : Bool := s.late.all fun on => (on.eval env).isTrue

def rows (ts : Tables) : Source → List Env
  | table t => (ts.rowsOf t.name).map fun row => [⟨t, row⟩]
  | join left right on outer =>
    let all := (right.rows ts).filter right.keepsLate
    (left.rows ts).flatMap (joinRow on outer right.nullEnv all)

end Source

def crossRows (ts : Tables) (envs : List Env) : List TableDef → List Env
  | [] => envs
  | t :: rest =>
    let rows := ts.rowsOf t.name
    crossRows ts (envs.flatMap fun env => rows.map fun row => env ++ [⟨t, row⟩]) rest

def compareRows (orders : List (ColumnRef × Direction)) (a b : Env) : Ordering :=
  match orders with
  | [] => .eq
  | (c, direction) :: rest =>
    let o := Cell.sortOrder (a.cell c) (b.cell c)
    let o := match direction with
      | .ascending => o
      | .descending => o.swap
    match o with
    | .eq => compareRows rest a b
    | o => o

namespace Select

def sourceRows (q : Select) (ts : Tables) : List Env :=
  (crossRows ts (q.source.rows ts) q.beside).filter q.source.keepsLate

def matched (q : Select) (ts : Tables) : List Env :=
  (q.sourceRows ts).filter fun env => q.clauses.all fun c => (c.eval env).isTrue

/-- The rows of the query in order; rows that no sort term tells apart keep their order. -/
def sorted (q : Select) (ts : Tables) : List Env :=
  (q.matched ts).mergeSort fun a b => compareRows q.orders a b != .gt

end Select

end Winnow
