import Winnow.Sql.Gather

namespace Winnow.Sql

/-- A row among the rows of its partition in order. -/
structure Ranked where
  /-- How many rows come before it. -/
  place : Nat
  /-- How many rows come before its peers. -/
  before : Nat
  /-- How many rows there are up to the last of its peers. -/
  upTo : Nat
  /-- How many sets of peers come before its own. -/
  sets : Nat
  /-- The arguments that the rows give, in order. -/
  rows : List (List Cell)

namespace Ranked

/-- A row by its place and the keys and arguments of all rows in order, where `same` tells peers.
-/
def of {α : Type} (same : α → α → Bool) (place : Nat) (rows : List (α × List Cell)) : Ranked :=
  let keys := rows.map (·.1)
  let isPeer (k : α) : Bool := keys[place]?.any (same k)
  let before := (keys.takeWhile fun k => !isPeer k).length
  let sets := ((keys.take before).foldl (fun (done : List α) k =>
    if done.any (same k) then done else k :: done) []).length
  { place, before, sets
    upTo := before + (keys.countP isPeer)
    rows := rows.map (·.2) }

def argument (r : Ranked) (place : Nat) : Option Cell := r.rows[place]?.bind List.head?

/-- The number of the part that a row is in, when the rows are cut into parts of nearly one size.
-/
def part (r : Ranked) (count : Nat) : Nat :=
  let size := r.rows.length / count
  let larger := r.rows.length % count
  let inLarger := larger * (size + 1)
  if r.place < inLarger then r.place / (size + 1) + 1
  else larger + (r.place - inLarger) / size + 1

def quotient (a b : Nat) : Cell := .real ((Binary64.ofInt a).div (Binary64.ofInt b))

/-- What a function, by its name in small letters, makes of the row. -/
def run (function : String) (r : Ranked) : Cell :=
  let args := (r.rows[r.place]?).getD []
  let size := r.rows.length
  let distance := ((args[1]?).map Cell.toInteger).getD 1
  let otherwise := (args[2]?).getD .null
  let near (place : Int) : Cell :=
    if 0 ≤ place then (r.argument place.toNat).getD otherwise else otherwise
  match function with
  | "row_number" => .int (r.place + 1)
  | "rank" => .int (r.before + 1)
  | "dense_rank" => .int (r.sets + 1)
  | "percent_rank" => if size ≤ 1 then .real Binary64.zero else quotient r.before (size - 1)
  | "cume_dist" => quotient r.upTo size
  | "ntile" =>
    let count := ((args.head?).map Cell.toInteger).getD 0
    if count ≤ 0 then .null else .int (r.part count.toNat)
  | "first_value" => (r.argument 0).getD .null
  | "last_value" => (r.argument (r.upTo - 1)).getD .null
  | "nth_value" =>
    if 0 < distance && distance ≤ r.upTo then (r.argument (distance.toNat - 1)).getD .null
    else .null
  | "lag" => near (r.place - distance)
  | "lead" => near (r.place + distance)
  | _ => .null

end Ranked

end Winnow.Sql
