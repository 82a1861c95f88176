import Winnow.Sql.Call

namespace Winnow.Sql

namespace Gather

/-- Whether two rows hold the same; nulls are the same here, and so are `1` and `1.0`. -/
def sameCells : List Cell → List Cell → Bool
  | a :: as, b :: bs => Cell.sortOrder a b == .eq && sameCells as bs
  | [], [] => true
  | _, _ => false

def distinctRows (rows : List (List Cell)) : List (List Cell) :=
  (rows.foldl (fun (done : List (List Cell)) row =>
    if done.any (sameCells row) then done else row :: done) []).reverse

def wholeSum : Int → List Int → Option Int
  | total, [] => some total
  | total, n :: ns => if isInt64 (total + n) then wholeSum (total + n) ns else none

def integer? : Cell → Option Int
  | .int n => some n
  | _ => none

def realSum (cells : List Cell) : Binary64 :=
  Binary64.sum (cells.map fun c => c.toReal)

def sum (cells : List Cell) : Except Fault Cell :=
  if cells.isEmpty then .ok .null
  else
    let integers := (cells.map Cell.numeric).filterMap integer?
    if integers.length < cells.length then .ok (Cell.ofReal (realSum cells))
    else match wholeSum 0 integers with
      | some n => .ok (.int n)
      | none => .error .integerOverflow

def average (cells : List Cell) : Cell :=
  if cells.isEmpty then .null
  else Cell.ofReal ((realSum cells).div (Binary64.ofInt cells.length))

/-- The texts of some rows, each but the first with its separator before it. -/
def joined (separated : List (Cell × Cell)) : Cell :=
  match separated with
  | [] => .null
  | (first, _) :: rest =>
    .text ((first.text?.getD "") ++ String.join (rest.map fun p =>
      (p.2.text?.getD "") ++ (p.1.text?.getD "")))

/-- What an aggregate, by its name in small letters, makes of rows of arguments. -/
def run (function : String) (rows : List (List Cell)) : Except Fault Cell :=
  let firsts := (rows.filterMap List.head?).filter (· != .null)
  match function with
  | "count" => .ok (.int (if rows.all List.isEmpty then rows.length else firsts.length))
  | "sum" => sum firsts
  | "total" => .ok (.real (realSum firsts))
  | "avg" => .ok (average firsts)
  | "max" => .ok (if firsts.isEmpty then .null else Call.extreme .gt firsts)
  | "min" => .ok (if firsts.isEmpty then .null else Call.extreme .lt firsts)
  | "group_concat" | "string_agg" =>
    .ok (joined ((rows.filter fun row => row.head? != some .null).filterMap fun row =>
      row.head?.map fun c => (c, (row.drop 1).head?.getD (.text ","))))
  | _ => .ok .null

end Gather

end Winnow.Sql
