import Winnow.Sql.Function
import Winnow.Sql.Gather

namespace Winnow.Sql

namespace Grouping

/-- Whether an expression takes something from all rows of a group. -/
def isGathering : Nat → Expr → Bool
  | 0, _ => false
  | fuel + 1, e =>
    let go := isGathering fuel
    match e with
    | .literal _ | .whole _ | .blob _ | .parameter | .name .. | .exist _ | .scalar _ => false
    | .unary _ e | .isNull e _ | .cast e _ | .collate e _ | .inQuery e _ _ => go e
    | .binary _ a b => go a || go b
    | .between e low high _ => go e || go low || go high
    | .inList e es _ => go e || es.any go
    | .cases base whens otherwise =>
      base.any go || whens.any (fun p => go p.1 || go p.2) || otherwise.any go
    | .call f _ _ args filter =>
      Signature.isAggregate f args.length || args.any go || filter.any go
    | .over _ _ args _ _ _ => args.any go
    | .row es => es.any go

/-- The direction in which an expression looks for one row of a group, and what it compares: the
last `max` or `min` in it. -/
def extreme? : Nat → Expr → Option (Ordering × Expr)
  | 0, _ => none
  | fuel + 1, e =>
    let go := extreme? fuel
    match e with
    | .literal _ | .whole _ | .blob _ | .parameter | .name .. | .exist _ | .scalar _ => none
    | .unary _ e | .isNull e _ | .cast e _ | .collate e _ | .inQuery e _ _ => go e
    | .binary _ a b => (go b).or (go a)
    | .between e low high _ => ((go high).or (go low)).or (go e)
    | .inList e es _ => (es.reverse.findSome? go).or (go e)
    | .cases base whens otherwise =>
      ((otherwise.bind go).or (whens.reverse.findSome? fun p => (go p.2).or (go p.1))).or
        (base.bind go)
    | .call f _ _ [arg] _ =>
      if small f = "max" then some (.gt, arg)
      else if small f = "min" then some (.lt, arg)
      else go arg
    | .call _ _ _ args _ | .over _ _ args _ _ _ => args.reverse.findSome? go
    | .row es => es.reverse.findSome? go

def itemExpr? : Item → Option Expr
  | .expr e _ _ => some e
  | _ => none

/-- Puts rows with the same key together, in ascending order of the keys. -/
def grouped {α : Type} (keyed : List (List Cell × α)) : List (List α) :=
  let keys := (Gather.distinctRows (keyed.map (·.1))).mergeSort fun a b =>
    compareAll a b != .gt
  keys.map fun key => (keyed.filter fun p => Gather.sameCells p.1 key).map (·.2)
where
  compareAll : List Cell → List Cell → Ordering
    | a :: as, b :: bs => (Cell.sortOrder a b).then (compareAll as bs)
    | _, _ => .eq

def compareSorted : List (Cell × Bool) → List (Cell × Bool) → Ordering
  | (a, descending) :: as, (b, _) :: bs =>
    let o := Cell.sortOrder a b
    (if descending then o.swap else o).then (compareSorted as bs)
  | _, _ => .eq

def windowed {α : Type} (limit offset : Option Cell) (rows : List α) : List α :=
  let rest := rows.drop ((offset.map Cell.toInteger).getD 0).toNat
  match limit with
  | some c => if c.toInteger < 0 then rest else rest.take c.toInteger.toNat
  | none => rest

end Grouping

end Winnow.Sql
