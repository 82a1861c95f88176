import Winnow.Failure
import Winnow.Text.Split

namespace Winnow

structure Condition where
  column : String
  expression : String
  deriving DecidableEq, Repr

inductive Segment where
  | condition (c : Condition)
  | malformed (text : String)
  deriving DecidableEq, Repr

namespace Segment

def read (text : String) : Segment :=
  match halves ':' text with
  | some (column, expression) => condition ⟨column, expression⟩
  | none => malformed text

def condition? : Segment → Option Condition
  | condition c => some c
  | malformed _ => none

def upTo : Nat → List Segment → List Segment
  | 0, _ => []
  | _ + 1, [] => []
  | n + 1, malformed text :: rest => malformed text :: upTo (n + 1) rest
  | n + 1, condition c :: rest => condition c :: upTo n rest

/-- The segments that are read under a limit; malformed ones do not count. -/
def within (limit : Option Int) (segments : List Segment) : List Segment :=
  match limit with
  | none => segments
  | some n => upTo n.toNat segments

def scan (separator : String) (limit : Option Int) (raw : String) :
    Except Failure (List Segment) :=
  if raw = "" || limit.any (· < 1) then .ok []
  else match splitOn? separator raw with
    | none => .error .emptySeparator
    | some pieces => .ok (within limit (pieces.map read))

end Segment

namespace Condition

def parse (separator : String) (limit : Option Int) (raw : Option String) :
    Except Failure (List Condition) :=
  (Segment.scan separator limit (raw.getD "")).map (·.filterMap Segment.condition?)

def written (c : Condition) : String :=
  c.column ++ ":" ++ c.expression

end Condition

theorem Segment.conditions_upTo (n : Nat) (segments : List Segment) :
    (upTo n segments).filterMap condition? = (segments.filterMap condition?).take n := by
  induction segments generalizing n with
  | nil => cases n <;> simp [upTo]
  | cons s rest ih =>
    cases n with
    | zero => simp [upTo]
    | succ n => cases s <;> simp [upTo, List.filterMap_cons, condition?, ih]

end Winnow
