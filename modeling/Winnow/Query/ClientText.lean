import Winnow.Grammar.Order
import Winnow.Grammar.Predicate
import Winnow.Query.Join

namespace Winnow

namespace Predicate

/-- The calls that a predicate stands for. An empty bound of a range is absent. -/
def calls (p : Predicate) : Except Failure (List Call) :=
  let column := p.column
  let single (f : String → Call) : Except Failure (List Call) :=
    match p.operands with
    | v :: _ => .ok [f v]
    | [] => .error .noOperand
  let bounds (f : String → String → List Call) : Except Failure (List Call) :=
    match p.operands with
    | [low, high] => .ok (f low high)
    | _ :: _ :: _ => .error .tooManyBounds
    | few => .error (.tooFewBounds few.length)
  let containing (v : String) : Value := .text ("%" ++ v ++ "%")
  match p.kind with
  | .equal => single fun v => .filter column "=" (.text v)
  | .notEqual => single fun v => .filter column "!=" (.text v)
  | .like => single fun v => .filter column "like" (containing v)
  | .notLike => single fun v => .filter column "not like" (containing v)
  | .above => single fun v => .filter column ">" (.text v)
  | .below => single fun v => .filter column "<" (.text v)
  | .notAbove => single fun v => .filterNot column ">" (.text v)
  | .notBelow => single fun v => .filterNot column "<" (.text v)
  | .oneOf => .ok [.filterIn column (.ok (p.operands.map .text))]
  | .notOneOf => .ok [.filterNotIn column (.ok (p.operands.map .text))]
  | .isNull => .ok [.filterNull column]
  | .isNotNull => .ok [.filterNotNull column]
  | .between => bounds fun low high =>
      (if low = "" then [] else [.filter column ">=" (.text low)]) ++
        (if high = "" then [] else [.filter column "<=" (.text high)])
  | .notBetween => bounds fun low high =>
      if low = "" then
        if high = "" then [] else [.filterNot column "<=" (.text high)]
      else if high = "" then [.filterNot column ">=" (.text low)]
      else [.filterNotBetween column (.ok [.text low, .text high])]

end Predicate

namespace Desk

variable {Q : Type} [QueryTarget Q]

def column (cat : Catalog) (use : Use) (given : String) : Build Q (Option FoundColumn) := do
  take (cat.book.column use (cat.allowed use) given (← get).memory)

/-- Works the segments of a text off in order. A condition whose column may be used and whose
expression compiles is sent to the query, after the joins that its column needs. -/
def work {α : Type} (cat : Catalog) (use : Use) (compile : String → String → Option α)
    (send : α → Build Q Unit) : List Segment → Build Q (List α)
  | [] => pure []
  | .malformed text :: rest => do
    note (.malformedSegment text)
    work cat use compile send rest
  | .condition c :: rest => do
    match ← column cat use c.column with
    | none =>
      note (.columnRefused use c.column)
      work cat use compile send rest
    | some resolved =>
      match compile resolved.column c.expression with
      | none =>
        note (.expressionRefused use c.expression resolved.column)
        work cat use compile send rest
      | some a =>
        note (.columnUsed use c.column resolved.source resolved.column)
        match resolved.relation with
        | some relation => join cat (.named (.text relation))
        | none => pure ()
        enter
        send a
        let applied ← work cat use compile send rest
        return a :: applied

def workText {α : Type} (cat : Catalog) (use : Use) (compile : String → String → Option α)
    (send : α → Build Q Unit) (raw : Option String) (limit : Option Int) : Build Q (List α) := do
  let segments ← ofExcept
    (Segment.scan cat.separator (some (limit.getD (cat.limit use))) (raw.getD ""))
  work cat use compile send segments

def sendPredicate (p : Predicate) : Build Q Unit := do
  issueAll (← ofExcept p.calls)

def sendOrder (o : Order) : Build Q Unit :=
  issue (.orderBy o.column o.direction.name)

def filter (cat : Catalog) (raw : Option String) (limit : Option Int) :
    Build Q (List Predicate) :=
  workText cat .filter Predicate.compile sendPredicate raw limit

def sort (cat : Catalog) (raw : Option String) (limit : Option Int) : Build Q (List Order) :=
  workText cat .sort Order.compile sendOrder raw limit

/-- The calls of a search: a match in the first column, or in one of the others. -/
def searchCalls (cat : Catalog) (term : String) : List Call :=
  let pattern : Value := .text ("%" ++ term ++ "%")
  match cat.searchable.map cat.book.qualify with
  | [] => []
  | first :: others =>
    .filter first "like" pattern :: others.map fun column => .orFilter column "like" pattern

def search (cat : Catalog) (term : Option String) : Build Q Unit := do
  match term with
  | none => pure ()
  | some term =>
    if term = "" || cat.searchable.isEmpty then pure ()
    else
      enter
      issueAll (searchCalls cat term)

end Desk

end Winnow
