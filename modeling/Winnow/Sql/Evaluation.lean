import Winnow.Sql.Frame
import Winnow.Sql.Grouping
import Winnow.Sql.Ranking

namespace Winnow.Sql

namespace Evaluation

open Grouping

def wholeCell (n : Int) : Cell := if isInt64 n then .int n else .real (Binary64.ofInt n)

/-- The text that bytes in hexadecimal digits write, between their quotes. -/
def blobText (raw : String) : String :=
  let rec bytes : List Char → List Nat
    | a :: b :: rest => (16 * (hexDigit? a).getD 0 + (hexDigit? b).getD 0) :: bytes rest
    | _ => []
  String.ofList (ofUtf8 (bytes ((raw.toList.drop 2).dropLast)))

def collation? : Expr → Option Collation
  | .collate _ order => Collation.ofName? order
  | .unary .plus (.collate _ order) => Collation.ofName? order
  | _ => none

def collation (a b : Expr) : Collation := ((collation? a).or (collation? b)).getD .binary

def negatedIf (negated : Bool) (t : Truth) : Cell := Cell.ofTruth (if negated then t.not else t)

/-- Whether a value is among others, unknown if it may be one that is null. -/
def among (meeting : Affinity) (order : Collation) (c : Cell) (cells : List Cell) : Truth :=
  cells.foldr (fun d rest => Truth.or (comparison .eq meeting order c d) rest) (some false)

mutual

def expr (db : Content) : Nat → List Frame → Expr → Except Fault Cell
  | 0, _, _ => .ok .null
  | fuel + 1, frames, e =>
    let scope : Scope := frames.map (·.sources)
    let go := expr db fuel frames
    let meeting (a b : Expr) : Affinity :=
      (Resolution.affinity scope a).meet (Resolution.affinity scope b)
    let compare (o : Operator) (a b : Expr) : Except Fault Truth := do
      return comparison o (meeting a b) (collation a b) (← go a) (← go b)
    match e with
    | .literal c => .ok c
    | .whole digits => .ok (wholeCell (digitsValue digits.toList))
    | .blob raw => .ok (.text (blobText raw))
    | .name path double => return Frame.cellOf frames (← scope.find path double)
    | .parameter => .ok .null
    | .unary .minus (.whole digits) => .ok (wholeCell (-(digitsValue digits.toList : Int)))
    | .unary .minus (.literal (.real x)) => .ok (.real x.neg)
    | .unary o a => return unary o (← go a)
    | .binary .and a b => return Cell.ofTruth ((← go a).truth.and (← go b).truth)
    | .binary .or a b => return Cell.ofTruth ((← go a).truth.or (← go b).truth)
    | .binary o a b =>
      match o with
      | .eq | .ne | .lt | .le | .gt | .ge => return Cell.ofTruth (← compare o a b)
      | .is | .isNot =>
        match b with
        | .name path double =>
          match scope.find path double with
          | .ok (.truth t) => do
            let same := (← go a).truth = some t
            return Cell.ofTruth (some (same == (o = .is)))
          | _ => return Cell.ofTruth (← compare o a b)
        | _ => return Cell.ofTruth (← compare o a b)
      | o => return operate o (← go a) (← go b)
    | .isNull a negated => return Cell.ofTruth (some (((← go a) = .null) != negated))
    | .between a low high negated =>
      return negatedIf negated ((← compare .ge a low).and (← compare .le a high))
    | .inList a es negated => do
      let c ← go a
      let cells ← es.mapM go
      return negatedIf negated
        (among (Resolution.affinity scope a) ((collation? a).getD .binary) c cells)
    | .inQuery a q negated => do
      let c ← go a
      let columns ← Resolution.queryColumns db.look fuel scope false q
      let rows ← rows db fuel frames q
      let affinity := (columns.head?.map (·.affinity)).getD .none
      return negatedIf negated
        (among ((Resolution.affinity scope a).meet affinity) ((collation? a).getD .binary) c
          (rows.filterMap List.head?))
    | .cases base whens otherwise => do
      let chosen ← whens.findM? fun p => do
        match base with
        | some a => return (← compare .eq a p.1).isTrue
        | none => return (← go p.1).truth.isTrue
      match chosen, otherwise with
      | some p, _ => go p.2
      | none, some e => go e
      | none, none => return .null
    | .cast a type => return castTo type (← go a)
    | .collate a _ => go a
    | .call f distinct _ args filter =>
      if Signature.isAggregate f args.length then gathered db fuel frames f distinct args filter
      else do Call.run (small f) (← args.mapM go)
    | .over f _ args filter parts orders => ranked db fuel frames f args filter parts orders
    | .exist q => return Cell.ofTruth (some !(← rows db fuel frames q).isEmpty)
    | .scalar q => return ((← rows db fuel frames q).head?.bind List.head?).getD .null
    | .row _ => .ok .null

/-- The value of an aggregate over the rows of the innermost group. -/
def gathered (db : Content) : Nat → List Frame → String → Bool → List Expr → Option Expr →
    Except Fault Cell
  | 0, _, _, _, _, _ => .ok .null
  | _ + 1, [], _, _, _, _ => .ok .null
  | fuel + 1, frame :: outer, f, distinct, args, filter => do
    let kept ← frame.group.filterMapM fun lines => do
      let frames := { frame with lines, group := [] } :: outer
      match filter with
      | some test =>
        if (← expr db fuel frames test).truth.isTrue then
          return some (← args.mapM (expr db fuel frames))
        return none
      | none => return some (← args.mapM (expr db fuel frames))
    Gather.run (small f) (if distinct then Gather.distinctRows kept else kept)

/-- The value of a call over the rows of the innermost query with the same values of `parts`. In
order, an aggregate goes over the rows up to the last peer. -/
def ranked (db : Content) : Nat → List Frame → String → List Expr → Option Expr → List Expr →
    List (Expr × Bool) → Except Fault Cell
  | 0, _, _, _, _, _, _ => .ok .null
  | _ + 1, [], _, _, _, _, _ => .ok .null
  | fuel + 1, frame :: outer, f, args, filter, parts, orders => do
    let value (lines : List Line) (e : Expr) : Except Fault Cell :=
      expr db fuel ({ frame with lines } :: outer) e
    let part ← parts.mapM (value frame.lines)
    let rows ← frame.all.zipIdx.filterMapM fun (lines, place) => do
      if !Gather.sameCells part (← parts.mapM (value lines)) then return none
      let keys ← orders.mapM fun p => do return (← value lines p.1, p.2)
      return some (keys, place, lines)
    let sorted := rows.mergeSort fun a b => compareSorted a.1 b.1 != .gt
    let given ← sorted.mapM fun row => do return (row.1, ← args.mapM (value row.2.2))
    let place := sorted.findIdx fun row => row.2.1 = frame.place
    let ranked := Ranked.of (fun a b => compareSorted a b == .eq) place given
    if !Signature.isAggregate f args.length then return ranked.run (small f)
    let kept ← (sorted.take ranked.upTo).filterM fun row =>
      match filter with
      | some test => do return (← value row.2.2 test).truth.isTrue
      | none => .ok true
    Gather.run (small f) (← kept.mapM fun row => args.mapM (value row.2.2))

/-- The frame of a group, with the row that columns outside aggregates are taken from: where there
is a `max` or `min`, the one where its value is found, or the last if all are null; otherwise the
first. -/
def groupFrame (db : Content) : Nat → List Frame → List Source → List Expr → List (List Line) →
    Except Fault Frame
  | 0, _, sources, _, _ => .ok { sources, lines := [] }
  | fuel + 1, outer, sources, exprs, group => do
    let orNull (line? : Option (List Line)) : List Line := line?.getD (sources.map Source.nullLine)
    match exprs.reverse.findSome? (extreme? fuel) with
    | none => return { sources, lines := orNull group.head?, group }
    | some (before, e) =>
      let valued ← group.mapM fun lines => do
        return (lines, ← expr db fuel ({ sources, lines } :: outer) e)
      let best := (valued.filter (·.2 != .null)).foldl (fun (best : Option (List Line × Cell)) p =>
        match best with
        | some b => if Cell.sortOrder p.2 b.2 = before then some p else best
        | none => some p) none
      return { sources, lines := orNull ((best.map (·.1)).or group.getLast?), group }

def itemCells (db : Content) : Nat → List Frame → List Item → Except Fault (List Cell)
  | 0, _, _ => .ok []
  | _ + 1, [], _ => .ok []
  | fuel + 1, frame :: outer, items => do
    let parts ← items.mapM fun item =>
      match item with
      | .expr e _ _ => do return [← expr db fuel (frame :: outer) e]
      | item => .ok (Frame.starCells frame item)
    return parts.flatten

def sourceLines (db : Content) : Nat → List Frame → List Term →
    Except Fault (List Source × List (List Line))
  | 0, _, _ => .ok ([], [[]])
  | fuel + 1, outer, terms => do
    let scope : Scope := outer.map (·.sources)
    let (all, _) ← Resolution.termSources db.look fuel scope [] terms
    terms.foldlM (fun (found : List Source × List (List Line)) term =>
      match term with
      | .mk form source label test shared => do
        let (added, lines) ← operandLines db fuel outer label source
        let sources := all.take (found.1.length + added.length)
        let same := (sources.drop found.1.length).flatMap (·.shared)
        let holds (lines : List Line) : Except Fault Bool := do
          let frames := { sources, lines } :: outer
          let tested ← match test with
            | some e => do pure ((← expr db fuel frames e).truth.isTrue)
            | none => pure true
          let equal ← same.allM fun column => do
            let ends := (sources.zip lines).filterMap fun (s, line) =>
              (s.position? column).bind fun i => line.cells[i]?
            return match ends with
              | a :: rest => rest.getLast?.all fun b =>
                  (comparison .eq .none .binary a b).isTrue
              | [] => true
          return tested && equal
        let form := { form with natural := form.natural || !shared.isEmpty }
        return (sources, ← Frame.joinLines form (found.1.map Source.nullLine)
          (added.map Source.nullLine) found.2 lines holds)) ([], [[]])

def operandLines (db : Content) : Nat → List Frame → Option String → Operand →
    Except Fault (List Source × List (List Line))
  | 0, _, _, _ => .ok ([], [[]])
  | fuel + 1, outer, label, operand =>
    match operand with
    | .table database name => do
      let s ← Resolution.tableSource db.look fuel database name
      let s := { s with label := label.getD name }
      return ([s], (s.linesOf (db.rowsOf name)).map ([·]))
    | .query q => do
      let columns ← Resolution.queryColumns db.look fuel [] false q
      let s : Source := { label := label.getD "", columns, numbered := false }
      return ([s], (s.linesOf (← rows db fuel [] q)).map ([·]))
    | .group terms => sourceLines db fuel outer terms

/-- The rows of a simple query with the frames in which sort terms are looked at. -/
def selected (db : Content) : Nat → List Frame → Query →
    Except Fault (List (List Frame × List Cell))
  | 0, _, _ => .ok []
  | fuel + 1, outer, q =>
    match q with
    | .select distinct items source test groups groupTest => do
      let (sources, lines) ← sourceLines db fuel outer source
      let isTrue (frames : List Frame) (e : Option Expr) : Except Fault Bool := do
        match e with
        | some e => return (← expr db fuel frames e).truth.isTrue
        | none => return true
      let lines ← lines.filterM fun ls => isTrue ({ sources, lines := ls } :: outer) test
      let exprs := items.filterMap itemExpr? ++ groupTest.toList
      let frames ← if groups.isEmpty && !exprs.any (isGathering fuel) then
          pure (Frame.ofLines sources lines)
        else do
          let keyed ← lines.mapM fun ls => do
            return (← groups.mapM (expr db fuel ({ sources, lines := ls } :: outer)), ls)
          let all := if groups.isEmpty then [lines] else grouped keyed
          all.mapM (groupFrame db fuel outer sources exprs)
      let frames ← frames.filterM fun frame =>
        if groupTest.isSome then isTrue (frame :: outer) groupTest else pure true
      let rows ← frames.mapM fun frame => do
        return (frame :: outer, ← itemCells db fuel (frame :: outer) items)
      return if distinct then firsts rows else rows
    | q => do return (← rows db fuel outer q).map fun cells => ([], cells)
where
  firsts (rows : List (List Frame × List Cell)) : List (List Frame × List Cell) :=
    (rows.foldl (fun (done : List (List Frame × List Cell)) row =>
      if done.any fun d => Gather.sameCells d.2 row.2 then done else row :: done) []).reverse

def rows (db : Content) : Nat → List Frame → Query → Except Fault (List (List Cell))
  | 0, _, _ => .ok []
  | fuel + 1, outer, q =>
    match q with
    | .select .. => do return (← selected db fuel outer q).map (·.2)
    | .rows all =>
      let inner := { sources := [], lines := [] } :: outer
      all.mapM fun es => es.mapM (expr db fuel inner)
    | .compound o left right => do
      let a ← rows db fuel outer left
      let b ← rows db fuel outer right
      let isIn (rows : List (List Cell)) (row : List Cell) : Bool :=
        rows.any (Gather.sameCells row)
      let sorted (rows : List (List Cell)) : List (List Cell) :=
        (grouped (rows.map fun row => (row, row))).filterMap List.head?
      return match o with
        | .unionAll => a ++ b
        | .union => sorted (a ++ b)
        | .intersect => sorted (a.filter (isIn b))
        | .except => sorted (a.filter fun row => !isIn b row)
    | .arranged q orders limit offset => do
      let all ← selected db fuel outer q
      let columns ← Resolution.queryColumns db.look fuel (outer.map (·.sources)) false q
      let keyed ← all.mapM fun (frames, cells) => do
        let keys ← orders.mapM fun (e, descending) => do
          let place := match e with
            | .whole digits => some (digitsValue digits.toList - 1)
            | .name [s] _ => columns.findIdx? fun (c : Column) => sameName c.name s
            | _ => none
          let c ← match place.bind (cells[·]?) with
            | some c => pure c
            | none => expr db fuel frames e
          return (c, descending)
        return (keys, cells)
      let sorted := keyed.mergeSort fun a b => compareSorted a.1 b.1 != .gt
      let limit ← limit.mapM (expr db fuel outer)
      let offset ← offset.mapM (expr db fuel outer)
      return windowed limit offset (sorted.map (·.2))
    | .scoped named q => do
      let db ← named.foldlM (fun (db : Content) (name, _, q) => do
        return { db with named := (name, ← rows db fuel outer q) :: db.named }) db
      let look ← Resolution.withNamed db.look fuel (outer.map (·.sources)) named
      rows { db with look } fuel outer q

end

end Evaluation

end Winnow.Sql
