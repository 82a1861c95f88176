import Winnow.Sql.Entity
import Winnow.Sql.Fault
import Winnow.Sql.Resolution

namespace Winnow.Sql

structure Line where
  cells : List Cell
  number : Cell := .null

/-- The sources of a query with a row of each. -/
structure Frame where
  sources : List Source
  lines : List Line
  /-- All rows of the group that the row stands for. -/
  group : List (List Line) := []
  /-- All rows of the query, and the place of this one among them. -/
  all : List (List Line) := []
  place : Nat := 0

def Frame.ofLines (sources : List Source) (all : List (List Line)) : List Frame :=
  all.zipIdx.map fun (lines, place) => { sources, lines, all, place }

structure Content where
  look : Lookup
  tables : List (String × List (List Cell))
  /-- The rows of queries that have names within the statement. -/
  named : List (String × List (List Cell)) := []

namespace Content

def rowsOf (db : Content) (name : String) : List (List Cell) :=
  match (db.named ++ db.tables).find? fun p => sameName p.1 name with
  | some p => p.2
  | none => []

end Content

/-- Rows of a source with their numbers: the key's, or else the places they stand at. -/
def Source.linesOf (s : Source) (rows : List (List Cell)) : List Line :=
  let key := s.columns.findIdx? (·.isRowKey)
  rows.zipIdx.map fun (cells, i) =>
    ⟨cells, match key with
      | some k => cells.getD k .null
      | none => .int (i + 1)⟩

def Source.nullLine (s : Source) : Line := ⟨s.columns.map fun _ => .null, .null⟩

namespace Frame

def cellOf (frames : List Frame) : Found → Cell
  | .column out source column =>
    ((do
      let frame ← frames[out]?
      let line ← frame.lines[source]?
      line.cells[column]?) : Option Cell).getD .null
  | .rowNumber out source =>
    ((do
      let frame ← frames[out]?
      let line ← frame.lines[source]?
      return line.number) : Option Cell).getD .null
  | .text s => .text s
  | .truth b => .int (if b then 1 else 0)

def starCells (frame : Frame) (item : Item) : List Cell :=
  (frame.sources.zip frame.lines).flatMap fun (s, line) =>
    match item with
    | .all => (s.columns.zip line.cells).filterMap fun (c, cell) =>
        if s.isShared c.name then none else some cell
    | .allOf table => if sameName s.label table then line.cells else []
    | .expr .. => []

/-- Rows side by side: those of a join that keeps one side or both. -/
def joinLines (form : JoinForm) (nullsLeft nullsRight : List Line) (left right : List (List Line))
    (holds : List Line → Except Fault Bool) : Except Fault (List (List Line)) := do
  let found ← left.mapM fun a => do
    let kept ← right.filterM fun b => holds (a ++ b)
    return if kept.isEmpty && form.keepsLeft then [a ++ nullsRight] else kept.map (a ++ ·)
  let alone ← if form.keepsRight then
      right.filterM fun b => do
        return !(← left.anyM fun a => holds (a ++ b))
    else pure []
  return found.flatten ++ alone.map (nullsLeft ++ ·)

end Frame

end Winnow.Sql
