import Winnow.Select.Query

namespace Winnow

abbrev Numbering := List (String × Nat)

namespace Numbering

def next (stem : String) : Numbering → Nat × Numbering
  | [] => (1, [(stem, 1)])
  | (s, n) :: rest =>
    if s = stem then (n + 1, (s, n + 1) :: rest)
    else
      let (k, rest) := next stem rest
      (k, (s, n) :: rest)

def label (stem : String) (numbers : Numbering) : String × Numbering :=
  let (n, numbers) := numbers.next stem
  (stem ++ "_" ++ toString n, numbers)

end Numbering

def isAwkward (c : Char) : Bool := ['%', '(', ')', ' ', '$', ':', '.', '[', ']'].contains c

def plainChars : Bool → List Char → List Char
  | _, [] => []
  | inRun, c :: cs =>
    if isAwkward c then (if inRun then plainChars true cs else '_' :: plainChars true cs)
    else c :: plainChars false cs

def labelStem (name : String) : String := String.ofList (plainChars false name.toList)

def trimUnderscores (cs : List Char) : List Char :=
  ((cs.dropWhile (· = '_')).reverse.dropWhile (· = '_')).reverse

def bindName (column : String) (numbers : Numbering) : String × Numbering :=
  numbers.label (String.ofList (trimUnderscores (plainChars false column.toList)))

/-- An output with the label under which its values come. -/
structure NamedOutput where
  expr : OutputExpr
  label : Option String
  deriving DecidableEq, Repr

def NamedOutput.key (o : NamedOutput) : String :=
  match o.label, o.expr with
  | some label, _ => label
  | none, .column c => c.column
  | none, .raw text => text

/-- The names given so far, each with its column unless it is an alias, and the columns that got a
label because their name was taken. -/
structure Taken where
  names : List (String × Option ColumnRef) := []
  labelled : List ColumnRef := []

def Taken.add (name : String) (column : Option ColumnRef) (taken : Taken) : Taken :=
  match taken.names.lookup name with
  | some _ => taken
  | none => { taken with names := (name, column) :: taken.names }

/-- Names an output. A column whose name is taken by another gets a numbered label, and so does a
column that is repeated; aliases and raw text keep their names. -/
def nameOutput (taken : Taken) (numbers : Numbering) (o : Output) :
    NamedOutput × Taken × Numbering :=
  match o.expr, o.label with
  | .column c, none =>
    match taken.names.lookup c.column with
    | none => (⟨o.expr, none⟩, taken.add c.column (some c), numbers)
    | some first =>
      if first = some c ∨ c ∈ taken.labelled then
        let (label, numbers) := numbers.label (labelStem (c.column ++ "_"))
        (⟨o.expr, some label⟩, taken, numbers)
      else
        let (label, numbers) := numbers.label (labelStem c.column)
        (⟨o.expr, some label⟩, { taken with labelled := c :: taken.labelled }, numbers)
  | expr, some label => (⟨expr, some label⟩, taken.add label none, numbers)
  | expr, none => (⟨expr, none⟩, taken, numbers)

def nameOutputs (taken : Taken) (numbers : Numbering) :
    List Output → List NamedOutput × Numbering
  | [] => ([], numbers)
  | o :: os =>
    let (first, taken, numbers) := nameOutput taken numbers o
    let (rest, numbers) := nameOutputs taken numbers os
    (first :: rest, numbers)

def Select.named (q : Select) : List NamedOutput × Numbering :=
  nameOutputs {} [] q.selected

end Winnow
