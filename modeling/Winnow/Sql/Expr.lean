import Winnow.Store.Cell

namespace Winnow.Sql

inductive Unary where
  | plus | minus | complement | not
  deriving DecidableEq, Repr

inductive Operator where
  | or | and
  | eq | ne | is | isNot | lt | le | gt | ge
  | bitAnd | bitOr | shiftLeft | shiftRight
  | add | subtract | multiply | divide | remainder
  | concat | extract | extractText
  deriving DecidableEq, Repr

inductive SetOperator where
  | union | unionAll | intersect | except
  deriving DecidableEq, Repr

def SetOperator.word : SetOperator → String
  | union => "UNION"
  | unionAll => "UNION ALL"
  | intersect => "INTERSECT"
  | except => "EXCEPT"

/-- How a term of a query's source is joined to the terms before it. -/
structure JoinForm where
  keepsLeft : Bool := false
  keepsRight : Bool := false
  natural : Bool := false
  deriving DecidableEq, Repr

mutual

inductive Expr where
  | literal (c : Cell)
  /-- A whole number as it is written, in decimal digits. -/
  | whole (digits : String)
  | blob (raw : String)
  /-- A column, with its table and perhaps its database before it; `double` for double quotes. -/
  | name (path : List String) (double : Bool)
  | parameter
  | unary (o : Unary) (e : Expr)
  | binary (o : Operator) (a b : Expr)
  | isNull (e : Expr) (negated : Bool)
  | between (e low high : Expr) (negated : Bool)
  | inList (e : Expr) (values : List Expr) (negated : Bool)
  | inQuery (e : Expr) (q : Query) (negated : Bool)
  | cases (base : Option Expr) (whens : List (Expr × Expr)) (otherwise : Option Expr)
  | cast (e : Expr) (type : String)
  | collate (e : Expr) (order : String)
  /-- A call; `star` stands for all columns, and only rows for which `filter` is true count. -/
  | call (function : String) (distinct star : Bool) (args : List Expr) (filter : Option Expr)
  /-- A call over the rows with the same values of `parts`, in the order of some sort terms. -/
  | over (function : String) (distinct : Bool) (args : List Expr) (filter : Option Expr)
      (parts : List Expr) (orders : List (Expr × Bool))
  | exist (q : Query)
  | scalar (q : Query)
  | row (es : List Expr)

inductive Query where
  | select (distinct : Bool) (items : List Item) (source : List Term) (test : Option Expr)
      (groups : List Expr) (groupTest : Option Expr)
  | rows (all : List (List Expr))
  | compound (o : SetOperator) (left right : Query)
  /-- A query with sort terms, each with its direction, and a window. -/
  | arranged (q : Query) (orders : List (Expr × Bool)) (limit offset : Option Expr)
  /-- A query with queries that have names in it, perhaps with names for their columns. -/
  | scoped (named : List (String × List String × Query)) (q : Query)

inductive Item where
  | all
  | allOf (table : String)
  /-- A column of the result, its name and the text it is written as. -/
  | expr (e : Expr) (label : Option String) (written : String)

inductive Term where
  | mk (form : JoinForm) (source : Operand) (label : Option String) (test : Option Expr)
      (shared : List String)

inductive Operand where
  | table (database : Option String) (name : String)
  | query (q : Query)
  | group (terms : List Term)

end

instance : Inhabited Expr := ⟨.parameter⟩
instance : Inhabited Query := ⟨.rows []⟩

end Winnow.Sql
