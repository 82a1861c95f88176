namespace Winnow.Sql

inductive Fault where
  | syntaxNear (text : String)
  | incomplete
  | badToken (text : String)
  | noColumn (reference : String)
  | ambiguousColumn (reference : String)
  | noTable (name : String)
  | noView (name : String)
  /-- A star where there is no table. -/
  | nothingToSelect
  | noFunction (name : String)
  | wrongCount (function : String)
  | misusedAggregate (function : String)
  /-- An aggregate over distinct values takes one argument. -/
  | distinctCount
  | misusedRanking (function : String)
  | distinctRanking
  | noRanking (function : String)
  | filterOutsideAggregate (function : String)
  | noMatch
  /-- A condition of a join names a table that stands to its right. -/
  | namesRight
  | noSharedColumn (column : String)
  /-- A name of a table or view is in use. -/
  | taken (kind name : String)
  | takenByIndex (name : String)
  | takenByTable (name : String)
  | takenByAny (name : String)
  | indexExists (name : String)
  | noIndex (name : String)
  | duplicateColumn (name : String)
  | unknownDatabase (name : String)
  | qualifiedTemporary
  | reservedName (name : String)
  | manyKeys (table : String)
  | misusedCounter
  | noKey (table : String)
  | unknownOption (name : String)
  | wrongKind (wanted other name : String)
  | undroppable (name : String)
  | unalterable (name : String)
  | viewUnalterable (name : String)
  | columnOfView (action view : String)
  | keyColumn (kind column : String)
  | lastColumn (column : String)
  | addedColumn (what : String)
  /-- A table, a view or an index that a change breaks, or that was broken before it. -/
  | broken (kind name change cause : String)
  | unindexable (name : String)
  | indexedView
  | circularView (name : String)
  | columnCount (name : String) (expected given : Nat)
  | subqueryCount (given expected : Nat)
  | setCount (operator : String)
  | unevenRows
  | misusedRow
  | integerOverflow
  | longEscape
  | noCollation (name : String)
  deriving DecidableEq, Repr

namespace Fault

def message : Fault → String
  | syntaxNear text => "near \"" ++ text ++ "\": syntax error"
  | incomplete => "incomplete input"
  | badToken text => "unrecognized token: \"" ++ text ++ "\""
  | noColumn reference => "no such column: " ++ reference
  | ambiguousColumn reference => "ambiguous column name: " ++ reference
  | noTable name => "no such table: " ++ name
  | noView name => "no such view: " ++ name
  | nothingToSelect => "no tables specified"
  | noFunction name => "no such function: " ++ name
  | wrongCount function => "wrong number of arguments to function " ++ function ++ "()"
  | misusedAggregate function => "misuse of aggregate function " ++ function ++ "()"
  | misusedRanking function => "misuse of window function " ++ function ++ "()"
  | distinctRanking => "DISTINCT is not supported for window functions"
  | noRanking function => function ++ "() may not be used as a window function"
  | distinctCount => "DISTINCT aggregates must take exactly one argument"
  | filterOutsideAggregate function =>
    "FILTER may not be used with non-aggregate " ++ function ++ "()"
  | noMatch => "unable to use function MATCH in the requested context"
  | namesRight => "ON clause references tables to its right"
  | noSharedColumn column =>
    "cannot join using column " ++ column ++ " - column not present in both tables"
  | taken kind name => kind ++ " " ++ name ++ " already exists"
  | takenByIndex name => "there is already an index named " ++ name
  | takenByTable name => "there is already a table named " ++ name
  | takenByAny name => "there is already another table or index with this name: " ++ name
  | indexExists name => "index " ++ name ++ " already exists"
  | noIndex name => "no such index: " ++ name
  | duplicateColumn name => "duplicate column name: " ++ name
  | unknownDatabase name => "unknown database " ++ name
  | qualifiedTemporary => "temporary table name must be unqualified"
  | reservedName name => "object name reserved for internal use: " ++ name
  | manyKeys table => "table \"" ++ table ++ "\" has more than one primary key"
  | misusedCounter => "AUTOINCREMENT is only allowed on an INTEGER PRIMARY KEY"
  | noKey table => "PRIMARY KEY missing on table " ++ table
  | unknownOption name => "unknown table option: " ++ name
  | wrongKind wanted other name => "use DROP " ++ wanted ++ " to delete " ++ other ++ " " ++ name
  | undroppable name => "table " ++ name ++ " may not be dropped"
  | unalterable name => "table " ++ name ++ " may not be altered"
  | viewUnalterable name => "view " ++ name ++ " may not be altered"
  | columnOfView action view => "cannot " ++ action ++ " view \"" ++ view ++ "\""
  | keyColumn kind column => "cannot drop " ++ kind ++ " column: \"" ++ column ++ "\""
  | lastColumn column => "cannot drop column \"" ++ column ++ "\": no other columns exist"
  | addedColumn what => "Cannot add a " ++ what
  | broken kind name change cause =>
    "error in " ++ kind ++ " " ++ name ++ (if change = "" then "" else " after " ++ change) ++
      ": " ++ cause
  | unindexable name => "table " ++ name ++ " may not be indexed"
  | indexedView => "views may not be indexed"
  | circularView name => "view " ++ name ++ " is circularly defined"
  | columnCount name expected given =>
    "expected " ++ toString expected ++ " columns for '" ++ name ++ "' but got " ++ toString given
  | subqueryCount given expected =>
    "sub-select returns " ++ toString given ++ " columns - expected " ++ toString expected
  | setCount operator =>
    "SELECTs to the left and right of " ++ operator ++
      " do not have the same number of result columns"
  | unevenRows => "all VALUES must have the same number of terms"
  | misusedRow => "row value misused"
  | integerOverflow => "integer overflow"
  | longEscape => "ESCAPE expression must be a single character"
  | noCollation name => "no such collation sequence: " ++ name

end Fault

end Winnow.Sql
