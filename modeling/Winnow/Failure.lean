import Winnow.Problem
import Winnow.Sql.Fault
import Winnow.Text.Quoted

namespace Winnow

inductive Failure where
  /-- A text cannot be split at the empty separator. -/
  | emptySeparator
  | unknownTable (name : String)
  | unknownColumn (table column : String)
  | unsupportedOperator (operator : String)
  /-- Null, true and false have no order and match no pattern. -/
  | incomparable
  | badJoinKind (given : Value)
  | tooManyBounds
  | tooFewBounds (given : Nat)
  /-- A value without elements where bounds are expected. -/
  | noBounds (kind : String)
  /-- A value without elements where a list is expected. -/
  | noElements (kind : String)
  | noOperand
  /-- A value of a kind that can be no key. -/
  | unnameable (kind : String)
  | closedSession (action : String)
  | refusedCall (call : String)
  | failedRun (query : Nat)
  | notFound (model : String) (id : Value)
  /-- An identifier with the wrong number of parts. -/
  | wrongKey
  /-- Two result columns of one name. -/
  | ambiguousResult
  | nullValue (table column : String)
  | duplicateKey (table : String) (columns : List String)
  /-- The database refuses a statement. -/
  | rejected (fault : Sql.Fault)
  /-- A statement has places for values that are not there. -/
  | missingBindings
  | manyStatements
  | zeroInStatement
  | noAttribute (name model : String)
  | unexpectedArgument (name : String)
  | quotientTooLarge
  /-- A value has no literal form in the type of its list or column. -/
  | noLiteral
  /-- A value does not pass for one of its type. -/
  | unconvertible
  /-- An integer has more than 64 bits. -/
  | integerTooLarge
  /-- No cell holds a list or record. -/
  | unstorable
  | badAddress
  | badInteger (text : String)
  /-- A number with that many digits. -/
  | longNumber (digits : Nat)
  | badReal (text : String)
  | badTruth (word : String)
  /-- Several values where one number stands. -/
  | manyReals
  | manyIntegers
  /-- Options that belong to the name of a database without one. -/
  | namelessDatabase
  | manyDriverParts
  | unknownExtension (name : String)
  | unknownDriver (name : String)
  /-- A database in a file has no server. -/
  | remoteFile (address : String)
  | noSuchTable
  | invalid (problems : List Problem)
  deriving Repr

namespace Failure

def message : Failure → Option String
  | emptySeparator => some "empty separator"
  | unknownTable name => some ("Unknown table '" ++ name ++ "'")
  | unknownColumn table column => some ("Unknown column '" ++ table ++ "." ++ column ++ "'")
  | unsupportedOperator operator => some ("Unsupported operator: " ++ operator)
  | badJoinKind given => some (given.shown ++ " is not a valid JoinType")
  | tooManyBounds => some "too many values to unpack (expected 2)"
  | tooFewBounds given =>
    some ("not enough values to unpack (expected 2, got " ++ toString given ++ ")")
  | noBounds kind => some ("cannot unpack non-iterable " ++ kind ++ " object")
  | noElements kind => some ("'" ++ kind ++ "' object is not iterable")
  | integerTooLarge => some "Python int too large to convert to SQLite INTEGER"
  | noOperand => some "list index out of range"
  | unnameable kind => some ("unhashable type: '" ++ kind ++ "'")
  | closedSession action =>
    some ("Cannot " ++ action ++ " an executed session; start a new one")
  | refusedCall call => some ("backend refused " ++ call)
  | failedRun query => some ("runner failed on " ++ toString query)
  | notFound model id => some (model ++ " " ++ id.shown ++ " not found")
  | nullValue table column => some ("NOT NULL constraint failed: " ++ table ++ "." ++ column)
  | duplicateKey table columns =>
    some ("UNIQUE constraint failed: " ++
      String.intercalate ", " (columns.map fun column => table ++ "." ++ column))
  | rejected fault => some fault.message
  | noAttribute name model => some ("'" ++ name ++ "' is an invalid keyword argument for " ++ model)
  | unexpectedArgument name =>
    some ("Repository.index() got an unexpected keyword argument '" ++ name ++ "'")
  | quotientTooLarge => some "integer division result too large for a float"
  | badInteger text =>
    some ("invalid literal for int() with base 10: " ++
      String.ofList ((quoted text).toList.take 200))
  | longNumber digits =>
    some ("Exceeds the limit (4300 digits) for integer string conversion: value has " ++
      toString digits ++ " digits; use sys.set_int_max_str_digits() to increase the limit")
  | badReal text => some ("could not convert string to float: " ++ quoted text)
  | badTruth word => some ("String is not true/false: " ++ quoted word)
  | manyReals => some "float() argument must be a string or a real number, not 'tuple'"
  | manyIntegers =>
    some ("int() argument must be a string, a bytes-like object or a real number, not 'tuple'")
  | namelessDatabase => some "unsupported operand type(s) for +=: 'NoneType' and 'str'"
  | manyDriverParts => some "too many values to unpack (expected 2)"
  | incomparable | wrongKey | ambiguousResult | noLiteral | unconvertible | unstorable
  | missingBindings | manyStatements | zeroInStatement | badAddress | unknownDriver _
  | unknownExtension _ | remoteFile _ | noSuchTable | invalid _ => none

def explanation (e : Failure) : String :=
  match e.message, e with
  | some text, _ => text
  | none, badAddress => "Could not parse SQLAlchemy URL from given URL string"
  | none, unknownDriver name => "Can't load plugin: sqlalchemy.dialects:" ++ name
  | none, unknownExtension name => "Can't load plugin: sqlalchemy.plugins:" ++ name
  | none, remoteFile address =>
    "Invalid SQLite URL: " ++ address ++ "\nValid SQLite URL forms are:\n " ++
      "sqlite:///:memory: (or, sqlite://)\n sqlite:///relative/path/to/file.db\n " ++
      "sqlite:////absolute/path/to/file.db"
  | none, invalid problems =>
    String.intercalate "\n" (problems.map fun p => p.rule.message)
  | none, _ => ""

end Failure

end Winnow
