import Winnow.Value

namespace Winnow

/-- A step on the way to a faulty part: a field or a position in a list. -/
inductive Step where
  | field (name : String)
  | index (i : Nat)
  deriving DecidableEq, Repr

inductive Rule where
  | required
  | string
  | notEmpty
  | list
  | dictionary
  | set
  | pair
  | atMostTwo (length : Nat)
  | oneOf (options : List String)
  | integer
  | integerText
  | integerSize
  | whole
  | finite
  | atLeast (bound : Int)
  | boolean
  | booleanText
  | nested (model : String)
  deriving DecidableEq, Repr

structure Problem where
  place : List Step
  rule : Rule
  deriving DecidableEq, Repr

namespace Rule

def tag : Rule → String
  | required => "missing"
  | string => "string_type"
  | notEmpty => "string_too_short"
  | list => "list_type"
  | dictionary => "dict_type"
  | set => "frozen_set_type"
  | pair => "tuple_type"
  | atMostTwo _ => "too_long"
  | oneOf _ => "enum"
  | integer => "int_type"
  | integerText => "int_parsing"
  | integerSize => "int_parsing_size"
  | whole => "int_from_float"
  | finite => "finite_number"
  | atLeast _ => "greater_than_equal"
  | boolean => "bool_type"
  | booleanText => "bool_parsing"
  | nested _ => "model_type"

def alternatives : List String → String
  | [] => ""
  | [a] => "'" ++ a ++ "'"
  | [a, b] => "'" ++ a ++ "' or '" ++ b ++ "'"
  | a :: rest => "'" ++ a ++ "', " ++ alternatives rest

def message : Rule → String
  | required => "Field required"
  | string => "Input should be a valid string"
  | notEmpty => "String should have at least 1 character"
  | list => "Input should be a valid list"
  | dictionary => "Input should be a valid dictionary"
  | set => "Input should be a valid frozenset"
  | pair => "Input should be a valid tuple"
  | atMostTwo n => "Tuple should have at most 2 items after validation, not " ++ toString n
  | oneOf options => "Input should be " ++ alternatives options
  | integer => "Input should be a valid integer"
  | integerText => "Input should be a valid integer, unable to parse string as an integer"
  | integerSize => "Unable to parse input string as an integer, exceeded maximum size"
  | whole => "Input should be a valid integer, got a number with a fractional part"
  | finite => "Input should be a finite number"
  | atLeast bound => "Input should be greater than or equal to " ++ toString bound
  | boolean => "Input should be a valid boolean"
  | booleanText => "Input should be a valid boolean, unable to interpret input"
  | nested model => "Input should be a valid dictionary or instance of " ++ model

end Rule

end Winnow
