import Winnow.Relation.Basic

namespace Winnow

inductive Use where
  | filter
  | sort
  deriving DecidableEq, Repr

/-- Where a column that a client names comes from. -/
inductive Origin where
  | direct
  | aliased
  | relation
  deriving DecidableEq, Repr

def Origin.name : Origin → String
  | direct => "direct"
  | aliased => "alias"
  | relation => "relation"

inductive Channel where
  | grammar
  | expressions
  | columns
  | joins
  | relations
  | session
  | repository
  deriving DecidableEq, Repr

inductive Level where
  | debug
  | info
  | warning
  | error
  deriving DecidableEq, Repr

def Level.name : Level → String
  | debug => "DEBUG"
  | info => "INFO"
  | warning => "WARNING"
  | error => "ERROR"

inductive Note where
  | malformedSegment (text : String)
  | columnRefused (use : Use) (column : String)
  | expressionRefused (use : Use) (expression column : String)
  | columnUsed (use : Use) (given : String) (source : Origin) (column : String)
  | unknownRelation (name : Value)
  | malformedPair (left right : String) (relation : Value)
  | joined (table left right : String) (joinKind : JoinKind)
  | executing
  | discarded
  | deleted (model : String) (id : Value)
  deriving Repr

namespace Note

def channel : Note → Channel
  | malformedSegment _ => .grammar
  | expressionRefused .. => .expressions
  | columnRefused .. | columnUsed .. => .columns
  | unknownRelation _ | malformedPair .. => .relations
  | joined .. => .joins
  | executing | discarded => .session
  | deleted .. => .repository

/-- Notes are for those who look into what happened; none asks for attention. -/
def level : Note → Level
  | _ => .debug

def text : Note → String
  | malformedSegment text => "Skipping malformed condition segment " ++ quoted text
  | columnRefused .filter column =>
    "Dropping filter on " ++ quoted column ++ ": column not filterable"
  | columnRefused .sort column => "Dropping sort on " ++ quoted column ++ ": column not sortable"
  | expressionRefused .filter expression column =>
    "Ignoring unparseable filter " ++ quoted expression ++ " on column " ++ quoted column
  | expressionRefused .sort expression column =>
    "Ignoring invalid sort direction " ++ quoted expression ++ " on column " ++ quoted column
  | columnUsed use given source column =>
    (match use with | .filter => "Filtering " | .sort => "Sorting ") ++ quoted given ++ " on " ++
      source.name ++ " column " ++ column
  | unknownRelation name => "Relation " ++ name.shown ++ " is not configured"
  | malformedPair left right relation =>
    "Dropping malformed pair " ++ quoted left ++ " -> " ++ quoted right ++ " in relation " ++
      relation.shown
  | joined table left right joinKind =>
    "Joined " ++ table ++ " on " ++ left ++ " = " ++ right ++ " (" ++ joinKind.name ++ ")"
  | executing => "Executing query session"
  | discarded => "Query session reset"
  | deleted model id => "Deleted " ++ model ++ " " ++ id.shown

end Note

end Winnow
