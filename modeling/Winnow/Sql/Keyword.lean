import Winnow.Sql.Token

namespace Winnow.Sql

/-- A word with the letters of ASCII in lower case; names that agree in it are the same. -/
def small (s : String) : String := s.map Char.toLower

def sameName (a b : String) : Bool := small a == small b

def reservedWords : List String :=
  ["add", "all", "alter", "and", "as", "autoincrement", "between", "case", "check", "collate",
    "commit", "constraint", "create", "default", "deferrable", "delete", "distinct", "drop", "else",
    "escape", "except", "exists", "foreign", "from", "group", "having", "in", "index", "insert",
    "intersect", "into", "is", "isnull", "join", "limit", "not", "nothing", "notnull", "null", "on",
    "or", "order", "primary", "references", "returning", "select", "set", "table", "then", "to",
    "transaction", "union", "unique", "update", "using", "values", "when", "where"]

/-- Keywords of joins; they stand for names, but not for an alias without `AS`. -/
def joinWords : List String := ["cross", "full", "inner", "left", "natural", "outer", "right"]

def patternWords : List String := ["like", "glob", "regexp", "match"]

def isReserved (s : String) : Bool := reservedWords.contains (small s)

def Token.isWord (keyword : String) : Token → Bool
  | word s => small s = keyword
  | _ => false

def Token.name? : Token → Option String
  | word s => if isReserved s then none else some s
  | quotedName _ s _ | text _ s => some s
  | _ => none

def Token.identifier? : Token → Option String
  | text .. => none
  | t => t.name?

def Token.bareAlias? : Token → Option String
  | word s =>
    let s' := small s
    if reservedWords.contains s' || joinWords.contains s' || patternWords.contains s' ||
      s' = "indexed" then none
    else some s
  | t => t.name?

end Winnow.Sql
