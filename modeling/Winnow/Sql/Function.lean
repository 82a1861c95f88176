import Winnow.Sql.Fault
import Winnow.Sql.Keyword

namespace Winnow.Sql

structure Signature where
  name : String
  least : Nat
  most : Option Nat
  aggregate : Bool := false
  deriving DecidableEq, Repr

namespace Signature

def takes (s : Signature) (count : Nat) : Bool := s.least ≤ count && s.most.all (count ≤ ·)

def fixed (count : Nat) (names : List String) : List Signature :=
  names.map (⟨·, count, some count, false⟩)

def scalars : List Signature :=
  fixed 0 ["changes", "last_insert_rowid", "pi", "random", "sqlite_source_id", "sqlite_version",
      "total_changes"] ++
    fixed 1 ["abs", "acos", "acosh", "asin", "asinh", "atan", "atanh", "ceil", "ceiling", "cos",
      "cosh", "degrees", "exp", "floor", "hex", "length", "likely", "ln", "log10", "log2", "lower",
      "octet_length", "quote", "radians", "randomblob", "sign", "sin", "sinh", "sqrt", "tan",
      "tanh", "trunc", "typeof", "unicode", "unlikely", "upper", "zeroblob", "json", "json_quote",
      "sqlite_compileoption_get", "sqlite_compileoption_used"] ++
    fixed 2 ["atan2", "glob", "ifnull", "instr", "likelihood", "mod", "nullif", "pow", "power",
      "timediff"] ++
    fixed 3 ["replace"] ++
    [⟨"char", 0, none, false⟩, ⟨"coalesce", 2, none, false⟩, ⟨"concat", 1, none, false⟩,
      ⟨"concat_ws", 2, none, false⟩, ⟨"date", 0, none, false⟩, ⟨"datetime", 0, none, false⟩,
      ⟨"format", 0, none, false⟩, ⟨"if", 2, none, false⟩, ⟨"iif", 2, none, false⟩,
      ⟨"json_array", 0, none, false⟩, ⟨"json_array_length", 1, some 2, false⟩,
      ⟨"json_extract", 1, none, false⟩, ⟨"json_object", 0, none, false⟩,
      ⟨"json_type", 1, some 2, false⟩, ⟨"json_valid", 1, some 2, false⟩,
      ⟨"julianday", 0, none, false⟩, ⟨"like", 2, some 3, false⟩, ⟨"log", 1, some 2, false⟩,
      ⟨"ltrim", 1, some 2, false⟩, ⟨"max", 2, none, false⟩, ⟨"min", 2, none, false⟩,
      ⟨"printf", 0, none, false⟩, ⟨"round", 1, some 2, false⟩, ⟨"rtrim", 1, some 2, false⟩,
      ⟨"strftime", 1, none, false⟩, ⟨"substr", 2, some 3, false⟩,
      ⟨"substring", 2, some 3, false⟩, ⟨"time", 0, none, false⟩, ⟨"trim", 1, some 2, false⟩,
      ⟨"unhex", 1, some 2, false⟩, ⟨"unixepoch", 0, none, false⟩]

def aggregates : List Signature :=
  [⟨"avg", 1, some 1, true⟩, ⟨"count", 0, some 1, true⟩, ⟨"group_concat", 1, some 2, true⟩,
    ⟨"max", 1, some 1, true⟩, ⟨"min", 1, some 1, true⟩, ⟨"string_agg", 2, some 2, true⟩,
    ⟨"sum", 1, some 1, true⟩, ⟨"total", 1, some 1, true⟩]

def ranking : List Signature :=
  fixed 0 ["row_number", "rank", "dense_rank", "percent_rank", "cume_dist"] ++
    fixed 1 ["first_value", "last_value", "ntile"] ++
    [⟨"lag", 1, some 3, false⟩, ⟨"lead", 1, some 3, false⟩, ⟨"nth_value", 2, some 2, false⟩]

def isRanking (function : String) : Bool := ranking.any (·.name = small function)

def all : List Signature := scalars ++ aggregates ++ ranking

def find (function : String) (count : Nat) : Except Fault Signature :=
  match all.filter (·.name = small function) with
  | [] => if small function = "match" && count = 2 then .error .noMatch
    else .error (.noFunction function)
  | named =>
    match named.find? (·.takes count) with
    | some s => .ok s
    | none => .error (.wrongCount function)

def isAggregate (function : String) (count : Nat) : Bool :=
  match find function count with
  | .ok s => s.aggregate
  | .error _ => false

end Signature

end Winnow.Sql
