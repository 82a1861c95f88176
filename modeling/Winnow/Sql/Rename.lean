import Winnow.Sql.Expr
import Winnow.Sql.Keyword

namespace Winnow.Sql

inductive Renaming where
  | table (old new : String)
  | column (old new : String)
  deriving DecidableEq, Repr

namespace Renaming

def path : Renaming → List String → List String
  | .table old new, names =>
    match names.reverse with
    | c :: s :: rest => rest.reverse ++ [if sameName s old then new else s, c]
    | _ => names
  | .column old new, names =>
    match names.reverse with
    | s :: rest => rest.reverse ++ [if sameName s old then new else s]
    | [] => names

def tableName : Renaming → String → String
  | table old new, s => if sameName s old then new else s
  | column .., s => s

mutual

def expr (n : Renaming) : Nat → Expr → Expr
  | 0, e => e
  | fuel + 1, e =>
    let go := expr n fuel
    match e with
    | .literal _ | .whole _ | .blob _ | .parameter => e
    | .name names double => .name (n.path names) double
    | .unary o a => .unary o (go a)
    | .binary o a b => .binary o (go a) (go b)
    | .isNull a negated => .isNull (go a) negated
    | .between a low high negated => .between (go a) (go low) (go high) negated
    | .inList a es negated => .inList (go a) (es.map go) negated
    | .inQuery a q negated => .inQuery (go a) (query n fuel q) negated
    | .cases base whens otherwise =>
      .cases (base.map go) (whens.map fun p => (go p.1, go p.2)) (otherwise.map go)
    | .cast a type => .cast (go a) type
    | .collate a order => .collate (go a) order
    | .call f distinct star args filter => .call f distinct star (args.map go) (filter.map go)
    | .over f distinct args filter parts orders =>
      .over f distinct (args.map go) (filter.map go) (parts.map go)
        (orders.map fun p => (go p.1, p.2))
    | .exist q => .exist (query n fuel q)
    | .scalar q => .scalar (query n fuel q)
    | .row es => .row (es.map go)

def query (n : Renaming) : Nat → Query → Query
  | 0, q => q
  | fuel + 1, q =>
    let go := expr n fuel
    match q with
    | .select distinct items source test groups groupTest =>
      .select distinct (items.map (item n fuel)) (source.map (term n fuel)) (test.map go)
        (groups.map go) (groupTest.map go)
    | .rows all => .rows (all.map (·.map go))
    | .compound o left right => .compound o (query n fuel left) (query n fuel right)
    | .arranged q orders limit offset =>
      .arranged (query n fuel q) (orders.map fun p => (go p.1, p.2)) (limit.map go) (offset.map go)
    | .scoped named q =>
      .scoped (named.map fun p => (p.1, p.2.1, query n fuel p.2.2)) (query n fuel q)

def item (n : Renaming) : Nat → Item → Item
  | 0, i => i
  | fuel + 1, i =>
    match i with
    | .all => .all
    | .allOf s => .allOf (n.tableName s)
    | .expr e label written => .expr (expr n fuel e) label written

def term (n : Renaming) : Nat → Term → Term
  | 0, t => t
  | fuel + 1, .mk form source label test shared =>
    .mk form (operand n fuel source) label (test.map (expr n fuel)) shared

def operand (n : Renaming) : Nat → Operand → Operand
  | 0, o => o
  | fuel + 1, o =>
    match o with
    | .table database s => .table database (n.tableName s)
    | .query q => .query (query n fuel q)
    | .group terms => .group (terms.map (term n fuel))

end

end Renaming

end Winnow.Sql
