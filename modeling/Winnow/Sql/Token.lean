namespace Winnow.Sql

inductive Token where
  /-- A name or a keyword. -/
  | word (s : String)
  /-- A name in quotes, as it is written and as it is meant; `double` for double quotes. -/
  | quotedName (raw name : String) (double : Bool)
  | text (raw s : String)
  | number (raw : String)
  | blob (raw : String)
  /-- A place for a bound value. -/
  | parameter (raw : String)
  | mark (raw : String)
  | bad (raw : String)
  deriving DecidableEq, Repr

def Token.raw : Token → String
  | word s => s
  | quotedName raw _ _ | text raw _ | number raw | blob raw | parameter raw | mark raw | bad raw =>
    raw

/-- A token with the blanks and comments before it. -/
structure Lexeme where
  space : List Char := []
  token : Token
  deriving DecidableEq, Repr

namespace Scan

def isSpace (c : Char) : Bool := [' ', '\t', '\n', '\r', '\x0c'].contains c

/-- A letter, a digit, an underscore, a dollar sign, or any character beyond ASCII. -/
def isNameChar (c : Char) : Bool := c.isAlphanum || c = '_' || c = '$' || 0x80 ≤ c.toNat

def isNameStart (c : Char) : Bool := isNameChar c && !c.isDigit && c != '$'

def isHexDigit (c : Char) : Bool :=
  c.isDigit || ('a' ≤ c && c ≤ 'f') || ('A' ≤ c && c ≤ 'F')

/-- What stands up to the end of a comment between `/*` and `*/`, with that end. -/
def blockComment : List Char → List Char
  | '*' :: '/' :: _ => ['*', '/']
  | c :: cs => c :: blockComment cs
  | [] => []

def space : Nat → List Char → List Char
  | 0, _ => []
  | fuel + 1, cs =>
    match cs with
    | '-' :: '-' :: rest =>
      let line := '-' :: '-' :: rest.takeWhile (· != '\n')
      line ++ space fuel (cs.drop line.length)
    | '/' :: '*' :: rest =>
      if rest.isEmpty then []
      else
        let comment := '/' :: '*' :: blockComment rest
        comment ++ space fuel (cs.drop comment.length)
    | c :: rest => if isSpace c || c.toNat = 0xFEFF then c :: space fuel rest else []
    | [] => []

/-- What stands up to the closing quote, with it, and the text that is meant. -/
def quotedBody (quote : Char) : List Char → Option (List Char × List Char)
  | [] => none
  | c :: cs =>
    if c = quote then
      match cs with
      | d :: rest =>
        if d = quote then
          (quotedBody quote rest).map fun p => (quote :: quote :: p.1, quote :: p.2)
        else some ([quote], [])
      | [] => some ([quote], [])
    else (quotedBody quote cs).map fun p => (c :: p.1, c :: p.2)

def exponent (cs : List Char) : List Char :=
  match cs with
  | e :: rest =>
    if e = 'e' || e = 'E' then
      let sign := rest.take 1 |>.filter fun c => c = '+' || c = '-'
      let ds := (rest.drop sign.length).takeWhile Char.isDigit
      if ds.isEmpty then [] else e :: (sign ++ ds)
    else []
  | [] => []

def numberBody (cs : List Char) : List Char :=
  match cs with
  | '0' :: x :: rest =>
    let hex := rest.takeWhile isHexDigit
    if (x = 'x' || x = 'X') && !hex.isEmpty then '0' :: x :: hex else decimal cs
  | _ => decimal cs
where
  decimal (cs : List Char) : List Char :=
    let whole := cs.takeWhile Char.isDigit
    let rest := cs.drop whole.length
    let fraction := match rest with
      | '.' :: more => '.' :: more.takeWhile Char.isDigit
      | _ => []
    whole ++ fraction ++ exponent (rest.drop fraction.length)

def longMarks : List String := ["->>", "->", "==", "<=", "<>", "<<", ">=", ">>", "!=", "||"]

def shortMarks : List Char :=
  ['-', '(', ')', ';', '+', '*', '/', '%', '=', '<', '>', '|', ',', '&', '~', '.']

def markAt (cs : List Char) : Option String :=
  match longMarks.find? fun m => m.toList.isPrefixOf cs with
  | some m => some m
  | none =>
    match cs with
    | c :: _ => if shortMarks.contains c then some (String.singleton c) else none
    | [] => none

/-- A number and what is written right after it; with a letter behind it, it is no token. -/
def numberToken (cs : List Char) : Token :=
  let body := numberBody cs
  let more := (cs.drop body.length).takeWhile isNameChar
  if more.isEmpty then .number (String.ofList body) else .bad (String.ofList (body ++ more))

def quotedToken (quote : Char) (cs : List Char) : Token :=
  match quotedBody quote cs with
  | none => .bad (String.ofList (quote :: cs))
  | some (body, meant) =>
    let raw := String.ofList (quote :: body)
    if quote = '\'' then .text raw (String.ofList meant)
    else .quotedName raw (String.ofList meant) (quote == '"')

def bracketToken (cs : List Char) : Token :=
  let name := cs.takeWhile (· != ']')
  if name.length < cs.length then
    .quotedName (String.ofList ('[' :: name ++ [']'])) (String.ofList name) false
  else .bad (String.ofList ('[' :: cs))

def blobToken (x : Char) (cs : List Char) : Token :=
  let digits := cs.takeWhile isHexDigit
  match cs.drop digits.length with
  | '\'' :: _ =>
    let raw := String.ofList (x :: '\'' :: digits ++ ['\''])
    if digits.length % 2 = 0 then .blob raw else .bad raw
  | rest =>
    let body := cs.takeWhile (· != '\'')
    .bad (String.ofList (x :: '\'' :: body ++ (if rest.contains '\'' then ['\''] else [])))

def namedParameter (lead : Char) (cs : List Char) : Token :=
  let name := cs.takeWhile isNameChar
  let raw := String.ofList (lead :: name)
  if name.isEmpty then .bad raw else .parameter raw

def tokenAt (c : Char) (cs : List Char) : Token :=
  if c = '\'' || c = '"' || c = '\x60' then quotedToken c cs
  else if c = '[' then bracketToken cs
  else if c = '?' then .parameter (String.ofList (c :: cs.takeWhile Char.isDigit))
  else if c = ':' || c = '@' || c = '$' || c = '#' then namedParameter c cs
  else if c.isDigit || (c = '.' && (cs.head?.any Char.isDigit)) then numberToken (c :: cs)
  else if (c = 'x' || c = 'X') && cs.head? = some '\'' then blobToken c (cs.drop 1)
  else if isNameStart c then .word (String.ofList (c :: cs.takeWhile isNameChar))
  else match markAt (c :: cs) with
    | some m => .mark m
    | none => .bad (String.singleton c)

def lexemes : Nat → List Char → List Lexeme × List Char
  | 0, _ => ([], [])
  | fuel + 1, cs =>
    let gap := space cs.length cs
    match cs.drop gap.length with
    | [] => ([], gap)
    | c :: rest =>
      let token := tokenAt c rest
      let (more, last) := lexemes fuel ((c :: rest).drop token.raw.length)
      (⟨gap, token⟩ :: more, last)

end Scan

def scan (text : String) : List Lexeme × List Char :=
  Scan.lexemes (text.length + 1) text.toList

/-- The text that some tokens are read from, with what stands between them and up to `next`. -/
def spanText (lexemes : List Lexeme) (next : List Char) : String :=
  match lexemes with
  | [] => ""
  | first :: rest =>
    let body := first.token.raw.toList ++
      rest.flatMap fun l => l.space ++ l.token.raw.toList
    String.ofList ((body ++ next).reverse.dropWhile Scan.isSpace).reverse

end Winnow.Sql
