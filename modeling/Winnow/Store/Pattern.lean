namespace Winnow

def sameLetter (a b : Char) : Bool := a.toLower = b.toLower

def anyTail (p : List Char → Bool) : List Char → Bool
  | [] => p []
  | c :: cs => p (c :: cs) || anyTail p cs

def likeList : List Char → List Char → Bool
  | [], cs => cs.isEmpty
  | p :: ps, cs =>
    if p = '%' then anyTail (likeList ps) cs
    else match cs with
      | [] => false
      | c :: rest => (p = '_' || sameLetter p c) && likeList ps rest

def untilZero (text : String) : List Char := text.toList.takeWhile (·.toNat != 0)

/-- Whether a text matches a pattern; both end at a character zero. -/
def isLike (pattern text : String) : Bool := likeList (untilZero pattern) (untilZero text)

end Winnow
