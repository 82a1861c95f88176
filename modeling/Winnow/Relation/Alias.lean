import Winnow.Text.Split

namespace Winnow

def isSmallS (c : Char) : Bool := c = 's' || c = 'S' || c = 'ſ'

/-- What follows blanks, the word `as` and blanks at the start of `cs`. -/
def afterAs? : List Char → Option (List Char)
  | [] => none
  | c :: cs =>
    if isBlank c then
      match cs.dropWhile isBlank with
      | a :: s :: b :: rest =>
        if (a = 'a' || a = 'A') && isSmallS s && isBlank b then some (rest.dropWhile isBlank)
        else none
      | _ => none
    else none

theorem length_dropWhile_le {α : Type} (p : α → Bool) (xs : List α) :
    (xs.dropWhile p).length ≤ xs.length :=
  (List.dropWhile_sublist p).length_le

theorem length_afterAs? {cs rest : List Char} (h : afterAs? cs = some rest) :
    rest.length < cs.length := by
  cases cs with
  | nil => simp [afterAs?] at h
  | cons c cs =>
    simp only [afterAs?] at h
    have hd := length_dropWhile_le isBlank cs
    split at h
    · split at h
      · rename_i a s b tail hcs
        split at h
        · have ht := length_dropWhile_le isBlank tail
          simp only [Option.some.injEq] at h
          subst h
          simp only [hcs, List.length_cons] at hd ⊢
          omega
        · simp at h
      · simp at h
    · simp at h

/-- The parts of an entry between the words `as`, read from the left. -/
def aliasParts : List Char → List (List Char)
  | [] => [[]]
  | c :: cs =>
    match _h : afterAs? (c :: cs) with
    | some rest => [] :: aliasParts rest
    | none => consHead c (aliasParts cs)
termination_by cs => cs.length
decreasing_by
  · exact length_afterAs? _h
  · simp

def entryParts (entry : String) : List (List Char) :=
  aliasParts (trim entry.toList)

/-- A select entry with its `as` in small letters between single blanks. -/
def normalizeEntry (entry : String) : String :=
  String.ofList (List.intercalate [' ', 'a', 's', ' '] (entryParts entry))

def sourceAndAlias? (entry : String) : Option (String × String) :=
  match entryParts entry with
  | [a :: source, b :: name] => some (String.ofList (a :: source), String.ofList (b :: name))
  | _ => none

end Winnow
