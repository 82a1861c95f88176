namespace Winnow

/-- White space: the blanks of Unicode and the four information separators. -/
def isBlank (c : Char) : Bool :=
  let n := c.toNat
  (9 ≤ n && n ≤ 13) || (28 ≤ n && n ≤ 32) || n == 0x85 || n == 0xA0 || n == 0x1680 ||
    (0x2000 ≤ n && n ≤ 0x200A) || n == 0x2028 || n == 0x2029 || n == 0x202F || n == 0x205F ||
    n == 0x3000

def isSpace (c : Char) : Bool :=
  isBlank c && !(28 ≤ c.toNat && c.toNat ≤ 31)

def isNumberBlank (c : Char) : Bool := c = ' ' || (9 ≤ c.toNat && c.toNat ≤ 13)

def trimOf (p : Char → Bool) (cs : List Char) : List Char :=
  ((cs.dropWhile p).reverse.dropWhile p).reverse

def trimRight (cs : List Char) : List Char :=
  (cs.reverse.dropWhile isBlank).reverse

def trim (cs : List Char) : List Char :=
  trimRight (cs.dropWhile isBlank)

def stripped (text : String) : String :=
  String.ofList (trim text.toList)

/-- What stands before and after the first `mark`; `none` when there is no `mark`. -/
def cutList (mark : Char) : List Char → Option (List Char × List Char)
  | [] => none
  | c :: rest =>
    if c = mark then some ([], rest)
    else (cutList mark rest).map fun halves => (c :: halves.1, halves.2)

theorem cutList_append {mark : Char} {xs : List Char} (h : mark ∉ xs) (ys : List Char) :
    cutList mark (xs ++ mark :: ys) = some (xs, ys) := by
  induction xs with
  | nil => simp [cutList]
  | cons x xs ih =>
    obtain ⟨hx, hxs⟩ := not_or.mp (mt List.mem_cons.mpr h)
    rw [List.cons_append, cutList, if_neg (Ne.symm hx), ih hxs]
    rfl

theorem cutList_eq_none {mark : Char} {cs : List Char} (h : mark ∉ cs) :
    cutList mark cs = none := by
  induction cs with
  | nil => rfl
  | cons c cs ih =>
    obtain ⟨hc, hcs⟩ := not_or.mp (mt List.mem_cons.mpr h)
    rw [cutList, if_neg (Ne.symm hc), ih hcs]
    rfl

theorem eq_of_cutList {mark : Char} {cs xs ys : List Char} (h : cutList mark cs = some (xs, ys)) :
    cs = xs ++ mark :: ys ∧ mark ∉ xs := by
  induction cs generalizing xs with
  | nil => cases h
  | cons c cs ih =>
    unfold cutList at h
    split at h
    next hc =>
      cases h
      exact ⟨by rw [hc, List.nil_append], by simp⟩
    next hc =>
      obtain ⟨⟨xs', ys'⟩, hr, he⟩ := Option.map_eq_some_iff.mp h
      obtain ⟨rfl, rfl⟩ := Prod.mk.inj he
      obtain ⟨hcs, hn⟩ := ih hr
      exact ⟨by rw [hcs, List.cons_append], by simpa using ⟨Ne.symm hc, hn⟩⟩

def after? : List Char → List Char → Option (List Char)
  | [], cs => some cs
  | _ :: _, [] => none
  | l :: lead, c :: cs => if l = c then after? lead cs else none

def consHead (c : Char) : List (List Char) → List (List Char)
  | [] => [[c]]
  | piece :: pieces => (c :: piece) :: pieces

theorem length_after? {lead cs rest : List Char} (h : after? lead cs = some rest) :
    rest.length + lead.length = cs.length := by
  induction lead generalizing cs with
  | nil => simp_all [after?]
  | cons l lead ih =>
    cases cs with
    | nil => simp [after?] at h
    | cons c cs =>
      simp only [after?] at h
      split at h
      · have := ih h
        simp only [List.length_cons]
        omega
      · simp at h

/-- The pieces of a text between the occurrences of the separator `s :: sep`. -/
def splitList (s : Char) (sep : List Char) : List Char → List (List Char)
  | [] => [[]]
  | c :: cs =>
    match _h : after? (s :: sep) (c :: cs) with
    | some rest => [] :: splitList s sep rest
    | none => consHead c (splitList s sep cs)
termination_by cs => cs.length
decreasing_by
  · have := length_after? _h
    simp only [List.length_cons] at this ⊢
    omega
  · simp

theorem splitList_ne_nil (s : Char) (sep cs : List Char) : splitList s sep cs ≠ [] := by
  fun_induction splitList s sep cs with
  | case1 => simp
  | case2 => simp
  | case3 c cs h ih =>
    cases hp : splitList s sep cs <;> simp [consHead]

def cut (mark : Char) (text : String) : Option (String × String) :=
  (cutList mark text.toList).map fun halves => (String.ofList halves.1, String.ofList halves.2)

def halves (mark : Char) (text : String) : Option (String × String) :=
  match cutList mark text.toList with
  | some (a :: as, b :: bs) => some (String.ofList (a :: as), String.ofList (b :: bs))
  | _ => none

def splitAt (mark : Char) (text : String) : List String :=
  (splitList mark [] text.toList).map String.ofList

/-- The pieces of `text` between the occurrences of `separator`; no text can be split at the empty
separator. -/
def splitOn? (separator text : String) : Option (List String) :=
  match separator.toList with
  | [] => none
  | s :: sep => some ((splitList s sep text.toList).map String.ofList)

def occursIn (piece text : String) : Bool :=
  match piece.toList with
  | [] => true
  | p :: ps => 1 < (splitList p ps text.toList).length

def replaced (old new text : String) : String :=
  match splitOn? old text with
  | none => text
  | some pieces => String.intercalate new pieces

end Winnow
