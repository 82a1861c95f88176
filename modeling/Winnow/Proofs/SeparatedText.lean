import Winnow.Proofs.SplitPieces

namespace Winnow

variable {s : Char} {sep piece cs : List Char}

theorem after?_eq_some {lead cs rest : List Char} :
    after? lead cs = some rest ↔ cs = lead ++ rest := by
  induction lead generalizing cs with
  | nil => simp [after?]
  | cons l lead ih =>
    cases cs with
    | nil => simp [after?]
    | cons c cs =>
      unfold after?
      split
      next h => simp [h, ih]
      next h => simp [Ne.symm h]

theorem splitList_append_sep (s : Char) (sep rest : List Char) :
    splitList s sep ((s :: sep) ++ rest) = [] :: splitList s sep rest := by
  have h : after? (s :: sep) (s :: (sep ++ rest)) = some rest := after?_eq_some.mpr rfl
  rw [List.cons_append, splitList]
  split
  next h' => rw [h] at h'; cases h'; rfl
  next h' => rw [h] at h'; cases h'

theorem splitList_cons_of_not_begun {c : Char} (h : ¬ (s :: sep) <+: c :: cs) :
    splitList s sep (c :: cs) = consHead c (splitList s sep cs) := by
  rw [splitList]
  split
  next rest h' => exact absurd ⟨rest, (after?_eq_some.mp h').symm⟩ h
  next => rfl

/-- In the piece with the separator after it, the separator stands at the end only. -/
def ClosedBy (sep piece : List Char) : Prop :=
  ∀ before behind, piece ++ sep = before ++ sep ++ behind → behind = []

namespace ClosedBy

theorem nil : ClosedBy sep [] := by
  intro before behind h
  have hl := congrArg List.length h
  simp only [List.length_append, List.length_nil] at hl
  exact List.eq_nil_of_length_eq_zero (by omega)

theorem of_not_mem (h : s ∉ piece) : ClosedBy (s :: sep) piece := by
  induction piece with
  | nil => exact nil
  | cons c piece ih =>
    obtain ⟨hc, hp⟩ := not_or.mp (mt List.mem_cons.mpr h)
    intro before behind he
    cases before with
    | nil => exact absurd (List.cons.inj he).1.symm hc
    | cons b before => exact ih hp before behind (List.cons.inj he).2

theorem tail {c : Char} (h : ClosedBy sep (c :: piece)) : ClosedBy sep piece := by
  intro before behind he
  exact h (c :: before) behind (by rw [List.cons_append, he]; rfl)

theorem not_begun {c : Char} (h : ClosedBy sep (c :: piece)) (rest : List Char) :
    ¬ sep <+: c :: piece ++ sep ++ rest := by
  intro hp
  obtain ⟨behind, hb⟩ : sep <+: c :: piece ++ sep :=
    List.prefix_of_prefix_length_le hp (List.prefix_append _ _)
      (by simp only [List.length_append]; omega)
  have hnil : behind = [] := h [] behind (by rw [List.nil_append, hb])
  have hl := congrArg List.length hb
  rw [hnil] at hl
  simp only [List.length_append, List.length_nil, List.length_cons] at hl
  omega

theorem not_inside (h : ClosedBy sep piece) (hs : sep ≠ []) : ¬ sep <:+: piece := by
  rintro ⟨before, behind, he⟩
  have hnil := h before (behind ++ sep) (by rw [← he, List.append_assoc])
  exact hs (List.append_eq_nil_iff.mp hnil).2

end ClosedBy

theorem splitList_of_closedBy (h : ClosedBy (s :: sep) piece) (rest : List Char) :
    splitList s sep (piece ++ (s :: sep) ++ rest) = piece :: splitList s sep rest := by
  induction piece with
  | nil => exact splitList_append_sep s sep rest
  | cons c piece ih =>
    have hno := h.not_begun rest
    rw [List.cons_append, List.cons_append] at hno ⊢
    rw [splitList_cons_of_not_begun hno, ih h.tail]
    rfl

theorem splitList_of_free (h : ¬ (s :: sep) <:+: piece) : splitList s sep piece = [piece] := by
  induction piece with
  | nil => rw [splitList]
  | cons c piece ih =>
    have hno := mt List.infix_cons_iff.mpr h
    rw [splitList_cons_of_not_begun (mt .inl hno), ih (mt .inr hno)]
    rfl

/-- Pieces that stay what they are with separators between them: each but the last one is closed
by the separator, the last one is free of it. -/
def Apart (sep : List Char) : List (List Char) → Prop
  | [] => True
  | [piece] => ¬ sep <:+: piece
  | piece :: next :: rest => ClosedBy sep piece ∧ Apart sep (next :: rest)

namespace Apart

variable {pieces chosen : List (List Char)}

theorem of_closedBy (hs : sep ≠ []) (h : ∀ piece ∈ pieces, ClosedBy sep piece) :
    Apart sep pieces := by
  induction pieces with
  | nil => trivial
  | cons piece rest ih =>
    cases rest with
    | nil => exact (h piece (by simp)).not_inside hs
    | cons next rest => exact ⟨h piece (by simp), ih fun p hp => h p (by simp [hp])⟩

theorem tail (h : Apart sep (piece :: pieces)) : Apart sep pieces := by
  cases pieces with
  | nil => trivial
  | cons next rest => exact h.2

theorem free_of_mem (hs : sep ≠ []) (h : Apart sep pieces) :
    ∀ piece ∈ pieces, ¬ sep <:+: piece := by
  induction pieces with
  | nil => simp
  | cons piece rest ih =>
    intro p hp
    cases rest with
    | nil =>
      rw [List.mem_singleton.mp hp]
      exact h
    | cons next rest =>
      rcases List.mem_cons.mp hp with rfl | hp
      · exact h.1.not_inside hs
      · exact ih h.2 p hp

theorem sublist (hs : sep ≠ []) (h : Apart sep pieces) (hc : chosen.Sublist pieces) :
    Apart sep chosen := by
  induction hc with
  | slnil => trivial
  | cons piece _ ih => exact ih h.tail
  | @cons_cons chosen pieces piece hc ih =>
    cases chosen with
    | nil => exact h.free_of_mem hs piece (by simp)
    | cons next rest =>
      cases pieces with
      | nil => cases hc
      | cons next' rest' => exact ⟨h.1, ih h.2⟩

theorem splitList_intercalate (hne : pieces ≠ []) (h : Apart (s :: sep) pieces) :
    splitList s sep ((s :: sep).intercalate pieces) = pieces := by
  induction pieces with
  | nil => exact absurd rfl hne
  | cons piece rest ih =>
    cases rest with
    | nil => simpa using splitList_of_free h
    | cons next rest =>
      rw [List.intercalate_cons_cons, splitList_of_closedBy h.1, ih (by simp) h.2]

end Apart

theorem intercalate_splitList (s : Char) (sep cs : List Char) :
    (s :: sep).intercalate (splitList s sep cs) = cs := by
  fun_induction splitList s sep cs with
  | case1 => simp
  | case2 c cs rest h ih =>
    obtain ⟨piece, pieces, hp⟩ := List.exists_cons_of_ne_nil (splitList_ne_nil s sep rest)
    rw [hp] at ih ⊢
    rw [List.intercalate_cons_cons, ih, after?_eq_some.mp h]
    rfl
  | case3 c cs h ih =>
    obtain ⟨piece, pieces, hp⟩ := List.exists_cons_of_ne_nil (splitList_ne_nil s sep cs)
    rw [hp] at ih ⊢
    cases pieces with
    | nil => simpa [consHead] using ih
    | cons next pieces =>
      rw [List.intercalate_cons_cons] at ih
      rw [consHead, List.intercalate_cons_cons, List.cons_append, List.cons_append, ih]

/-- A split is made at the leftmost separators: none begins earlier, not even one that would end
inside the separator that was found. -/
theorem apart_splitList (s : Char) (sep cs : List Char) :
    Apart (s :: sep) (splitList s sep cs) := by
  fun_induction splitList s sep cs with
  | case1 => simp [Apart]
  | case2 c cs rest h ih =>
    obtain ⟨piece, pieces, hp⟩ := List.exists_cons_of_ne_nil (splitList_ne_nil s sep rest)
    rw [hp] at ih ⊢
    exact ⟨ClosedBy.nil, ih⟩
  | case3 c cs h ih =>
    have hno : ¬ (s :: sep) <+: c :: cs := by
      rintro ⟨rest, hr⟩
      rw [after?_eq_some.mpr hr.symm] at h
      cases h
    have hcs := intercalate_splitList s sep cs
    obtain ⟨piece, pieces, hp⟩ := List.exists_cons_of_ne_nil (splitList_ne_nil s sep cs)
    rw [hp] at ih hcs ⊢
    cases pieces with
    | nil =>
      rw [List.intercalate_singleton] at hcs
      subst hcs
      exact mt List.infix_cons_iff.mp (not_or.mpr ⟨hno, ih⟩)
    | cons next pieces =>
      refine ⟨fun before behind he => ?_, ih.2⟩
      cases before with
      | nil =>
        refine absurd ?_ hno
        rw [← hcs, List.intercalate_cons_cons, ← List.cons_append, ← List.cons_append, he]
        exact ⟨_, by rw [List.nil_append, List.append_assoc]⟩
      | cons b before => exact ih.1 before behind (List.cons.inj he).2

variable {separator text : String} {pieces : List String}

theorem splitOn?_ne_none (h : separator ≠ "") (text : String) : splitOn? separator text ≠ none := by
  unfold splitOn?
  split
  next he => exact absurd (String.toList_eq_nil_iff.mp he) h
  next => simp

theorem eq_of_splitOn?_empty (h : splitOn? separator "" = some pieces) : pieces = [""] := by
  unfold splitOn? at h
  split at h
  next => cases h
  next =>
    cases h
    simp [splitList]

theorem splitOn?_intercalate (hs : separator ≠ "") (hne : pieces ≠ [])
    (h : Apart separator.toList (pieces.map String.toList)) :
    splitOn? separator (separator.intercalate pieces) = some pieces := by
  unfold splitOn?
  split
  next he => exact absurd (String.toList_eq_nil_iff.mp he) hs
  next s sep he =>
    rw [he] at h
    rw [String.toList_intercalate, he, h.splitList_intercalate (by simpa using hne), List.map_map]
    exact congrArg some (List.map_id'' (fun piece => String.ofList_toList) pieces)

theorem apart_of_splitOn? (h : splitOn? separator text = some pieces) :
    Apart separator.toList (pieces.map String.toList) := by
  unfold splitOn? at h
  split at h
  next => cases h
  next s sep he =>
    cases h
    have hback := @List.map_id'' _ (String.toList ∘ String.ofList)
      (fun cs => String.toList_ofList) (splitList s sep text.toList)
    rw [he, List.map_map, hback]
    exact apart_splitList s sep text.toList

theorem intercalate_of_splitOn? (h : splitOn? separator text = some pieces) :
    separator.intercalate pieces = text := by
  unfold splitOn? at h
  split at h
  next => cases h
  next s sep he =>
    cases h
    have hback := @List.map_id'' _ (String.toList ∘ String.ofList)
      (fun cs => String.toList_ofList) (splitList s sep text.toList)
    rw [← String.toList_inj, String.toList_intercalate, he, List.map_map, hback,
      intercalate_splitList]

theorem mem_intercalate_of_mem {α : Type} {a : α} {sep piece : List α} {pieces : List (List α)}
    (hp : piece ∈ pieces) (ha : a ∈ piece) : a ∈ sep.intercalate pieces := by
  induction pieces with
  | nil => cases hp
  | cons first rest ih =>
    cases rest with
    | nil => simpa using List.mem_singleton.mp hp ▸ ha
    | cons next rest =>
      rw [List.intercalate_cons_cons]
      rcases List.mem_cons.mp hp with rfl | hp
      · simp [ha]
      · exact List.mem_append_right _ (ih hp)

theorem intercalate_splitAt (mark : Char) (text : String) :
    (String.singleton mark).intercalate (splitAt mark text) = text :=
  intercalate_of_splitOn? (splitOn?_singleton mark text)

theorem not_mem_of_mem_splitAt {mark : Char} {piece : String} (h : piece ∈ splitAt mark text) :
    mark ∉ piece.toList := by
  have hapart := apart_of_splitOn? (splitOn?_singleton mark text)
  have hfree := hapart.free_of_mem (by simp) _ (List.mem_map_of_mem h)
  rw [String.toList_singleton] at hfree
  intro hm
  obtain ⟨before, behind, he⟩ := List.append_of_mem hm
  exact hfree ⟨before, behind, by rw [he, List.append_assoc, List.singleton_append]⟩

/-- A mark between two texts ends the last piece of the one and begins the first piece of the
other. -/
theorem splitAt_append (mark : Char) (a b : String) :
    splitAt mark (a ++ String.singleton mark ++ b) = splitAt mark a ++ splitAt mark b := by
  have hjoin : a ++ String.singleton mark ++ b =
      (String.singleton mark).intercalate (splitAt mark a ++ splitAt mark b) := by
    rw [String.intercalate_append_of_ne_nil (splitAt_ne_nil mark a) (splitAt_ne_nil mark b),
      intercalate_splitAt, intercalate_splitAt]
  rw [hjoin]
  refine splitAt_intercalate (by simp [splitAt_ne_nil]) fun piece hp => ?_
  rcases List.mem_append.mp hp with hp | hp
  · exact not_mem_of_mem_splitAt hp
  · exact not_mem_of_mem_splitAt hp

/-- The halves of a text are what stands around its first mark, if there is something on both
sides. -/
theorem halves_eq_some {mark : Char} {left right : String} :
    halves mark text = some (left, right) ↔ text = left ++ String.singleton mark ++ right ∧
      mark ∉ left.toList ∧ left ≠ "" ∧ right ≠ "" := by
  constructor
  · intro h
    unfold halves at h
    split at h
    next a as b bs hc =>
      cases h
      obtain ⟨ht, hfree⟩ := eq_of_cutList hc
      refine ⟨?_, by simpa using hfree, by simp, by simp⟩
      rw [← String.toList_inj, ht]
      simp [String.toList_append]
    next => cases h
  · rintro ⟨rfl, hfree, hl, hr⟩
    exact halves_append hl hr hfree

end Winnow
