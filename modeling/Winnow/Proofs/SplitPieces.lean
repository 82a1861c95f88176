import Mathlib.Logic.Basic
import Winnow.Text.Split

namespace Winnow

theorem splitList_eq_splitOn (mark : Char) (cs : List Char) :
    splitList mark [] cs = cs.splitOn mark := by
  fun_induction splitList mark [] cs with
  | case1 => rw [List.splitOn_nil]
  | case2 c cs rest h ih =>
    obtain ⟨rfl, rfl⟩ : mark = c ∧ cs = rest := by simpa [after?] using h
    rw [ih, List.splitOn_cons_eq_if_modifyHead, if_pos (beq_self_eq_true mark)]
  | case3 c cs h ih =>
    have hc : ¬(c == mark) = true := by
      intro hc
      rw [eq_of_beq hc] at h
      simp [after?] at h
    obtain ⟨piece, pieces, hp⟩ := List.exists_cons_of_ne_nil (List.splitOn_ne_nil mark cs)
    rw [ih, List.splitOn_cons_eq_if_modifyHead, if_neg hc, hp]
    rfl

theorem splitOn?_singleton (mark : Char) (text : String) :
    splitOn? (String.singleton mark) text = some (splitAt mark text) := by
  unfold splitOn?
  rw [String.toList_singleton]
  rfl

theorem splitAt_ne_nil (mark : Char) (text : String) : splitAt mark text ≠ [] := by
  unfold splitAt
  simpa using splitList_ne_nil mark [] text.toList

theorem splitAt_empty (mark : Char) : splitAt mark "" = [""] := by
  simp [splitAt, splitList]

theorem splitAt_intercalate {mark : Char} {pieces : List String} (hne : pieces ≠ [])
    (hfree : ∀ piece ∈ pieces, mark ∉ piece.toList) :
    splitAt mark ((String.singleton mark).intercalate pieces) = pieces := by
  have hlists : ∀ cs ∈ pieces.map String.toList, mark ∉ cs := by
    intro cs hcs
    obtain ⟨piece, hp, rfl⟩ := List.mem_map.mp hcs
    exact hfree piece hp
  unfold splitAt
  rw [splitList_eq_splitOn, String.toList_intercalate, String.toList_singleton,
    List.splitOn_intercalate mark hlists (by simpa using hne), List.map_map]
  exact List.map_id'' (fun piece => String.ofList_toList) pieces

theorem intercalate_eq_empty {mark : Char} {pieces : List String}
    (hfree : ∀ piece ∈ pieces, mark ∉ piece.toList) :
    (String.singleton mark).intercalate pieces = "" ↔ pieces = [] ∨ pieces = [""] := by
  constructor
  · intro h
    refine or_iff_not_imp_left.mpr fun hne => ?_
    rw [← splitAt_intercalate hne hfree, h, splitAt_empty]
  · rintro (rfl | rfl)
    · rfl
    · rfl

theorem not_mem_intercalate {α : Type} {a : α} {separator : List α} {pieces : List (List α)}
    (hs : a ∉ separator) (hp : ∀ piece ∈ pieces, a ∉ piece) :
    a ∉ separator.intercalate pieces := by
  induction pieces with
  | nil => simp
  | cons piece pieces ih =>
    have hrest := ih fun p hm => hp p (by simp [hm])
    have hpiece := hp piece (by simp)
    cases pieces with
    | nil => simpa using hpiece
    | cons next pieces =>
      rw [List.intercalate_cons_cons]
      simp [hpiece, hs, hrest]

/-- Two texts around a mark are the halves of what they make, if the first is free of the mark. -/
theorem halves_append {mark : Char} {left right : String} (hl : left ≠ "") (hr : right ≠ "")
    (hfree : mark ∉ left.toList) :
    halves mark (left ++ String.singleton mark ++ right) = some (left, right) := by
  have hlist : (left ++ String.singleton mark ++ right).toList =
      left.toList ++ mark :: right.toList := by
    simp [String.toList_append]
  obtain ⟨a, as, ha⟩ := List.exists_cons_of_ne_nil (mt String.toList_eq_nil_iff.mp hl)
  obtain ⟨b, bs, hb⟩ := List.exists_cons_of_ne_nil (mt String.toList_eq_nil_iff.mp hr)
  unfold halves
  rw [hlist, cutList_append hfree, ha, hb]
  simp only [← ha, ← hb, String.ofList_toList]

end Winnow
