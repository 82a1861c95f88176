import Winnow.Grammar.Condition
import Winnow.Proofs.SeparatedText

namespace Winnow

variable {separator text : String} {pieces : List String}

namespace Segment

/-- A segment as it stands in a text. -/
def written : Segment → String
  | condition c => c.written
  | malformed text => text

/-- A condition has both parts and no colon in its column. What is malformed has nothing before its
first colon or nothing after it, if there is a colon at all. -/
def Proper : Segment → Prop
  | condition c => ':' ∉ c.column.toList ∧ c.column ≠ "" ∧ c.expression ≠ ""
  | malformed text => ∀ left right, text = left ++ ":" ++ right → ':' ∉ left.toList →
      left = "" ∨ right = ""

theorem proper_malformed_iff : (malformed text).Proper ↔ halves ':' text = none := by
  constructor
  · intro h
    cases hh : halves ':' text with
    | none => rfl
    | some parts =>
      obtain ⟨ht, hfree, hl, hr⟩ := halves_eq_some.mp hh
      exact absurd (h _ _ ht hfree) (not_or.mpr ⟨hl, hr⟩)
  · intro h left right ht hfree
    refine Decidable.byContradiction fun hne => ?_
    have hh := halves_eq_some.mpr ⟨ht, hfree, not_or.mp hne⟩
    rw [h] at hh
    cases hh

theorem read_written {segment : Segment} (h : segment.Proper) : read segment.written = segment := by
  cases segment with
  | condition c =>
    have hh : halves ':' c.written = some (c.column, c.expression) :=
      halves_eq_some.mpr ⟨rfl, h⟩
    simp only [read, written, hh]
  | malformed text =>
    have hh := proper_malformed_iff.mp h
    simp only [read, written, hh]

theorem written_of_condition?_read {c : Condition} (h : (read text).condition? = some c) :
    c.written = text ∧ (condition c).Proper := by
  unfold read at h
  split at h
  next hh =>
    cases h
    obtain ⟨ht, hc⟩ := halves_eq_some.mp hh
    exact ⟨ht.symm, hc⟩
  next => cases h

theorem written_sublist (pieces : List String) :
    (((pieces.map read).filterMap condition?).map Condition.written).Sublist pieces := by
  induction pieces with
  | nil => exact List.Sublist.slnil
  | cons piece pieces ih =>
    rw [List.map_cons, List.filterMap_cons]
    split
    next => exact ih.cons piece
    next c hc =>
      rw [List.map_cons, (written_of_condition?_read hc).1]
      exact ih.cons_cons piece

/-- Conditions that are read from the pieces of a text, any selection of them, can be written down
again. -/
theorem rewritable {pieces : List String} {conditions : List Condition} (hs : separator ≠ "")
    (h : Apart separator.toList (pieces.map String.toList))
    (hc : conditions.Sublist ((pieces.map read).filterMap condition?)) :
    (∀ segment ∈ conditions.map condition, segment.Proper) ∧
      Apart separator.toList (((conditions.map condition).map written).map String.toList) := by
  constructor
  · intro segment hm
    obtain ⟨c, hread, rfl⟩ := List.mem_map.mp hm
    obtain ⟨found, hfound, hcond⟩ := List.mem_filterMap.mp (hc.subset hread)
    obtain ⟨piece, -, rfl⟩ := List.mem_map.mp hfound
    exact (written_of_condition?_read hcond).2
  · have hwritten : (conditions.map condition).map written = conditions.map Condition.written :=
      List.map_map
    rw [hwritten]
    refine h.sublist (mt String.toList_eq_nil_iff.mp hs) ?_
    exact ((hc.map Condition.written).trans (written_sublist pieces)).map String.toList

theorem filterMap_condition? (conditions : List Condition) :
    (conditions.map condition).filterMap condition? = conditions := by
  rw [List.filterMap_map]
  exact List.filterMap_some

/-- The text of some segments. -/
def textOf (separator : String) (segments : List Segment) : String :=
  separator.intercalate (segments.map written)

variable {segments : List Segment}

theorem map_read_written (h : ∀ segment ∈ segments, segment.Proper) :
    (segments.map written).map read = segments := by
  rw [List.map_map]
  exact (List.map_congr_left fun segment hm => read_written (h segment hm)).trans (List.map_id _)

theorem splitOn?_textOf (hs : separator ≠ "") (hne : segments ≠ [])
    (h : Apart separator.toList ((segments.map written).map String.toList)) :
    splitOn? separator (textOf separator segments) = some (segments.map written) :=
  splitOn?_intercalate hs (by simpa using hne) h

theorem scan_textOf {conditions : List Condition} (hs : separator ≠ "")
    (hp : ∀ segment ∈ conditions.map condition, segment.Proper)
    (h : Apart separator.toList (((conditions.map condition).map written).map String.toList)) :
    scan separator none (textOf separator (conditions.map condition)) =
      .ok (conditions.map condition) := by
  cases conditions with
  | nil => simp [scan, textOf]
  | cons c rest =>
    have hsplit := splitOn?_textOf hs (by simp) h
    have hne : textOf separator ((c :: rest).map condition) ≠ "" := by
      intro he
      rw [he] at hsplit
      have hw : c.written = "" := (List.cons.inj (eq_of_splitOn?_empty hsplit)).1
      have hm : ':' ∈ c.written.toList := by simp [Condition.written, String.toList_append]
      simp [hw] at hm
    unfold scan
    rw [if_neg (by simpa using hne), hsplit]
    exact congrArg Except.ok (map_read_written hp)

end Segment

namespace Condition

/-- How many of `n` conditions a limit lets through. -/
def granted (limit : Option Int) (n : Nat) : Nat :=
  match limit with
  | none => n
  | some most => min n (max most 0).toNat

theorem take_granted (limit : Option Int) (segments : List Segment) :
    (Segment.within limit segments).filterMap Segment.condition? =
      (segments.filterMap Segment.condition?).take
        (granted limit (segments.filterMap Segment.condition?).length) := by
  unfold Segment.within granted
  cases limit with
  | none => exact List.take_length.symm
  | some most =>
    have hn : (max most 0).toNat = most.toNat := by omega
    simp only [hn, Segment.conditions_upTo]
    rw [Nat.min_comm, ← List.take_eq_take_min]

theorem granted_of_lt_one {limit : Option Int} (h : limit.any (· < 1)) (n : Nat) :
    granted limit n = 0 := by
  cases limit with
  | none => cases h
  | some most =>
    have hm : most < 1 := by simpa using h
    simp only [granted]
    omega

/-- An empty text and a limit below one are no cases of their own: they have no conditions
anyway. -/
theorem parse_of_splitOn? (h : splitOn? separator text = some pieces) (limit : Option Int) :
    parse separator limit (some text) = .ok (((pieces.map Segment.read).filterMap
      Segment.condition?).take
        (granted limit ((pieces.map Segment.read).filterMap Segment.condition?).length)) := by
  unfold parse Segment.scan
  rw [Option.getD_some]
  split
  next hskip =>
    rcases Bool.or_eq_true _ _ ▸ hskip with ht | hl
    · rw [decide_eq_true_eq.mp ht] at h
      rw [eq_of_splitOn?_empty h]
      have hread : ([""].map Segment.read).filterMap Segment.condition? = [] := by decide
      rw [hread, List.take_nil]
      rfl
    · rw [granted_of_lt_one hl, List.take_zero]
      rfl
  next =>
    rw [h, ← take_granted]
    rfl

theorem parse_textOf {segments : List Segment} (hs : separator ≠ "")
    (hp : ∀ segment ∈ segments, segment.Proper)
    (h : Apart separator.toList ((segments.map Segment.written).map String.toList))
    (limit : Option Int) :
    parse separator limit (some (Segment.textOf separator segments)) =
      .ok ((segments.filterMap Segment.condition?).take
        (granted limit (segments.filterMap Segment.condition?).length)) := by
  by_cases hne : segments = []
  · subst hne
    unfold parse Segment.scan Segment.textOf
    rw [List.map_nil, String.intercalate_nil, Option.getD_some, if_pos (by simp)]
    rw [List.filterMap_nil, List.take_nil]
    rfl
  · rw [parse_of_splitOn? (Segment.splitOn?_textOf hs hne h), Segment.map_read_written hp]

/-- Parsing undoes writing: segments that do not run into the separator behind them are read as
they were written. -/
theorem parse_written {segments : List Segment} (hs : separator ≠ "")
    (h : ∀ segment ∈ segments,
      segment.Proper ∧ ClosedBy separator.toList segment.written.toList)
    (limit : Option Int) :
    parse separator limit (some (Segment.textOf separator segments)) =
      .ok ((segments.filterMap Segment.condition?).take
        (granted limit (segments.filterMap Segment.condition?).length)) := by
  refine parse_textOf hs (fun segment hm => (h segment hm).1) ?_ limit
  apply Apart.of_closedBy (mt String.toList_eq_nil_iff.mp hs)
  intro piece hp
  obtain ⟨text, ht, rfl⟩ := List.mem_map.mp hp
  obtain ⟨segment, hm, rfl⟩ := List.mem_map.mp ht
  exact (h segment hm).2

theorem parse_written_limited :
    parse "<:<" (some 1) (some "id:equal_5<:<junk<:<name:like_a:b") =
      .ok [⟨"id", "equal_5"⟩] :=
  @parse_written "<:<" [.condition ⟨"id", "equal_5"⟩, .malformed "junk",
      .condition ⟨"name", "like_a:b"⟩] (by decide) (by
    intro segment hm
    simp only [List.mem_cons, List.not_mem_nil, or_false] at hm
    rcases hm with rfl | rfl | rfl
    · exact ⟨⟨by decide, by decide, by decide⟩, ClosedBy.of_not_mem (by decide)⟩
    · exact ⟨Segment.proper_malformed_iff.mpr (by decide), ClosedBy.of_not_mem (by decide)⟩
    · exact ⟨⟨by decide, by decide, by decide⟩, ClosedBy.of_not_mem (by decide)⟩) (some 1)

theorem granted_granted (limit : Option Int) (n : Nat) :
    granted limit (granted limit n) = granted limit n := by
  cases limit with
  | none => rfl
  | some most =>
    simp only [granted]
    omega

theorem granted_le (limit : Option Int) (n : Nat) : granted limit n ≤ n := by
  cases limit with
  | none => exact Nat.le_refl n
  | some most => exact Nat.min_le_left _ _

/-- Writing undoes parsing. The conditions of a text, written down with the same separator, are
parsed again, and their text has no other segments: it is the text without what is malformed and
what is beyond the limit. -/
theorem parse_rewritten (hs : separator ≠ "") (limit : Option Int) (raw : Option String) :
    ∃ conditions, parse separator limit raw = .ok conditions ∧
      parse separator limit (some (separator.intercalate (conditions.map written))) =
        .ok conditions ∧
      Segment.scan separator none (separator.intercalate (conditions.map written)) =
        .ok (conditions.map .condition) := by
  obtain ⟨pieces, hsplit⟩ := Option.ne_none_iff_exists'.mp (splitOn?_ne_none hs (raw.getD ""))
  let found := (pieces.map Segment.read).filterMap Segment.condition?
  let conditions := found.take (granted limit found.length)
  have hparse : parse separator limit raw = .ok conditions := parse_of_splitOn? hsplit limit
  have hagain : granted limit conditions.length = conditions.length := by
    rw [List.length_take_of_le (granted_le limit found.length), granted_granted]
  obtain ⟨hproper, hapart⟩ := Segment.rewritable hs (apart_of_splitOn? hsplit)
    (List.take_sublist (granted limit found.length) found)
  have htext : separator.intercalate (conditions.map written) =
      Segment.textOf separator (conditions.map .condition) := by
    unfold Segment.textOf
    rw [List.map_map]
    rfl
  refine ⟨conditions, hparse, ?_, ?_⟩
  · rw [htext, parse_textOf hs hproper hapart, Segment.filterMap_condition?, hagain,
      List.take_length]
  · rw [htext]
    exact Segment.scan_textOf hs hproper hapart

/-- Of the three `a` behind `x:1` the first two are the separator, with or without the piece that
follows it. -/
theorem parse_rewritten_overlapping : "aa" ≠ "" ∧
    ∃ conditions, parse "aa" (some 2) (some "x:1aaajunkaay:2aaz:3") = .ok conditions ∧
      parse "aa" (some 2) (some ("aa".intercalate (conditions.map written))) = .ok conditions ∧
      Segment.scan "aa" none ("aa".intercalate (conditions.map written)) =
        .ok (conditions.map .condition) :=
  ⟨by decide, parse_rewritten (by decide) (some 2) (some "x:1aaajunkaay:2aaz:3")⟩

end Condition

end Winnow
