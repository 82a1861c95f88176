import Winnow.Proofs.ExpressionMeaning
import Winnow.Proofs.SeparatedText

namespace Winnow

/-- The text is `words`, or goes on with an underscore after them. -/
def Begins (words text : String) : Prop :=
  text = words ∨ ∃ rest, text = words ++ "_" ++ rest

/-- The pieces of a text between its commas. -/
structure Pieces (text : String) (pieces : List String) : Prop where
  exist : pieces ≠ []
  apart : ∀ piece ∈ pieces, ',' ∉ piece.toList
  whole : ",".intercalate pieces = text

/-- What the text after a keyword stands for. A range has two bounds, further ones are dropped and
a missing one is empty; a test for null has no text after it. -/
def FilterKind.Reads (kind : FilterKind) (text : String) (operands : List String) : Prop :=
  match kind with
  | .equal | .notEqual | .like | .notLike | .above | .below | .notAbove | .notBelow =>
    operands = [text]
  | .oneOf | .notOneOf => Pieces text operands
  | .between | .notBetween =>
    ∃ pieces, Pieces text pieces ∧ operands = [pieces.getD 0 "", pieces.getD 1 ""]
  | .isNull | .isNotNull => False

/-- The expressions that a kind with its operands is spelled by. -/
inductive Spelled (expression : String) : FilterKind → List String → Prop
  | isNull : Begins "is_null" expression → Spelled expression .isNull []
  | isNotNull : Begins "is_not-null" expression → Spelled expression .isNotNull []
  | valued {kind : FilterKind} {text : String} {operands : List String} : text ≠ "" →
      '_' ∉ text.toList → kind.Reads text operands →
      Begins (kind.keyword ++ "_" ++ text) expression → Spelled expression kind operands

theorem pieces_iff {text : String} {pieces : List String} :
    Pieces text pieces ↔ pieces = splitAt ',' text := by
  constructor
  · rintro ⟨hne, hfree, rfl⟩
    exact (splitAt_intercalate hne hfree).symm
  · rintro rfl
    exact ⟨splitAt_ne_nil ',' text, fun _ => not_mem_of_mem_splitAt, intercalate_splitAt ',' text⟩

theorem Pieces.free {text : String} {pieces : List String} {c : Char} (h : Pieces text pieces)
    (hc : c ∉ text.toList) : ∀ piece ∈ pieces, c ∉ piece.toList := by
  intro piece hp hm
  rw [← h.whole, String.toList_intercalate] at hc
  exact hc (mem_intercalate_of_mem (List.mem_map_of_mem hp) hm)

theorem not_mem_getD {pieces : List String} {c : Char} (h : ∀ piece ∈ pieces, c ∉ piece.toList)
    (i : Nat) : c ∉ (pieces.getD i "").toList := by
  rw [List.getD_eq_getElem?_getD]
  cases hi : pieces[i]? with
  | none => simp
  | some piece => exact h piece (List.mem_of_getElem? hi)

theorem begins_iff {words : List String} {text : String} (hne : words ≠ [])
    (hfree : ∀ word ∈ words, '_' ∉ word.toList) :
    Begins ("_".intercalate words) text ↔ words <+: splitAt '_' text := by
  have hwords : splitAt '_' ("_".intercalate words) = words := splitAt_intercalate hne hfree
  constructor
  · rintro (rfl | ⟨rest, rfl⟩)
    · exact hwords.symm ▸ List.prefix_refl words
    · have happend : splitAt '_' ("_".intercalate words ++ "_" ++ rest) =
          splitAt '_' ("_".intercalate words) ++ splitAt '_' rest := splitAt_append '_' _ rest
      rw [happend, hwords]
      exact List.prefix_append _ _
  · rintro ⟨others, ho⟩
    have htext := intercalate_splitAt '_' text
    rw [← ho] at htext
    by_cases hothers : others = []
    · rw [hothers, List.append_nil] at htext
      exact .inl htext.symm
    · rw [String.intercalate_append_of_ne_nil hne hothers] at htext
      exact .inr ⟨_, htext.symm⟩

namespace FilterKind

/-- The words of a keyword. -/
def words : FilterKind → List String
  | equal => ["equal"]
  | notEqual => ["not", "equal"]
  | like => ["like"]
  | notLike => ["not", "like"]
  | between => ["between"]
  | notBetween => ["not", "between"]
  | oneOf => ["in"]
  | notOneOf => ["not", "in"]
  | isNull => ["is", "null"]
  | isNotNull => ["is", "not-null"]
  | above => ["upper"]
  | below => ["lower"]
  | notAbove => ["not", "upper"]
  | notBelow => ["not", "lower"]

theorem keyword_eq (kind : FilterKind) : kind.keyword = "_".intercalate kind.words := by
  cases kind <;> decide

theorem words_ne_nil (kind : FilterKind) : kind.words ≠ [] := by
  cases kind <;> simp [words]

theorem words_free (kind : FilterKind) : ∀ word ∈ kind.words, '_' ∉ word.toList := by
  cases kind <;> decide

theorem reads_negation (kind : FilterKind) : kind.negation.Reads = kind.Reads := by
  cases kind <;> rfl

theorem words_of_reads {kind : FilterKind} {text : String} {operands : List String}
    (h : kind.Reads text operands) :
    (∃ word, kind.words = [word] ∧ word ≠ "not" ∧ word ≠ "is") ∨
      ∃ word, kind.words = ["not", word] := by
  cases kind with
  | isNull | isNotNull => exact h.elim
  | equal | like | between | oneOf | above | below => exact .inl ⟨_, rfl, by decide, by decide⟩
  | notEqual | notLike | notBetween | notOneOf | notAbove | notBelow => exact .inr ⟨_, rfl⟩

namespace Reads

variable {kind : FilterKind} {text : String} {operands : List String}

theorem free (h : kind.Reads text operands) (hfree : '_' ∉ text.toList) :
    ∀ operand ∈ operands, '_' ∉ operand.toList := by
  cases kind with
  | isNull | isNotNull => exact h.elim
  | oneOf | notOneOf => exact Pieces.free h hfree
  | between | notBetween =>
    obtain ⟨pieces, hp, rfl⟩ := h
    have hbound := not_mem_getD (hp.free hfree)
    intro bound hm
    rcases List.mem_pair.mp hm with rfl | rfl
    · exact hbound 0
    · exact hbound 1
  | _ =>
    cases h
    simpa using hfree

theorem whole (h : kind.Reads text operands) (ht : text ≠ "") :
    ",".intercalate operands ≠ "" ∧ kind.Reads (",".intercalate operands) operands := by
  cases kind with
  | isNull | isNotNull => exact h.elim
  | oneOf | notOneOf =>
    have hwhole := Pieces.whole h
    exact ⟨hwhole ▸ ht, hwhole.symm ▸ h⟩
  | between | notBetween =>
    obtain ⟨pieces, hp, rfl⟩ := h
    have hbound := not_mem_getD hp.apart
    refine ⟨by simp, _, ⟨by simp, ?_, rfl⟩, rfl⟩
    intro bound hm
    rcases List.mem_pair.mp hm with rfl | rfl
    · exact hbound 0
    · exact hbound 1
  | _ =>
    cases h
    rw [String.intercalate_singleton]
    exact ⟨ht, rfl⟩

end Reads

theorem begins_keyword_iff (kind : FilterKind) {expression : String} :
    Begins kind.keyword expression ↔ kind.words <+: splitAt '_' expression :=
  kind.keyword_eq ▸ begins_iff kind.words_ne_nil kind.words_free

theorem begins_valued_iff (kind : FilterKind) {text expression : String}
    (hfree : '_' ∉ text.toList) :
    Begins (kind.keyword ++ "_" ++ text) expression ↔
      kind.words ++ [text] <+: splitAt '_' expression := by
  have hjoin : kind.keyword ++ "_" ++ text = "_".intercalate (kind.words ++ [text]) := by
    rw [String.intercalate_append_of_ne_nil kind.words_ne_nil (by simp), ← kind.keyword_eq,
      String.intercalate_singleton]
  rw [hjoin]
  refine begins_iff (by simp) fun word hw => ?_
  rcases List.mem_append.mp hw with hw | hw
  · exact kind.words_free word hw
  · rwa [List.mem_singleton.mp hw]

end FilterKind

namespace Predicate

variable {kind : FilterKind} {word operand : String} {operands : List String}

theorem reads_bounds :
    (∃ pieces, Pieces operand pieces ∧ operands = [pieces.getD 0 "", pieces.getD 1 ""]) ↔
      operands = bounds operand := by
  rw [bounds_eq]
  constructor
  · rintro ⟨pieces, hp, rfl⟩
    rw [pieces_iff.mp hp]
  · rintro rfl
    exact ⟨_, pieces_iff.mpr rfl, rfl⟩

theorem plain?_eq_some : plain? word operand = some (kind, operands) ↔
    operand ≠ "" ∧ kind.words = [word] ∧ kind.Reads operand operands := by
  unfold plain?
  by_cases ho : operand = ""
  · simp [ho]
  · simp only [ho, ↓reduceIte, ne_eq, not_false_eq_true, true_and]
    constructor
    · intro h
      split at h
      next => cases h; exact ⟨rfl, rfl⟩
      next => cases h; exact ⟨rfl, rfl⟩
      next => cases h; exact ⟨rfl, rfl⟩
      next => cases h; exact ⟨rfl, rfl⟩
      next => cases h; exact ⟨rfl, reads_bounds.mpr rfl⟩
      next => cases h; exact ⟨rfl, pieces_iff.mpr rfl⟩
      next => cases h
    · rintro ⟨hw, hr⟩
      cases kind with
      | equal | like | above | below =>
        cases hw
        cases hr
        rfl
      | between =>
        cases hw
        cases reads_bounds.mp hr
        rfl
      | oneOf =>
        cases hw
        cases pieces_iff.mp hr
        rfl
      | isNull | isNotNull => exact hr.elim
      | notEqual | notLike | notBetween | notOneOf | notAbove | notBelow => cases hw

theorem negated?_eq_some : negated? word operand = some (kind, operands) ↔
    operand ≠ "" ∧ kind.words = ["not", word] ∧ kind.Reads operand operands := by
  rw [negated?_eq, Option.map_eq_some_iff]
  constructor
  · rintro ⟨⟨base, vs⟩, hplain, he⟩
    obtain ⟨rfl, rfl⟩ := Prod.mk.inj he
    obtain ⟨ho, hw, hr⟩ := plain?_eq_some.mp hplain
    refine ⟨ho, ?_, by rwa [FilterKind.reads_negation]⟩
    cases base <;> cases hw <;> rfl
  · rintro ⟨ho, hw, hr⟩
    have hbase : ∃ base : FilterKind, base.words = [word] ∧ base.negation = kind := by
      cases kind with
      | notEqual => cases hw; exact ⟨.equal, rfl, rfl⟩
      | notLike => cases hw; exact ⟨.like, rfl, rfl⟩
      | notBetween => cases hw; exact ⟨.between, rfl, rfl⟩
      | notOneOf => cases hw; exact ⟨.oneOf, rfl, rfl⟩
      | notAbove => cases hw; exact ⟨.above, rfl, rfl⟩
      | notBelow => cases hw; exact ⟨.below, rfl, rfl⟩
      | isNull | isNotNull => exact hr.elim
      | equal | like | between | oneOf | above | below => simp [FilterKind.words] at hw
    obtain ⟨base, hb, rfl⟩ := hbase
    rw [FilterKind.reads_negation] at hr
    exact ⟨(base, operands), plain?_eq_some.mpr ⟨ho, hb, hr⟩, rfl⟩

theorem null?_eq_some : null? word = some (kind, operands) ↔
    kind.words = ["is", word] ∧ operands = [] := by
  unfold null?
  constructor
  · intro h
    split at h
    next => cases h; exact ⟨rfl, rfl⟩
    next => cases h; exact ⟨rfl, rfl⟩
    next => cases h
  · rintro ⟨hw, rfl⟩
    cases kind with
    | isNull | isNotNull =>
      cases hw
      rfl
    | _ => simp [FilterKind.words] at hw

theorem ofTokens?_of_ne {first : String} (hnot : first ≠ "not") (his : first ≠ "is")
    (rest : List String) : ofTokens? (first :: rest) = plain? first (rest.getD 0 "") := by
  unfold ofTokens?
  simp only [List.getD_cons_zero, List.getD_cons_succ]

variable {expression : String}

theorem spelled_of_ofTokens? (h : ofTokens? (splitAt '_' expression) = some (kind, operands)) :
    Spelled expression kind operands := by
  have htoken : ∀ token ∈ splitAt '_' expression, '_' ∉ token.toList :=
    fun _ => not_mem_of_mem_splitAt
  have hbegins := fun (text : String) (hfree : '_' ∉ text.toList) =>
    (@FilterKind.begins_valued_iff kind text expression hfree).mpr
  obtain ⟨first, rest, hsplit⟩ :=
    List.exists_cons_of_ne_nil (splitAt_ne_nil '_' expression)
  rw [hsplit] at h htoken hbegins
  by_cases hnot : first = "not"
  · subst hnot
    obtain ⟨ho, hw, hr⟩ := negated?_eq_some.mp h
    rcases rest with _ | ⟨word, _ | ⟨text, others⟩⟩
    · exact absurd rfl ho
    · exact absurd rfl ho
    · have hfree := htoken text (by simp)
      exact .valued ho hfree hr (hbegins text hfree (hw ▸ ⟨others, rfl⟩))
  · by_cases his : first = "is"
    · subst his
      obtain ⟨hw, rfl⟩ := null?_eq_some.mp h
      have hb : Begins kind.keyword expression := by
        rw [kind.begins_keyword_iff, hsplit, hw]
        rcases rest with _ | ⟨word, others⟩
        · cases kind <;> simp [FilterKind.words] at hw
        · exact ⟨others, rfl⟩
      cases kind with
      | isNull => exact .isNull hb
      | isNotNull => exact .isNotNull hb
      | _ => simp [FilterKind.words] at hw
    · rw [ofTokens?_of_ne hnot his] at h
      obtain ⟨ho, hw, hr⟩ := plain?_eq_some.mp h
      rcases rest with _ | ⟨text, others⟩
      · exact absurd rfl ho
      · have hfree := htoken text (by simp)
        exact .valued ho hfree hr (hbegins text hfree (hw ▸ ⟨others, rfl⟩))

theorem ofTokens?_of_spelled (h : Spelled expression kind operands) :
    ofTokens? (splitAt '_' expression) = some (kind, operands) := by
  cases h with
  | isNull hb =>
    obtain ⟨others, htokens⟩ := FilterKind.isNull.begins_keyword_iff.mp hb
    rw [← htokens]
    rfl
  | isNotNull hb =>
    obtain ⟨others, htokens⟩ := FilterKind.isNotNull.begins_keyword_iff.mp hb
    rw [← htokens]
    rfl
  | @valued _ text _ ho hfree hr hb =>
    obtain ⟨others, htokens⟩ := (kind.begins_valued_iff hfree).mp hb
    rcases FilterKind.words_of_reads hr with ⟨word, hw, hnot, his⟩ | ⟨word, hw⟩
    · rw [← htokens, hw]
      exact (ofTokens?_of_ne hnot his _).trans (plain?_eq_some.mpr ⟨ho, hw, hr⟩)
    · rw [← htokens, hw]
      exact negated?_eq_some.mpr ⟨ho, hw, hr⟩

theorem compile_eq_some_iff {column : String} {p : Predicate} :
    compile column expression = some p ↔
      p.column = column ∧ Spelled expression p.kind p.operands := by
  unfold compile
  rw [Option.map_eq_some_iff]
  constructor
  · rintro ⟨⟨kind, operands⟩, h, rfl⟩
    exact ⟨rfl, spelled_of_ofTokens? h⟩
  · rintro ⟨rfl, h⟩
    exact ⟨(p.kind, p.operands), ofTokens?_of_spelled h, rfl⟩

theorem operands_free (h : Spelled expression kind operands) :
    ∀ operand ∈ operands, '_' ∉ operand.toList := by
  cases h with
  | isNull _ => simp
  | isNotNull _ => simp
  | valued _ hfree hr _ => exact hr.free hfree

/-- The text of a predicate, its keyword and its operands with commas between them, spells it. -/
theorem spelled_again (h : Spelled expression kind operands) :
    Spelled (kind.keyword ++ "_" ++ ",".intercalate operands) kind operands := by
  cases h with
  | isNull _ => exact .isNull (.inr ⟨"", rfl⟩)
  | isNotNull _ => exact .isNotNull (.inr ⟨"", rfl⟩)
  | valued ho hfree hr _ =>
    have hnot : '_' ∉ (",".intercalate operands).toList := by
      rw [String.toList_intercalate]
      refine not_mem_intercalate (by decide) fun piece hp => ?_
      obtain ⟨operand, hm, rfl⟩ := List.mem_map.mp hp
      exact hr.free hfree operand hm
    exact .valued (hr.whole ho).1 hnot (hr.whole ho).2 (.inl rfl)

theorem spelled_written {p : Predicate} (h : Spelled expression p.kind p.operands) :
    Spelled p.written p.kind p.operands := by
  obtain ⟨column, kind, operands⟩ := p
  cases kind with
  | isNull =>
    cases h with
    | isNull _ => exact .isNull (.inl rfl)
    | valued _ _ hr _ => exact hr.elim
  | isNotNull =>
    cases h with
    | isNotNull _ => exact .isNotNull (.inl rfl)
    | valued _ _ hr _ => exact hr.elim
  | _ => exact spelled_again h

theorem not_spelled_of_head {head : String} (hb : Begins head expression)
    (hfree : '_' ∉ head.toList)
    (hhead : head ∉ ["equal", "like", "upper", "lower", "between", "in", "is", "not"]) :
    ofTokens? (splitAt '_' expression) = none := by
  have hwords := (@begins_iff [head] expression (by simp) (by simpa using hfree)).mp
    (by simpa using hb)
  obtain ⟨rest, htokens⟩ := hwords
  have hne : head ≠ "not" ∧ head ≠ "is" := by
    constructor <;> rintro rfl <;> simp at hhead
  rw [← htokens, List.singleton_append, ofTokens?_of_ne hne.1 hne.2]
  cases hplain : plain? head (rest.getD 0 "") with
  | none => rfl
  | some found =>
    obtain ⟨-, hw, -⟩ := plain?_eq_some.mp hplain
    cases hk : found.1 <;> rw [hk] at hw <;> cases hw <;> simp at hhead

/-- The expressions that are understood are those that spell a predicate, which is the one that is
understood. The text of a predicate is understood as the predicate, whether a test for null ends in
an underscore or not. What begins with another word is not understood. -/
theorem compile_spelled (column expression : String) :
    (∀ p, compile column expression = some p ↔
      p.column = column ∧ Spelled expression p.kind p.operands) ∧
    (∀ p, compile column expression = some p →
      (∀ operand ∈ p.operands, '_' ∉ operand.toList) ∧
      compile column p.written = some p ∧
      compile column (p.kind.keyword ++ "_" ++ ",".intercalate p.operands) = some p) ∧
    ∀ head, Begins head expression → '_' ∉ head.toList →
      head ∉ ["equal", "like", "upper", "lower", "between", "in", "is", "not"] →
        compile column expression = none := by
  refine ⟨fun p => compile_eq_some_iff, fun p hp => ?_, fun head hb hfree hhead => ?_⟩
  · obtain ⟨hc, hs⟩ := compile_eq_some_iff.mp hp
    exact ⟨operands_free hs, compile_eq_some_iff.mpr ⟨hc, spelled_written hs⟩,
      compile_eq_some_iff.mpr ⟨hc, spelled_again hs⟩⟩
  · unfold compile
    rw [not_spelled_of_head hb hfree hhead]
    rfl

example : compile "age" "not_between_5_late" = some ⟨"age", .notBetween, ["5", ""]⟩ := by
  decide +kernel

end Predicate

end Winnow
