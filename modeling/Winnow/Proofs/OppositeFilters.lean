import Winnow.Demo.Models
import Winnow.Proofs.SeparatedText
import Winnow.Proofs.ListedColumns
import Winnow.Proofs.OuterJoinWidening
import Winnow.Proofs.RowWrites

namespace Winnow

namespace Truth

variable {s t : Truth}

theorem isTrue_not (t : Truth) :
    if t.isSome then t.isTrue = !t.not.isTrue else t.isTrue = false ∧ t.not.isTrue = false := by
  cases t with
  | none => exact ⟨rfl, rfl⟩
  | some b => cases b <;> rfl

/-- Of two truths that are both known, or both unknown, so are the conjunction and the
alternative. -/
theorem isSome_and_or (h : s.isSome = t.isSome) :
    (and s t).isSome = s.isSome ∧ (or s t).isSome = s.isSome := by
  cases s with
  | none => cases t with
    | none => exact ⟨rfl, rfl⟩
    | some b => cases h
  | some a => cases t with
    | none => cases h
    | some b => cases a <;> cases b <;> exact ⟨rfl, rfl⟩

/-- Alternatives that are all known, or all unknown, are so together. The end of the list is known
to be false, so there has to be an alternative. -/
theorem isSome_foldr_or {ts : List Truth} {known : Bool} (hne : ts ≠ [])
    (h : ∀ t ∈ ts, t.isSome = known) : (ts.foldr or (some false)).isSome = known := by
  induction ts with
  | nil => exact absurd rfl hne
  | cons t ts ih =>
    obtain ⟨ht, hts⟩ := List.forall_mem_cons.mp h
    cases ts with
    | nil =>
      rw [← ht]
      cases t with
      | none => rfl
      | some b => cases b <;> rfl
    | cons t' ts =>
      have hrest := ih (List.cons_ne_nil t' ts) hts
      rw [List.foldr_cons, (isSome_and_or (ht.trans hrest.symm)).2, ht]

end Truth

section Cells

variable {t : ColumnType} {a : Cell}

theorem Cell.isSome_text? (a : Cell) : a.text?.isSome = decide (a ≠ .null) := by
  unfold text?
  split <;> simp

theorem Cell.met_text_ne_null (t : ColumnType) (v : String) : (text v).met t ≠ null := by
  unfold met
  split
  next => simp [textual, text?]
  next => exact numeric_text_ne_null v

theorem Cell.isSome_order {b : Cell} (hb : b ≠ null) :
    (a.order b).isSome = decide (a ≠ .null) := by
  unfold order
  by_cases ha : a = null
  · simp [ha]
  · simp [ha, hb]

theorem isSome_likeTruth (v : String) :
    (Comparison.likeTruth a (.text v)).isSome = decide (a ≠ .null) := by
  rw [← Cell.isSome_text?]
  unfold Comparison.likeTruth
  cases a.text? <;> rfl

theorem isSome_compareValue (c : Comparison) (v : String) :
    (compareValue t c a (.text v)).isSome = decide (a ≠ .null) := by
  have hordered : ((a.order ((Cell.text v).met t)).map c.admits).isSome = decide (a ≠ .null) :=
    Option.isSome_map.trans (Cell.isSome_order (Cell.met_text_ne_null t v))
  cases c with
  | like => exact isSome_likeTruth v
  | notLike => exact Option.isSome_map.trans (isSome_likeTruth v)
  | eq | ne | lt | le | gt | ge => exact hordered

variable {keyword operand : String} {m : Truth}

theorem isSome_of_keywordMeaning (h : keywordMeaning? t a keyword operand = some m) :
    m.isSome = decide (a ≠ .null) := by
  unfold keywordMeaning? at h
  split at h
  next => cases h
  next =>
    split at h
    next => cases h; exact isSome_compareValue _ _
    next => cases h; exact isSome_compareValue _ _
    next => cases h; exact isSome_compareValue _ _
    next => cases h; exact isSome_compareValue _ _
    next =>
      cases h
      refine Truth.isSome_foldr_or (by simpa using splitAt_ne_nil ',' operand) fun truth ht => ?_
      obtain ⟨v, -, rfl⟩ := List.mem_map.mp ht
      exact isSome_compareValue _ v
    next => cases h

theorem isSome_of_rangeMeaning (h : rangeMeaning? t a operand = some m) :
    m.isSome = decide (a ≠ .null) := by
  unfold rangeMeaning? at h
  simp only at h
  split at h
  next =>
    split at h
    next => cases h
    next => cases h; exact isSome_compareValue _ _
  next =>
    split at h
    next => cases h; exact isSome_compareValue _ _
    next =>
      cases h
      have hknown := @isSome_compareValue t a
      rw [(Truth.isSome_and_or ((hknown .ge _).trans (hknown .le _).symm)).1, hknown]

theorem rangeMeaning_of_bound (h : ∃ bound ∈ Predicate.bounds operand, bound ≠ "") :
    ∃ m, rangeMeaning? t a operand = some m := by
  obtain ⟨bound, hm, hne⟩ := h
  rw [Predicate.bounds_eq] at hm
  unfold rangeMeaning?
  simp only
  split
  next hlow =>
    split
    next hhigh =>
      rw [hlow, hhigh] at hm
      simp [hne] at hm
    next => exact ⟨_, rfl⟩
  next => split <;> exact ⟨_, rfl⟩

end Cells

/-- The keywords of which there is a negation. -/
def negatable : List String := ["equal", "like", "upper", "lower", "in", "between"]

section Expressions

variable {keyword v : String}

theorem tokens_of_negatable (hk : keyword ∈ negatable) (hfree : '_' ∉ v.toList) :
    splitAt '_' (keyword ++ "_" ++ v) = [keyword, v] ∧
      splitAt '_' ("not_" ++ keyword ++ "_" ++ v) = ["not", keyword, v] := by
  have hkeyword : '_' ∉ keyword.toList := by
    revert keyword
    decide
  have hplain : keyword ++ "_" ++ v = (String.singleton '_').intercalate [keyword, v] := rfl
  have hnegated : "not_" ++ keyword ++ "_" ++ v =
      (String.singleton '_').intercalate ["not", keyword, v] := rfl
  rw [hplain, hnegated]
  exact ⟨splitAt_intercalate (by simp) (by simp [hkeyword, hfree]),
    splitAt_intercalate (by simp) (by simp [hkeyword, hfree])⟩

/-- What the negation of an expression says is the negation of what the expression says, which is
known of every cell but null. -/
theorem meaning?_of_negatable (t : ColumnType) (a : Cell) (hk : keyword ∈ negatable) (hv : v ≠ "")
    (hfree : '_' ∉ v.toList)
    (hb : keyword = "between" → ∃ bound ∈ Predicate.bounds v, bound ≠ "") :
    ∃ m : Truth, meaning? t a (keyword ++ "_" ++ v) = some m ∧
      meaning? t a ("not_" ++ keyword ++ "_" ++ v) = some m.not ∧
      m.isSome = decide (a ≠ .null) := by
  obtain ⟨hplain, hnegated⟩ := tokens_of_negatable hk hfree
  unfold meaning?
  rw [hplain, hnegated]
  simp only [List.getD_cons_zero, List.getD_cons_succ]
  by_cases hbetween : keyword = "between"
  · obtain ⟨m, hm⟩ := rangeMeaning_of_bound (t := t) (a := a) (hb hbetween)
    subst hbetween
    exact ⟨m, by simp [hv, hm], by simp [hv, hm], isSome_of_rangeMeaning hm⟩
  · have hm : ∃ m, keywordMeaning? t a keyword v = some m := by
      unfold keywordMeaning?
      simp only [negatable, List.mem_cons, List.not_mem_nil, or_false] at hk
      rcases hk with rfl | rfl | rfl | rfl | rfl | rfl
      all_goals simp [hv] at hbetween ⊢
    obtain ⟨m, hm⟩ := hm
    refine ⟨m, ?_, by simp [hbetween, hm], isSome_of_keywordMeaning hm⟩
    split
    next => simp [negatable] at hk
    next => simp [negatable] at hk
    next => exact absurd rfl hbetween
    next => exact hm

end Expressions

namespace Select

variable {q : Select} {c : ColumnRef}

theorem holds_addTests {tests : List Test} (h : ∀ test ∈ tests, test.column = c) (env : Env) :
    (q.addTests tests).holds env =
      (q.holds env && allTrue (env.type c) (env.cell c) tests) := by
  have htests : (tests.all fun test => (test.eval env).isTrue) =
      allTrue (env.type c) (env.cell c) tests := by
    unfold allTrue
    rw [Bool.eq_iff_iff, List.all_eq_true, List.all_eq_true]
    refine forall₂_congr fun test htest => ?_
    rw [Test.eval, h test htest]
  unfold holds addTests
  rw [List.all_append, List.all_map, ← htests]
  rfl

end Select

namespace Desk

/-- The query `q` is what a filter expression on a column leaves of that of a desk. -/
def FilteredTo (d : Desk Select) (column expression : String) (q : Select) : Prop :=
  ∃ p, Predicate.compile column expression = some p ∧
    sendPredicate p d = .ok () (d.withQuery q)

variable {d : Desk Select} {column : String} {c : ColumnRef}

theorem filteredTo_of_meaning {expression : String} {truth : ColumnType → Cell → Truth}
    (hc : d.session.query.findColumn column = .ok c)
    (h : ∀ t a, meaning? t a expression = some (truth t a)) :
    ∃ q, FilteredTo d column expression q ∧ ∀ env, q.holds env =
      (d.session.query.holds env && (truth (env.type c) (env.cell c)).isTrue) := by
  have hcompile : ∀ t a, (Predicate.compile column expression).map
      (fun p => allTrue t a (p.tests c)) = some (truth t a).isTrue := by
    intro t a
    rw [tests_eq_meaning, h]
    rfl
  obtain ⟨p, hp, -⟩ := Option.map_eq_some_iff.mp (hcompile .str .null)
  refine ⟨_, ⟨p, hp, sendPredicate_eq hp hc⟩, fun env => ?_⟩
  have htruth := hcompile (env.type c) (env.cell c)
  rw [hp, Option.map_some, Option.some.injEq] at htruth
  rw [← htruth]
  exact Select.holds_addTests (fun test ht => (Predicate.tests_ofTexts hp test ht).column) env

/-- Of the rows that a query leaves, a filter and its negation each leave a part, and a row in
which the column has a value is in exactly one of them. A row in which it has none is in neither,
unless the filter asks for null. -/
theorem opposite_filters (hc : d.session.query.findColumn column = .ok c) :
    (∀ keyword ∈ negatable, ∀ v, v ≠ "" → '_' ∉ v.toList →
      (keyword = "between" → ∃ bound ∈ Predicate.bounds v, bound ≠ "") →
      ∃ q q', FilteredTo d column (keyword ++ "_" ++ v) q ∧
        FilteredTo d column ("not_" ++ keyword ++ "_" ++ v) q' ∧
        ∀ env, d.session.query.holds env = true →
          if env.cell c = .null then q.holds env = false ∧ q'.holds env = false
          else q.holds env = !q'.holds env) ∧
    ∃ q q', FilteredTo d column "is_null" q ∧ FilteredTo d column "is_not-null" q' ∧
      ∀ env, d.session.query.holds env = true → q.holds env = !q'.holds env := by
  constructor
  · intro keyword hk v hv hfree hb
    choose truth hplain hnegated hknown using
      fun t a => meaning?_of_negatable t a hk hv hfree hb
    obtain ⟨q, hq, hholds⟩ := filteredTo_of_meaning hc hplain
    obtain ⟨q', hq', hholds'⟩ := filteredTo_of_meaning hc hnegated
    refine ⟨q, q', hq, hq', fun env henv => ?_⟩
    have hopposite := Truth.isTrue_not (truth (env.type c) (env.cell c))
    rw [hholds, hholds', henv, Bool.true_and, Bool.true_and]
    by_cases hn : env.cell c = .null
    · simpa only [hknown, hn, ne_eq, not_true_eq_false, decide_false, Bool.false_eq_true,
        ↓reduceIte] using hopposite
    · simpa only [hknown, hn, ne_eq, not_false_eq_true, decide_true, ↓reduceIte] using hopposite
  · have hnull : ∀ t a, meaning? t a "is_null" = some (some (decide (a = .null))) := by
      intro t a
      rw [meaning?, show splitAt '_' "is_null" = ["is", "null"] by decide +kernel]
      rfl
    have hnotNull : ∀ t a, meaning? t a "is_not-null" = some (some (decide (a ≠ .null))) := by
      intro t a
      rw [meaning?, show splitAt '_' "is_not-null" = ["is", "not-null"] by decide +kernel]
      rfl
    obtain ⟨q, hq, hholds⟩ := filteredTo_of_meaning hc hnull
    obtain ⟨q', hq', hholds'⟩ := filteredTo_of_meaning hc hnotNull
    refine ⟨q, q', hq, hq', fun env henv => ?_⟩
    rw [hholds, hholds', henv, Bool.true_and, Bool.true_and]
    by_cases hn : env.cell c = .null <;> simp [hn, Truth.isTrue]

def everyUser : Desk Select := { session := Session.new fun _ => .new Demo.schema Demo.user.table }

def userRow (place : Nat) : Env := [⟨Demo.user.table, Demo.userRows.getD place []⟩]

theorem opposite_filters_status :
    everyUser.session.query.findColumn "status" = .ok ⟨"users", "status"⟩ ∧
    "between" ∈ negatable ∧ "b," ≠ "" ∧ '_' ∉ "b,".toList ∧
    (∃ bound ∈ Predicate.bounds "b,", bound ≠ "") ∧
    ∃ q q', FilteredTo everyUser "status" "between_b," q ∧
      FilteredTo everyUser "status" "not_between_b," q' ∧
      q.holds (userRow 0) = (!q'.holds (userRow 0)) ∧
      q.holds (userRow 2) = false ∧ q'.holds (userRow 2) = false := by
  have hc : everyUser.session.query.findColumn "status" = .ok ⟨"users", "status"⟩ := rfl
  have hbound : ∃ bound ∈ Predicate.bounds "b,", bound ≠ "" := by decide +kernel
  have hactive : (userRow 0).cell ⟨"users", "status"⟩ ≠ .null := by decide +kernel
  have hnone : (userRow 2).cell ⟨"users", "status"⟩ = .null := by decide +kernel
  obtain ⟨q, q', hq, hq', hholds⟩ := (opposite_filters hc).1 "between" (by decide) "b,"
    (by decide) (by decide) fun _ => hbound
  have hfirst := hholds (userRow 0) rfl
  have hthird := hholds (userRow 2) rfl
  rw [if_neg hactive] at hfirst
  rw [if_pos hnone] at hthird
  exact ⟨hc, by decide, by decide, by decide, hbound, q, q', hq, hq', hfirst, hthird⟩

end Desk

end Winnow
