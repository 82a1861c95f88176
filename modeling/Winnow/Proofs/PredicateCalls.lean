import Mathlib.Data.List.Forall2
import Winnow.Query.ClientText
import Winnow.Select.Meaning

open List (Forall₂)

namespace Winnow

/-- The operators that predicates compare by. -/
def Predicate.operators : List String := ["=", "!=", "like", "not like", ">", "<", ">=", "<="]

/-- A call that tests a column, by one of these operators where it has one. -/
inductive Call.Tests (column : String) : Call → Prop
  | compare {operator : String} {v : Value} : operator ∈ Predicate.operators →
      Tests column (.filter column operator v)
  | compareNot {operator : String} {v : Value} : operator ∈ Predicate.operators →
      Tests column (.filterNot column operator v)
  | oneOf {values : Except Value (List Value)} : Tests column (.filterIn column values)
  | noneOf {values : Except Value (List Value)} : Tests column (.filterNotIn column values)
  | null : Tests column (.filterNull column)
  | notNull : Tests column (.filterNotNull column)
  | outside {bounds : Except Value (List Value)} : Tests column (.filterNotBetween column bounds)

/-- A test of a column with texts alone. -/
inductive Test.OfTexts (c : ColumnRef) : Test → Prop
  | compare {comparison : Comparison} {v : String} : OfTexts c (.compare c comparison (.text v))
  | null {negated : Bool} : OfTexts c (.null c negated)
  | between {low high : String} {negated : Bool} :
      OfTexts c (.between c (.text low) (.text high) negated)
  | member {vs : List String} {negated : Bool} : OfTexts c (.member c (vs.map .text) negated)

theorem Test.OfTexts.column {c : ColumnRef} {test : Test} (h : test.OfTexts c) :
    test.column = c := by
  cases h <;> rfl

theorem Test.OfTexts.bindings {c : ColumnRef} {test : Test} (h : test.OfTexts c) {t : ColumnType}
    {b : ColumnType × Value} (hb : b ∈ test.bindings t) : ∃ s, b = (.str, .text s) := by
  cases h with
  | compare => exact ⟨_, List.mem_singleton.mp hb⟩
  | null => cases hb
  | between =>
    rcases List.mem_cons.mp hb with hb | hb
    · exact ⟨_, hb⟩
    · exact ⟨_, List.mem_singleton.mp hb⟩
  | @member vs =>
    cases vs with
    | nil => cases hb
    | cons v vs =>
      obtain ⟨value, hv, rfl⟩ := List.mem_map.mp hb
      obtain ⟨s, -, rfl⟩ := List.mem_map.mp hv
      exact ⟨s, rfl⟩

/-- The test that a query is given by a call on a column `c` of it. -/
inductive Call.Adds (column : String) (c : ColumnRef) : Call → Test → Prop
  | compare {operator v : String} {comparison : Comparison} :
      operator ∈ Predicate.operators → Comparison.ofText? operator = some comparison →
      Adds column c (.filter column operator (.text v)) (.compare c comparison (.text v))
  | compareNot {operator v : String} {comparison : Comparison} :
      operator ∈ Predicate.operators → Comparison.ofText? operator = some comparison →
      Adds column c (.filterNot column operator (.text v))
        (.compare c comparison.negate (.text v))
  | oneOf {vs : List String} :
      Adds column c (.filterIn column (.ok (vs.map .text))) (.member c (vs.map .text) false)
  | noneOf {vs : List String} :
      Adds column c (.filterNotIn column (.ok (vs.map .text))) (.member c (vs.map .text) true)
  | null : Adds column c (.filterNull column) (.null c false)
  | notNull : Adds column c (.filterNotNull column) (.null c true)
  | outside {low high : String} :
      Adds column c (.filterNotBetween column (.ok [.text low, .text high]))
        (.between c (.text low) (.text high) true)

namespace Call.Adds

variable {column : String} {c : ColumnRef} {call : Call} {test : Test}

theorem tests (h : Adds column c call test) : call.Tests column := by
  cases h with
  | compare hm => exact .compare hm
  | compareNot hm => exact .compareNot hm
  | oneOf => exact .oneOf
  | noneOf => exact .noneOf
  | null => exact .null
  | notNull => exact .notNull
  | outside => exact .outside

theorem ofTexts (h : Adds column c call test) : test.OfTexts c := by
  cases h with
  | compare => exact .compare
  | compareNot => exact .compare
  | oneOf => exact .member
  | noneOf => exact .member
  | null => exact .null
  | notNull => exact .null
  | outside => exact .between

theorem exists_of_mem {calls : List Call} {tests : List Test}
    (h : Forall₂ (Adds column c) calls tests) (hm : call ∈ calls) :
    ∃ test, Adds column c call test := by
  induction h with
  | nil => cases hm
  | cons h _ ih =>
    rcases List.mem_cons.mp hm with rfl | hm
    · exact ⟨_, h⟩
    · exact ih hm

theorem all {calls : List Call} {tests : List Test} (h : Forall₂ (Adds column c) calls tests) :
    (∀ call ∈ calls, call.Tests column) ∧ ∀ test ∈ tests, test.OfTexts c := by
  induction h with
  | nil => simp
  | cons h _ ih =>
    exact ⟨List.forall_mem_cons.mpr ⟨h.tests, ih.1⟩, List.forall_mem_cons.mpr ⟨h.ofTexts, ih.2⟩⟩

end Call.Adds

/-- The tests of a column that a predicate stands for. -/
def Predicate.tests (c : ColumnRef) (p : Predicate) : List Test :=
  match p.kind, p.operands with
  | .equal, v :: _ => [.compare c .eq (.text v)]
  | .notEqual, v :: _ => [.compare c .ne (.text v)]
  | .like, v :: _ => [.compare c .like (.text ("%" ++ v ++ "%"))]
  | .notLike, v :: _ => [.compare c .notLike (.text ("%" ++ v ++ "%"))]
  | .above, v :: _ => [.compare c .gt (.text v)]
  | .below, v :: _ => [.compare c .lt (.text v)]
  | .notAbove, v :: _ => [.compare c .le (.text v)]
  | .notBelow, v :: _ => [.compare c .ge (.text v)]
  | .oneOf, vs => [.member c (vs.map .text) false]
  | .notOneOf, vs => [.member c (vs.map .text) true]
  | .isNull, _ => [.null c false]
  | .isNotNull, _ => [.null c true]
  | .between, [low, high] =>
    (if low = "" then [] else [.compare c .ge (.text low)]) ++
      (if high = "" then [] else [.compare c .le (.text high)])
  | .notBetween, [low, high] =>
    if low = "" then if high = "" then [] else [.compare c .gt (.text high)]
    else if high = "" then [.compare c .lt (.text low)]
    else [.between c (.text low) (.text high) true]
  | _, _ => []

namespace Predicate

/-- The calls that a predicate sends. -/
def sent (p : Predicate) : List Call :=
  match p.calls with
  | .ok calls => calls
  | .error _ => []

theorem mem_sent {p : Predicate} {c : Call} (h : c ∈ p.sent) :
    ∃ calls, p.calls = .ok calls ∧ c ∈ calls := by
  unfold sent at h
  split at h
  next calls hc => exact ⟨calls, hc, h⟩
  next => simp at h

theorem ofText?_operators :
    Comparison.ofText? "=" = some .eq ∧ Comparison.ofText? "!=" = some .ne ∧
      Comparison.ofText? "like" = some .like ∧ Comparison.ofText? "not like" = some .notLike ∧
      Comparison.ofText? ">" = some .gt ∧ Comparison.ofText? "<" = some .lt ∧
      Comparison.ofText? ">=" = some .ge ∧ Comparison.ofText? "<=" = some .le := by
  decide +kernel

theorem adds_bound {column operator : String} {c : ColumnRef} {comparison : Comparison}
    (bound : String) (hm : operator ∈ operators)
    (ho : Comparison.ofText? operator = some comparison) :
    Forall₂ (Call.Adds column c)
      (if bound = "" then [] else [.filter column operator (.text bound)])
      (if bound = "" then [] else [.compare c comparison (.text bound)]) := by
  split
  next => exact .nil
  next => exact .cons (.compare hm ho) .nil

theorem adds_first {column : String} {c : ColumnRef} {kind : FilterKind} {operands : List String}
    {calls : List Call} {call : String → Call} {test : String → Test}
    (hcalls : ∀ v rest, Predicate.calls ⟨column, kind, v :: rest⟩ = .ok [call v])
    (hnone : Predicate.calls ⟨column, kind, []⟩ = .error .noOperand)
    (htests : ∀ v rest, tests c ⟨column, kind, v :: rest⟩ = [test v])
    (hadds : ∀ v, Call.Adds column c (call v) (test v))
    (h : Predicate.calls ⟨column, kind, operands⟩ = .ok calls) :
    Forall₂ (Call.Adds column c) calls (tests c ⟨column, kind, operands⟩) := by
  cases operands with
  | nil =>
    rw [hnone] at h
    cases h
  | cons v rest =>
    rw [hcalls] at h
    cases h
    rw [htests]
    exact .cons (hadds v) .nil

theorem adds_of_calls {p : Predicate} {calls : List Call} (c : ColumnRef)
    (h : p.calls = .ok calls) : Forall₂ (Call.Adds p.column c) calls (p.tests c) := by
  obtain ⟨column, kind, operands⟩ := p
  obtain ⟨heq, hne, hlike, hnotLike, hgt, hlt, hge, hle⟩ := ofText?_operators
  cases kind with
  | equal =>
    exact adds_first (fun _ _ => rfl) rfl (fun _ _ => rfl) (fun _ => .compare (by decide) heq) h
  | notEqual =>
    exact adds_first (fun _ _ => rfl) rfl (fun _ _ => rfl) (fun _ => .compare (by decide) hne) h
  | like =>
    exact adds_first (fun _ _ => rfl) rfl (fun _ _ => rfl) (fun _ => .compare (by decide) hlike) h
  | notLike =>
    exact adds_first (fun _ _ => rfl) rfl (fun _ _ => rfl)
      (fun _ => .compare (by decide) hnotLike) h
  | above =>
    exact adds_first (fun _ _ => rfl) rfl (fun _ _ => rfl) (fun _ => .compare (by decide) hgt) h
  | below =>
    exact adds_first (fun _ _ => rfl) rfl (fun _ _ => rfl) (fun _ => .compare (by decide) hlt) h
  | notAbove =>
    exact adds_first (fun _ _ => rfl) rfl (fun _ _ => rfl) (fun _ => .compareNot (by decide) hgt) h
  | notBelow =>
    exact adds_first (fun _ _ => rfl) rfl (fun _ _ => rfl) (fun _ => .compareNot (by decide) hlt) h
  | oneOf =>
    cases h
    exact .cons .oneOf .nil
  | notOneOf =>
    cases h
    exact .cons .noneOf .nil
  | isNull =>
    cases h
    exact .cons .null .nil
  | isNotNull =>
    cases h
    exact .cons .notNull .nil
  | between =>
    unfold Predicate.calls at h
    simp only at h
    split at h
    next low high =>
      cases h
      exact List.rel_append (adds_bound low (by decide) hge) (adds_bound high (by decide) hle)
    next => cases h
    next => cases h
  | notBetween =>
    unfold Predicate.calls at h
    simp only at h
    split at h
    next low high =>
      cases h
      simp only [tests]
      split
      next =>
        split
        next => exact .nil
        next => exact .cons (.compareNot (by decide) hle) .nil
      next =>
        split
        next => exact .cons (.compareNot (by decide) hge) .nil
        next => exact .cons .outside .nil
    next => cases h
    next => cases h

theorem tests_of_mem_sent {p : Predicate} {call : Call} (h : call ∈ p.sent) :
    call.Tests p.column := by
  obtain ⟨calls, hcalls, hm⟩ := mem_sent h
  -- the tests do not matter here, so any column will do
  exact (Call.Adds.all (adds_of_calls ⟨"", ""⟩ hcalls)).1 call hm

end Predicate

end Winnow
