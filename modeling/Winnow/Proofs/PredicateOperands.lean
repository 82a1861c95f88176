import Winnow.Proofs.CallLog
import Winnow.Proofs.ExpressionGrammar

namespace Winnow

/-- The values that a call carries. -/
def Call.values : Call → List Value
  | filter _ _ v | orFilter _ _ v | filterNot _ _ v => [v]
  | filterIn _ (.ok vs) | filterNotIn _ (.ok vs) | filterBetween _ (.ok vs)
  | filterNotBetween _ (.ok vs) => vs
  | filterIn _ (.error v) | filterNotIn _ (.error v) | filterBetween _ (.error v)
  | filterNotBetween _ (.error v) => [v]
  | filterNull _ | filterNotNull _ | join .. | select _ | orderBy .. => []

namespace Predicate

/-- The operands as they reach the query: between percent signs where texts are likened, and of a
range only the bounds that are there. -/
def passed (p : Predicate) : List Value :=
  match p.kind with
  | .like | .notLike => p.operands.map fun v => .text ("%" ++ v ++ "%")
  | .between | .notBetween => (p.operands.filter (· ≠ "")).map .text
  | _ => p.operands.map .text

/-- A range without bounds. -/
def Unbounded (p : Predicate) : Prop :=
  (p.kind = .between ∨ p.kind = .notBetween) ∧ p.operands = ["", ""]

instance (p : Predicate) : Decidable p.Unbounded :=
  inferInstanceAs (Decidable ((p.kind = .between ∨ p.kind = .notBetween) ∧ p.operands = ["", ""]))

/-- The predicate can be sent, as these calls. -/
structure SentAs (p : Predicate) (calls : List Call) : Prop where
  sends : p.calls = .ok calls
  length : calls.length ≤ 2
  values : calls.flatMap Call.values = p.passed
  none : calls = [] ↔ p.Unbounded

theorem sentAs_of_range {kind : FilterKind} (hk : kind = .between ∨ kind = .notBetween)
    (column low high : String) : ∃ calls, SentAs ⟨column, kind, [low, high]⟩ calls := by
  rcases hk with rfl | rfl
  · refine ⟨_, rfl, ?_, ?_, ?_⟩
    all_goals by_cases hlow : low = "" <;> by_cases hhigh : high = "" <;>
      simp [passed, Call.values, Unbounded, hlow, hhigh]
  · refine ⟨_, rfl, ?_, ?_, ?_⟩
    all_goals by_cases hlow : low = "" <;> by_cases hhigh : high = "" <;>
      simp [passed, Call.values, Unbounded, hlow, hhigh]

theorem sentAs_of_spelled {p : Predicate} {expression : String}
    (h : Spelled expression p.kind p.operands) : ∃ calls, p.SentAs calls := by
  obtain ⟨column, kind, operands⟩ := p
  cases h with
  | isNull | isNotNull => exact ⟨_, rfl, by simp, rfl, by simp [Unbounded]⟩
  | valued _ _ hr _ =>
    cases kind with
    | isNull | isNotNull => exact hr.elim
    | equal | notEqual | like | notLike | above | below | notAbove | notBelow =>
      cases hr
      exact ⟨_, rfl, by simp, rfl, by simp [Unbounded]⟩
    | oneOf | notOneOf => exact ⟨_, rfl, by simp, List.append_nil _, by simp [Unbounded]⟩
    | between =>
      obtain ⟨pieces, -, rfl⟩ := hr
      exact sentAs_of_range (.inl rfl) column _ _
    | notBetween =>
      obtain ⟨pieces, -, rfl⟩ := hr
      exact sentAs_of_range (.inr rfl) column _ _

theorem sentAs_of_compile {column expression : String} {p : Predicate}
    (h : compile column expression = some p) : p.SentAs p.sent := by
  obtain ⟨calls, hcalls⟩ := sentAs_of_spelled (compile_eq_some_iff.mp h).2
  obtain rfl : p.sent = calls := by
    unfold sent
    rw [hcalls.sends]
  exact hcalls

end Predicate

theorem calls_ok {column expression : String} {p : Predicate}
    (h : Predicate.compile column expression = some p) : ∃ calls, p.calls = .ok calls :=
  ⟨_, (Predicate.sentAs_of_compile h).sends⟩

namespace Desk

variable {Q : Type} [QueryTarget Q]

/-- Whatever an expression compiles to can be applied to a query that takes every call. That is at
most two calls, each of which tests the column of the predicate, and together they pass on its
operands, between percent signs where texts are likened; a bound that is not there is left out. -/
theorem compiled_applies {column expression : String} {p : Predicate}
    (h : Predicate.compile column expression = some p) {d : Desk (Logged Q)}
    (hw : Willing d.session.query.query) :
    ∃ (calls : List Call) (q : Logged Q), sendPredicate p d = .ok () (d.withQuery q) ∧
      (d.withQuery q).log = d.log ++ calls.map (⟨·, true⟩) ∧ calls.length ≤ 2 ∧
      (∀ call ∈ calls, call.Tests column) ∧ calls.flatMap Call.values = p.passed := by
  have hsent := Predicate.sentAs_of_compile h
  obtain ⟨rfl, -⟩ := Predicate.compile_eq_some_iff.mp h
  obtain ⟨q, hissue, -, hlog⟩ := issueAll_of_willing (Logged.willing hw) p.sent
  refine ⟨p.sent, q, ?_, hlog, hsent.length, fun _ => Predicate.tests_of_mem_sent, hsent.values⟩
  unfold sendPredicate
  rw [hsent.sends]
  exact hissue

theorem compiled_applies_range :
    let d : Desk (Logged Recorder) := { session := Session.new (Logged.of fun _ => {}) }
    let p : Predicate := ⟨"users.id", .notBetween, ["5", ""]⟩
    Predicate.compile "users.id" "not_between_5,_6" = some p ∧
    Willing d.session.query.query ∧
    ∃ (calls : List Call) (q : Logged Recorder), sendPredicate p d = .ok () (d.withQuery q) ∧
      (d.withQuery q).log = calls.map (⟨·, true⟩) ∧ calls.length ≤ 2 ∧
      (∀ call ∈ calls, call.Tests "users.id") ∧ calls.flatMap Call.values = [.text "5"] := by
  have hp : Predicate.compile "users.id" "not_between_5,_6" =
      some ⟨"users.id", .notBetween, ["5", ""]⟩ := by decide +kernel
  have hw : Willing ({} : Recorder) := willing_recorder rfl
  exact ⟨hp, hw, compiled_applies hp hw⟩

end Desk

end Winnow
