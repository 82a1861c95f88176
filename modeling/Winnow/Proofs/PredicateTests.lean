import Winnow.Proofs.PredicateOperands
import Winnow.Proofs.TextConditions
import Winnow.Repository.Basic

open List (Forall₂)

namespace Winnow

namespace Select

def addTests (q : Select) (tests : List Test) : Select :=
  { q with clauses := q.clauses ++ tests.map fun t => ⟨t, []⟩ }

variable {q : Select} {column operator v : String} {c : ColumnRef} {comparison : Comparison}

theorem addTests_nil (q : Select) : q.addTests [] = q := by simp [addTests]

theorem addTests_append (q : Select) (xs ys : List Test) :
    q.addTests (xs ++ ys) = (q.addTests xs).addTests ys := by simp [addTests]

theorem findTest_text (hc : q.findColumn column = .ok c)
    (ho : Comparison.ofText? operator = some comparison) :
    q.findTest column operator (.text v) = .ok (.compare c comparison (.text v)) := by
  unfold findTest findComparison
  rw [ho, hc]
  rfl

theorem step_of_adds {call : Call} {test : Test} (hc : q.findColumn column = .ok c)
    (h : Call.Adds column c call test) : q.step call = .ok (q.addTests [test]) := by
  cases h with
  | compare _ ho =>
    simp only [step, findTest_text hc ho]
    rfl
  | compareNot _ ho =>
    simp only [step, findTest_text hc ho]
    rfl
  | oneOf | noneOf =>
    simp only [step, findMember, hc]
    rfl
  | null | notNull =>
    simp only [step, hc]
    rfl
  | outside =>
    simp only [step, findBounds, hc]
    rfl

end Select

namespace Repository

theorem callAll_cons {c : Call} {calls : List Call} {q q' : Select} (h : q.step c = .ok q') :
    callAll (c :: calls) q = callAll calls q' := by
  have hc : QueryTarget.call c q = .ok () q' := by simp only [QueryTarget.call, h]
  exact bind_of_ok hc

theorem callAll_of_adds {column : String} {c : ColumnRef} {calls : List Call} {tests : List Test}
    {q : Select} (h : Forall₂ (Call.Adds column c) calls tests)
    (hc : q.findColumn column = .ok c) : callAll calls q = .ok () (q.addTests tests) := by
  induction h generalizing q with
  | nil =>
    rw [Select.addTests_nil]
    rfl
  | @cons call test calls tests hone _ ih =>
    have hrest := ih (q := q.addTests [test]) hc
    rw [callAll_cons (Select.step_of_adds hc hone), hrest, ← Select.addTests_append]
    rfl

end Repository

theorem Predicate.tests_ofTexts {column expression : String} {p : Predicate} {c : ColumnRef}
    (h : Predicate.compile column expression = some p) : ∀ test ∈ p.tests c, test.OfTexts c := by
  obtain ⟨calls, hcalls⟩ := calls_ok h
  exact (Call.Adds.all (Predicate.adds_of_calls c hcalls)).2

end Winnow
