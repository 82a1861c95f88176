import Winnow.Repository.Result

namespace Winnow

variable {α β : Type}

def Failure.isOfSession : Failure → Bool
  | closedSession _ => true
  | _ => false

def Failing (x : Except Failure α) : Prop := ∀ e, x = .error e → e.isOfSession = false

namespace Failing

theorem ok (a : α) : Failing (.ok a) := fun _ h => by cases h

theorem error {e : Failure} (h : e.isOfSession = false) : Failing (.error e : Except Failure α) :=
  fun _ he => by
    cases he
    exact h

theorem bind {x : Except Failure α} {f : α → Except Failure β} (hx : Failing x)
    (hf : ∀ a, Failing (f a)) : Failing (x >>= f) := by
  cases x with
  | ok a => exact hf a
  | error e => exact error (hx e rfl)

theorem map {x : Except Failure α} {f : α → β} (hx : Failing x) : Failing (x.map f) := by
  cases x with
  | ok a => exact ok (f a)
  | error e => exact error (hx e rfl)

theorem rejected (x : Except Sql.Fault α) : Failing (x.mapError .rejected) := by
  cases x with
  | ok a => exact ok a
  | error f => exact error rfl

theorem each {check : α → Except Failure Unit} (h : ∀ a, Failing (check a)) (xs : List α) :
    Failing (checkEach check xs) := by
  induction xs with
  | nil => exact ok ()
  | cons x xs ih => exact (h x).bind fun _ => ih

end Failing

open Failing

theorem Bindings.failing_checkPassed (b : Bindings) : Failing b.checkPassed := by
  induction b with
  | nil => exact ok ()
  | cons p b ih =>
    have hone : Failing (p.2.checkPassed p.1) := by
      unfold Value.checkPassed
      split
      · exact ok ()
      · exact error rfl
    exact hone.bind fun _ => ih

theorem Bindings.failing_checkStorable (b : Bindings) : Failing b.checkStorable := by
  induction b with
  | nil => exact ok ()
  | cons p b ih =>
    have hone : Failing p.2.checkStorable := by
      unfold Value.checkStorable
      split
      · split
        · exact ok ()
        · exact error rfl
      · exact error rfl
      · exact error rfl
      · exact ok ()
    exact hone.bind fun _ => ih

theorem ColumnRef.failing_checkIn (ts : List TableDef) (c : ColumnRef) :
    Failing (c.checkIn ts) := by
  unfold checkIn
  split
  · exact error rfl
  · exact ok ()
  · exact error rfl

theorem Joined.failing_check (clauses : List Clause) (beside : List String) (parts : List Joined) :
    Failing (Joined.check clauses beside parts) := by
  unfold Joined.check
  split
  · exact error rfl
  · exact ok ()

theorem Source.failing_checkNested (s : Source) : Failing s.checkNested := by
  induction s with
  | table t => exact ok ()
  | join left right on outer hl hr =>
    exact hl.bind fun _ => hr.bind fun _ => each (ColumnRef.failing_checkIn _) _

theorem Source.failing_checkSides (s : Source) : Failing s.checkSides := by
  induction s with
  | table t => exact ok ()
  | join left right on outer hl hr =>
    exact hl.bind fun _ => hr.bind fun _ => Joined.failing_check _ _ _

namespace Select

variable (q : Select)

section Calls

theorem failing_findTable (name : String) : Failing (q.findTable name) := by
  unfold findTable
  split
  · exact ok _
  · exact error rfl

theorem failing_findColumn (reference : String) : Failing (q.findColumn reference) := by
  unfold findColumn
  obtain ⟨table, column⟩ := q.tableAndColumn reference
  refine (q.failing_findTable table).bind fun t => ?_
  split
  · exact ok _
  · exact error rfl

theorem failing_findComparison (operator : String) : Failing (findComparison operator) := by
  unfold findComparison
  split
  · exact ok _
  · exact error rfl

theorem failing_findExpr (source : String) : Failing (q.findExpr source) := by
  unfold findExpr
  split
  · exact (q.failing_findColumn _).map
  · exact ok _

theorem failing_findOutputs (entries : List String) : Failing (q.findOutputs entries) := by
  induction entries with
  | nil => exact ok []
  | cons entry entries ih =>
    have hone : Failing (q.findOutput entry) := by
      unfold findOutput
      split
      · exact (q.failing_findExpr _).map
      · exact (q.failing_findExpr _).map
    exact hone.bind fun output => ih.bind fun outputs => ok (output :: outputs)

theorem failing_findTest (column operator : String) (value : Value) :
    Failing (q.findTest column operator value) := by
  have htest : ∀ c comparison, Failing (Test.ofComparison c comparison value) := by
    intro c comparison
    unfold Test.ofComparison
    split <;> first | exact ok _ | exact error rfl
  exact (failing_findComparison operator).bind fun comparison =>
    (q.failing_findColumn column).bind fun c => htest c comparison

theorem failing_findMember (column : String) (values : Except Value (List Value))
    (negated : Bool) : Failing (q.findMember column values negated) := by
  refine (q.failing_findColumn column).bind fun c => ?_
  cases values with
  | ok values => exact ok _
  | error v => exact error rfl

theorem failing_findBounds (bounds : Except Value (List Value)) : Failing (findBounds bounds) := by
  unfold findBounds
  split <;> first | exact ok _ | exact error rfl

theorem failing_step (c : Call) : Failing (q.step c) := by
  cases c with
  | filter column operator value => exact (q.failing_findTest column operator value).map
  | orFilter column operator value => exact (q.failing_findTest column operator value).map
  | filterNot column operator value => exact (q.failing_findTest column operator value).map
  | filterIn column values => exact (q.failing_findMember column values false).map
  | filterNotIn column values => exact (q.failing_findMember column values true).map
  | filterNull column => exact (q.failing_findColumn column).map
  | filterNotNull column => exact (q.failing_findColumn column).map
  | filterBetween column bounds =>
    exact (failing_findBounds bounds).bind fun _ => (q.failing_findColumn column).bind fun _ => ok _
  | filterNotBetween column bounds =>
    exact (failing_findBounds bounds).bind fun _ => (q.failing_findColumn column).bind fun _ => ok _
  | join table first operator second joinKind =>
    refine (q.failing_findTable table).bind fun _ => (failing_findComparison operator).bind fun _ =>
      (q.failing_findColumn first).bind fun _ => (q.failing_findColumn second).bind fun _ => ?_
    cases joinKind with
    | ok kind => exact ok _
    | error v => exact error rfl
  | select entries => exact (q.failing_findOutputs entries).map
  | orderBy column direction => exact (q.failing_findColumn column).map

end Calls

section Text

variable (style : SqlStyle) (schema : Schema)

theorem failing_literal (t : ColumnType) (v : Value) : Failing (v.literal t) := by
  unfold Value.literal
  split
  · exact ok _
  · exact error rfl

theorem failing_bindText (t : ColumnType) (column : ColumnRef) (v : Value) (numbers : Numbering) :
    Failing (bindText style t column v numbers) := by
  cases style with
  | placeholders => exact ok _
  | literals => exact (failing_literal _ v).map
  | marks => exact ok _

theorem failing_memberText (t : ColumnType) (column : ColumnRef) (values : List Value)
    (negated : Bool) (numbers : Numbering) :
    Failing (memberText style t column values negated numbers) := by
  have hall : ∀ vs : List Value, Failing (Value.literals (Value.listType t values) vs) := by
    intro vs
    induction vs with
    | nil => exact ok []
    | cons v vs ih =>
      exact (failing_literal _ v).bind fun written => ih.bind fun rest => ok (written :: rest)
  cases style with
  | placeholders => exact ok _
  | literals =>
    unfold memberText
    simp only
    split
    · exact ok _
    · exact (hall values).bind fun _ => ok _
  | marks => exact ok _

theorem failing_testSql (test : Test) (numbers : Numbering) :
    Failing (test.sql style schema numbers) := by
  unfold Test.sql
  simp only
  split
  · exact ok _
  · exact (failing_bindText _ _ _ _ _).bind fun _ => ok _
  · exact ok _
  · exact (failing_bindText _ _ _ _ _).bind fun _ =>
      (failing_bindText _ _ _ _ _).bind fun _ => ok _
  · exact failing_memberText _ _ _ _ _ _

theorem failing_testsSql (tests : List Test) (numbers : Numbering) :
    Failing (testsSql style schema numbers tests) := by
  induction tests generalizing numbers with
  | nil => exact ok _
  | cons t tests ih =>
    exact (failing_testSql style schema t numbers).bind fun s => (ih s.2).bind fun _ => ok _

theorem failing_clausesSql (grouped : Bool) (clauses : List Clause) (numbers : Numbering) :
    Failing (clausesSql style schema grouped numbers clauses) := by
  induction clauses generalizing numbers with
  | nil => exact ok _
  | cons c clauses ih =>
    exact (failing_testsSql style schema c.tests numbers).bind fun s => (ih s.2).bind fun _ => ok _

theorem failing_restSql : Failing (q.restSql style) :=
  (failing_clausesSql style q.schema _ q.clauses _).bind fun _ => ok _

end Text

section Result

theorem failing_checkNames {outputs : Except Failure Unit} (h : Failing outputs) :
    Failing (q.checkNames outputs) :=
  q.source.failing_checkNested.bind fun _ => h.bind fun _ =>
    (each (ColumnRef.failing_checkIn _) _).bind fun _ =>
      (each (ColumnRef.failing_checkIn _) _).bind fun _ =>
        (each (ColumnRef.failing_checkIn _) _).bind fun _ =>
          q.source.failing_checkSides.bind fun _ => Joined.failing_check _ _ _

theorem failing_checkRun (w : Window) : Failing (q.checkRun w) := by
  have houtput : ∀ o, Failing (q.checkOutput o) := by
    intro o
    unfold checkOutput
    split
    · exact ColumnRef.failing_checkIn _ _
    · exact ok ()
  exact q.bindings.failing_checkPassed.bind fun _ =>
    (q.failing_checkNames (each houtput _)).bind fun _ => Bindings.failing_checkStorable _

theorem failing_read (r : Request) : Failing (q.read r) := by
  have hstatement : Failing (q.statement r) := by
    cases r with
    | rows w => exact (q.failing_restSql .marks).bind fun _ => ok _
    | number => exact (failing_restSql { q with orders := [] } .marks).bind fun _ => ok _
  unfold read
  refine hstatement.bind fun ⟨head, list, rest⟩ => ?_
  simp only
  split
  · exact error rfl
  refine (rejected _).bind fun ⟨⟨distinct, items⟩, left⟩ => ?_
  simp only
  split
  · exact ok _
  · exact (rejected _).bind fun _ => ok _

theorem failing_listAnswer (ts : Tables) (w : Window) (distinct : Bool) (items : List Sql.Item)
    (places : Nat) : Failing (q.listAnswer ts w distinct items places) := by
  have hitems : Failing (q.checkItems items) := each (fun _ => rejected _) _
  unfold listAnswer
  refine (rejected _).bind fun names => (q.failing_checkNames hitems).bind fun _ => ?_
  simp only
  split
  · exact error rfl
  · exact (Bindings.failing_checkStorable _).bind fun _ => (rejected _).bind fun _ => ok _

theorem failing_otherAnswer (ts : Tables) (values : Bindings) (other : Sql.Query) (places : Nat)
    (more : Bool) : Failing (q.otherAnswer ts values other places more) := by
  unfold otherAnswer
  refine (rejected _).bind fun columns => ?_
  simp only
  split
  · exact error rfl
  split
  · exact error rfl
  · exact (rejected _).bind fun _ => ok _

theorem failing_answer (ts : Tables) (r : Request) : Failing (q.answer ts r) := by
  unfold answer
  refine q.bindings.failing_checkPassed.bind fun _ => (q.failing_read r).bind fun reading => ?_
  split
  · exact q.failing_listAnswer _ _ _ _ _
  · exact (failing_listAnswer _ _ _ _ _ _).bind fun _ => ok _
  · exact q.failing_otherAnswer _ _ _ _ _
  · exact q.failing_otherAnswer _ _ _ _ _

theorem failing_fetch (ts : Tables) (w : Window) : Failing (q.fetch ts w) := by
  have hkeys : ∀ keys rows, Failing (checkKeys keys rows) := by
    intro keys rows
    unfold checkKeys
    split
    · exact error rfl
    · exact ok rows
  unfold fetch
  split
  · exact (q.failing_answer ts (.rows w)).bind fun _ => hkeys _ _
  · exact (q.failing_checkRun w).bind fun _ => hkeys _ _

theorem failing_count (ts : Tables) : Failing (q.count ts) := by
  unfold count
  split
  · exact (q.failing_answer ts .number).bind fun _ => ok _
  · exact (failing_checkRun _ _).bind fun _ => ok _

end Result

end Select

end Winnow
