import Winnow.Proofs.TextOutcome
import Winnow.Proofs.RefusedEntries
import Winnow.Proofs.AcceptedCalls

namespace Winnow

theorem Call.isPlain_of_tests {column : String} {c : Call} (h : c.Tests column) :
    c.isPlain = true := by
  cases h <;> rfl

theorem Call.Adds.exists_call {column : String} {ref : ColumnRef} {calls : List Call}
    {tests : List Test} {t : Test} (h : List.Forall₂ (Call.Adds column ref) calls tests)
    (ht : t ∈ tests) : ∃ c ∈ calls, Call.Adds column ref c t := by
  induction h with
  | nil => cases ht
  | cons hone _ ih =>
    rcases List.mem_cons.mp ht with rfl | ht
    · exact ⟨_, by simp, hone⟩
    · obtain ⟨c, hc, hadds⟩ := ih ht
      exact ⟨c, by simp [hc], hadds⟩

namespace Select

variable {q q' : Select} {c : Call}

theorem findColumn_of_step (h : q.step c = .ok q') (reference : String) :
    q'.findColumn reference = q.findColumn reference := by
  obtain ⟨hs, hb⟩ := frame_of_step h
  rw [findColumn_congr hs hb]

theorem outputs_of_step (hs : ∀ entries, c ≠ .select entries) (h : q.step c = .ok q') :
    q'.outputs = q.outputs := by
  cases takes_of_step h with
  | select => exact absurd rfl (hs _)
  | test | alternative | join | order => rfl

theorem grows_of_step (hp : c.isPlain = true) (h : q.step c = .ok q') :
    q.clauses ⊆ q'.clauses ∧ q.orders ⊆ q'.orders := by
  cases takes_of_step h with
  | alternative | select => cases hp
  | test => exact ⟨List.subset_append_left _ _, List.Subset.refl _⟩
  | join => exact ⟨List.Subset.refl _, List.Subset.refl _⟩
  | order => exact ⟨List.Subset.refl _, List.subset_append_left _ _⟩

end Select

namespace Desk

abbrev Fact := List String → Select → Prop

/-- A fact that stays known when more is selected and when plain calls are taken. -/
structure Fact.Lasts (F : Fact) : Prop where
  more {selected selected' : List String} {q : Select} : selected ⊆ selected' →
    F selected q → F selected' q
  select {selected : List String} {q : Select} (outputs : List Output) :
    F selected q → F selected { q with outputs }
  call {selected : List String} {q q' : Select} {c : Call} : c.isPlain = true →
    q.step c = .ok q' → F selected q → F selected q'

namespace Fact.Lasts

variable {F F' : Fact}

theorem and (h : F.Lasts) (h' : F'.Lasts) :
    Fact.Lasts fun selected q => F selected q ∧ F' selected q where
  more hs hf := ⟨h.more hs hf.1, h'.more hs hf.2⟩
  select outputs hf := ⟨h.select outputs hf.1, h'.select outputs hf.2⟩
  call hp hq hf := ⟨h.call hp hq hf.1, h'.call hp hq hf.2⟩

theorem of_selected {G : List String → Prop} (h : ∀ xs ys, xs ⊆ ys → G xs → G ys) :
    Fact.Lasts fun selected _ => G selected where
  more hs hg := h _ _ hs hg
  select _ hg := hg
  call _ _ hg := hg

theorem of_column {column : String} {G : ColumnRef → Select → Prop}
    (h : ∀ ref q q', q.clauses ⊆ q'.clauses → q.orders ⊆ q'.orders → G ref q → G ref q') :
    Fact.Lasts fun _ q => ∀ ref, q.findColumn column = .ok ref → G ref q where
  more _ hg := hg
  select {_ q} _ hg ref hc := h ref q _ (List.Subset.refl _) (List.Subset.refl _) (hg ref hc)
  call hp hq hg ref hc := by
    rw [Select.findColumn_of_step hq] at hc
    obtain ⟨hclauses, horders⟩ := Select.grows_of_step hp hq
    exact h ref _ _ hclauses horders (hg ref hc)

end Fact.Lasts

/-- A session whose query has the outputs for what the session selects, and of which a fact is
known. -/
structure InStep (cat : Catalog) (F : Fact) (d : Desk Select) : Prop where
  memory : cat.book.Reaches d.memory
  outputs : d.session.query.findOutputs d.session.joins.selected = .ok d.session.query.outputs
  fact : F d.session.joins.selected d.session.query

/-- Where a step succeeds, a session that was in step stays so, and another fact is known of it. -/
def Brings {α : Type} (cat : Catalog) (F : Fact) (step : Build Select α) (F' : Fact) : Prop :=
  Ends (InStep cat F) step (fun _ => InStep cat F') fun _ => True

variable {α : Type} {cat : Catalog} {F F' : Fact} {c : Call}

theorem Brings.weaken {step : Build Select α} {F'' : Fact} (h : Brings cat F step F')
    (hw : ∀ selected q, F' selected q → F'' selected q) : Brings cat F step F'' :=
  Ends.weaken h fun _ _ hd => ⟨hd.memory, hd.outputs, hw _ _ hd.fact⟩

theorem brings_issue (hs : ∀ entries, c ≠ .select entries)
    (h : ∀ selected q q', q.step c = .ok q' → F selected q → F' selected q') :
    Brings cat F (issue c) F' := by
  intro d hd
  cases hq : d.session.query.step c with
  | ok q' =>
    obtain ⟨hschema, hbase⟩ := Select.frame_of_step hq
    rw [issue_of_ok (Select.call_of_step hq)]
    refine ⟨hd.memory, ?_, h _ _ _ hq hd.fact⟩
    change q'.findOutputs d.session.joins.selected = .ok q'.outputs
    rw [Select.findOutputs_congr hschema hbase, Select.outputs_of_step hs hq]
    exact hd.outputs
  | error e =>
    rw [issue_of_error (Select.call_of_step_error hq)]
    trivial

theorem brings_steps : Steps fun step => Brings cat F step F where
  pure _ := Ends.pure fun _ h => h
  bind hs hn := Ends.bind hs hn
  note _ _ h := ⟨h.memory, h.outputs, h.fact⟩
  enter := by
    intro d h
    unfold enter onSession Session.enter
    by_cases ho : d.session.isOpen
    · simp only [ho, ↓reduceIte]
      exact ⟨h.memory, h.outputs, h.fact⟩
    · simp only [ho, Bool.false_eq_true, ↓reduceIte]

theorem brings_column {use : Use} {given : String} {next : Option FoundColumn → Build Select α}
    (hn : Brings cat F (next (cat.columnOf? use given)) F') :
    Brings cat F (column cat use given >>= next) F' := by
  intro d h
  obtain ⟨m, notes, hm, he⟩ := column_eq h.memory use given
  rw [bind_of_ok he]
  exact hn _ ⟨hm, h.outputs, h.fact⟩

theorem brings_rules : Rules cat fun step => Brings cat F step F where
  toSteps := brings_steps
  column := brings_column

theorem brings_plain (lasts : F.Lasts) (hp : c.isPlain = true) : Brings cat F (issue c) F := by
  refine brings_issue (fun entries he => ?_) fun _ _ _ hq hf => lasts.call hp hq hf
  subst he
  cases hp

theorem brings_joinRules (lasts : F.Lasts) :
    JoinRules (fun step => Brings cat F step F) fun c => c.isPlain = true where
  toSteps := brings_steps
  joins h d hd := h d.session.joins d hd
  change hf _ hd := by
    refine ⟨hd.memory, ?_, ?_⟩
    · rw [hf]
      exact hd.outputs
    · rw [hf]
      exact hd.fact
  issue := brings_plain lasts

theorem ends_select (lasts : F.Lasts) (j : Joins) :
    Ends (fun d => cat.book.Reaches d.memory ∧ d.session.joins = j ∧ F j.selected d.session.query)
      (issue (.select j.selected)) (fun _ => InStep cat F) fun _ => True := by
  rintro d ⟨hm, rfl, hf⟩
  cases hq : d.session.query.step (.select d.session.joins.selected) with
  | ok q' =>
    obtain ⟨outputs, ho, rfl⟩ := ok_of_map hq
    rw [issue_of_ok (Select.call_of_step hq)]
    have hsame := Select.findOutputs_congr (p := { d.session.query with outputs })
      (q := d.session.query) rfl rfl d.session.joins.selected
    exact ⟨hm, hsame.trans ho, lasts.select outputs hf⟩
  | error e =>
    rw [issue_of_error (Select.call_of_step_error hq)]
    trivial

theorem lasts_selects (entries : List String) :
    Fact.Lasts fun selected _ => entries ⊆ selected :=
  .of_selected fun _ _ hs h => List.Subset.trans h hs

theorem brings_selectEntries (lasts : F.Lasts) (entries : List String) :
    Brings cat F (selectEntries cat entries)
      fun selected q => F selected q ∧ entries ⊆ selected := by
  intro d h
  obtain ⟨⟨session, memory, reads, notes⟩, hs, hm, he⟩ := selectEntries_eq cat entries d
  obtain rfl : session = d.session := hs
  obtain rfl : memory = d.memory := hm
  have hentries : entries ⊆ (chosen cat entries d.session.joins).selected :=
    fun e hm => mem_addEntries.mpr (Or.inr hm)
  have hmore : d.session.joins.selected ⊆ (chosen cat entries d.session.joins).selected :=
    fun e hm => mem_chosen hm
  rw [he]
  by_cases hn : (chosen cat entries d.session.joins).selected.isEmpty
  · rw [if_pos hn]
    rw [chosen_eq_of_isEmpty hn] at hentries ⊢
    exact ⟨h.memory, h.outputs, h.fact, hentries⟩
  · rw [if_neg hn]
    exact ends_select (lasts.and (lasts_selects entries)) _ _
      ⟨h.memory, rfl, lasts.more hmore h.fact, hentries⟩

def Covers (cat : Catalog) (ref : RelationRef) (selected : List String) : Prop :=
  ∀ rel, cat.book.relationOf? ref = some rel → cat.hops rel ≠ [] →
    rel.entries.map normalizeEntry ⊆ selected

theorem lasts_covers (cat : Catalog) (ref : RelationRef) :
    Fact.Lasts fun selected _ => Covers cat ref selected :=
  .of_selected fun _ _ hs h rel known hne => List.Subset.trans (h rel known hne) hs

theorem brings_join (lasts : F.Lasts) (ref : RelationRef) :
    Brings cat F (join cat ref) fun selected q => F selected q ∧ Covers cat ref selected := by
  refine Ends.bind (R := fun _ => InStep cat fun selected q =>
    F selected q ∧ Covers cat ref selected) ?_ fun _ => Ends.pure fun _ h => h
  intro d h
  cases hr : route cat ref d with
  | error e d₁ =>
    have happly : applyRelation cat ref d = .error e d₁ := bind_of_error hr
    rw [happly]
    trivial
  | ok r d₁ =>
    obtain ⟨rfl, hs, hm⟩ := route_of_ok h.memory hr
    have h₁ : InStep cat F d₁ := ⟨hm, hs ▸ h.outputs, hs ▸ h.fact⟩
    rw [applyRelation_eq hr]
    cases known : cat.book.relationOf? ref with
    | none => exact ⟨hm, h₁.outputs, h₁.fact, by simp [Covers, known]⟩
    | some rel =>
      have hhops := Catalog.hops_of_relationOf? known
      have hcovers : ∀ selected, Covers cat ref selected ↔
          (cat.hops rel ≠ [] → rel.entries.map normalizeEntry ⊆ selected) := by
        simp [Covers, known]
      simp only [hcovers, hhops]
      by_cases hskip : ((cat.hops rel).isEmpty ||
          isSettled d₁.session.joins (cat.book.route ref) (rel.entries.map normalizeEntry)) = true
      · rw [if_pos hskip]
        refine ⟨hm, h₁.outputs, h₁.fact, fun hne => ?_⟩
        -- with a hop, there is nothing left to do only if the entries are selected
        rw [List.isEmpty_eq_false_iff.mpr hne, Bool.false_or] at hskip
        simp only [isSettled, Bool.and_eq_true, List.all_eq_true, decide_eq_true_eq] at hskip
        exact fun e he => hskip.2 e he
      · rw [if_neg hskip]
        have hselects := lasts_selects (rel.entries.map normalizeEntry)
        have hjoins : Brings cat (fun selected q => F selected q ∧
              rel.entries.map normalizeEntry ⊆ selected)
            (joinHops cat rel (cat.book.route ref).joinKind true (cat.hops rel))
            fun selected q => F selected q ∧ rel.entries.map normalizeEntry ⊆ selected :=
          (brings_joinRules (lasts.and hselects)).joinHops (fun _ _ => rfl) fun _ _ _ _ _ => rfl
        have hrest := brings_steps.enter.bind fun _ => (brings_selectEntries lasts _).bind fun _ =>
          hjoins.bind fun _ => brings_steps.pure (cat.book.route ref)
        exact (Brings.weaken hrest fun _ _ hf => ⟨hf.1, fun _ => hf.2⟩) d₁ h₁

section Texts

variable {use : Use} {compile : String → String → Option α} {send : α → Build Select Unit}
variable {Done : α → Fact}

/-- What a condition comes to was sent, and the relation that it needs is selected from. -/
def Carried (cat : Catalog) (Done : α → Fact) (x : FoundColumn × α) : Fact := fun selected q =>
  Done x.2 selected q ∧
    ∀ relation, x.1.relation = some relation → Covers cat (.named (.text relation)) selected

theorem brings_work (hsend : ∀ F, F.Lasts → ∀ column expression a,
      compile column expression = some a →
      Brings cat F (send a) fun selected q => F selected q ∧ Done a selected q)
    (hdone : ∀ a, (Done a).Lasts) (lasts : F.Lasts) (segments : List Segment) :
    Brings cat F (work cat use compile send segments) fun selected q => F selected q ∧
      ∀ x ∈ (segments.filterMap Segment.condition?).filterMap (cat.compiled? use compile),
        Carried cat Done x selected q := by
  induction segments generalizing F with
  | nil => exact (brings_steps.pure []).weaken fun _ _ hf => ⟨hf, nofun⟩
  | cons segment rest ih =>
    cases segment with
    | malformed text => exact (brings_steps.note _).bind fun _ => ih lasts
    | condition c =>
      refine brings_column ?_
      simp only [List.filterMap_cons, Segment.condition?]
      cases hf : cat.columnOf? use c.column with
      | none =>
        have hnone : cat.compiled? use compile c = none := by simp [Catalog.compiled?, hf]
        rw [hnone]
        exact (brings_steps.note _).bind fun _ => ih lasts
      | some found =>
        cases hc : compile found.column c.expression with
        | none =>
          have hnone : cat.compiled? use compile c = none := by simp [Catalog.compiled?, hf, hc]
          simp only [hnone, hc]
          exact (brings_steps.note _).bind fun _ => ih lasts
        | some a =>
          have hsome : cat.compiled? use compile c = some (found, a) := by
            simp [Catalog.compiled?, hf, hc]
          simp only [hsome, hc]
          -- what is known once the relation of the condition is joined
          have hrest : ∀ {F' : Fact}, F'.Lasts → (∀ selected q, F' selected q → F selected q) →
              (∀ selected q, F' selected q → ∀ relation, found.relation = some relation →
                Covers cat (.named (.text relation)) selected) →
              Brings cat F' (do
                enter
                send a
                let applied ← work cat use compile send rest
                return a :: applied) fun selected q => F selected q ∧
                  ∀ x ∈ (found, a) :: (rest.filterMap Segment.condition?).filterMap
                    (cat.compiled? use compile), Carried cat Done x selected q := by
            intro F' lasts' hback hcovers
            refine brings_steps.enter.bind fun _ => (hsend F' lasts' _ _ a hc).bind fun _ =>
              ((ih (lasts'.and (hdone a))).weaken fun selected q hx => ?_).bind
                fun _ => brings_steps.pure _
            obtain ⟨⟨hf', hd⟩, hx⟩ := hx
            exact ⟨hback _ _ hf', List.forall_mem_cons.mpr ⟨⟨hd, hcovers _ _ hf'⟩, hx⟩⟩
          refine (brings_steps.note _).bind fun _ => ?_
          cases hr : found.relation with
          | none => exact hrest lasts (fun _ _ h => h) (by simp [hr])
          | some relation =>
            refine (brings_join lasts (.named (.text relation))).bind fun _ =>
              hrest (lasts.and (lasts_covers cat _)) (fun _ _ h => h.1) ?_
            intro selected q h other ho
            cases hr.symm.trans ho
            exact h.2

theorem brings_workText (hsend : ∀ F, F.Lasts → ∀ column expression a,
      compile column expression = some a →
      Brings cat F (send a) fun selected q => F selected q ∧ Done a selected q)
    (hdone : ∀ a, (Done a).Lasts) (lasts : F.Lasts) (raw : Option String) (limit : Option Int) :
    Brings cat F (workText cat use compile send raw limit) fun selected q => F selected q ∧
      ∀ x ∈ cat.compiled use compile raw limit, Carried cat Done x selected q := by
  unfold workText Catalog.compiled
  cases hscan : Segment.scan cat.separator (some (limit.getD (cat.limit use))) (raw.getD "") with
  | error e => exact fun d _ => trivial
  | ok segments =>
    rw [Catalog.conditions_of_scan hscan]
    exact brings_work hsend hdone lasts segments

end Texts

def Tested (p : Predicate) : Fact := fun _ q =>
  ∀ ref, q.findColumn p.column = .ok ref → ∀ t ∈ p.tests ref, ⟨t, []⟩ ∈ q.clauses

def Ordered (o : Order) : Fact := fun _ q =>
  ∀ ref, q.findColumn o.column = .ok ref → (ref, o.direction) ∈ q.orders

theorem lasts_tested (p : Predicate) : (Tested p).Lasts :=
  .of_column fun _ _ _ hclauses _ h t ht => hclauses (h t ht)

theorem lasts_ordered (o : Order) : (Ordered o).Lasts :=
  .of_column fun _ _ _ _ horders h => horders h

theorem brings_issueAll {column : String} {calls : List Call} (lasts : F.Lasts)
    (htests : ∀ c ∈ calls, c.Tests column) :
    Brings cat F (issueAll calls) fun selected q => F selected q ∧
      ∀ ref, q.findColumn column = .ok ref → ∀ c ∈ calls, ∀ t, Call.Adds column ref c t →
        ⟨t, []⟩ ∈ q.clauses := by
  induction calls generalizing F with
  | nil => exact (brings_steps.pure ()).weaken fun _ _ hf => ⟨hf, by simp⟩
  | cons c calls ih =>
    obtain ⟨hc, hcalls⟩ := List.forall_mem_cons.mp htests
    have hplain := Call.isPlain_of_tests hc
    have hone : Brings cat F (issue c) fun selected q => F selected q ∧
        ∀ ref, q.findColumn column = .ok ref → ∀ t, Call.Adds column ref c t →
          ⟨t, []⟩ ∈ q.clauses := by
      refine brings_issue (fun entries he => by cases he; cases hc) fun selected q q' hq hf =>
        ⟨lasts.call hplain hq hf, fun ref href t ht => ?_⟩
      rw [Select.findColumn_of_step hq] at href
      cases hq.symm.trans (Select.step_of_adds href ht)
      simp [Select.addTests]
    have hlasts : Fact.Lasts fun _ q => ∀ ref, q.findColumn column = .ok ref →
        ∀ t, Call.Adds column ref c t → ⟨t, []⟩ ∈ q.clauses :=
      .of_column fun _ _ _ hclauses _ h t ht => hclauses (h t ht)
    refine hone.bind fun _ => (ih (lasts.and hlasts) hcalls).weaken fun selected q h => ?_
    obtain ⟨⟨hf, hfirst⟩, hothers⟩ := h
    exact ⟨hf, fun ref href => List.forall_mem_cons.mpr ⟨hfirst ref href, hothers ref href⟩⟩

theorem brings_sendPredicate (lasts : F.Lasts) {column expression : String} {p : Predicate}
    (h : Predicate.compile column expression = some p) :
    Brings cat F (sendPredicate p) fun selected q => F selected q ∧ Tested p selected q := by
  obtain ⟨calls, hcalls⟩ := calls_ok h
  have htests : ∀ c ∈ calls, c.Tests p.column := fun c hc =>
    Predicate.tests_of_mem_sent (by rw [Predicate.sent, hcalls]; exact hc)
  unfold sendPredicate
  rw [hcalls]
  refine (brings_issueAll lasts htests).weaken fun selected q hf => ⟨hf.1, fun ref href t ht => ?_⟩
  -- each test is added by one of the calls
  obtain ⟨c, hc, hadds⟩ := Call.Adds.exists_call (Predicate.adds_of_calls ref hcalls) ht
  exact hf.2 ref href c hc t hadds

theorem brings_sendOrder (lasts : F.Lasts) (o : Order) :
    Brings cat F (sendOrder o) fun selected q => F selected q ∧ Ordered o selected q := by
  refine brings_issue (by simp) fun selected q q' hq hf =>
    ⟨lasts.call rfl hq hf, fun ref href => ?_⟩
  rw [Select.findColumn_of_step hq] at href
  obtain ⟨c, hc, rfl⟩ := ok_of_map hq
  cases hc.symm.trans href
  have hread : Direction.read? o.direction.name = some o.direction := by
    cases o.direction <;> decide
  simp [hread]

end Desk

end Winnow
