import Winnow.Proofs.TextReach

namespace Winnow

variable {Q α : Type} {cat : Catalog}

/-- What may be asked of a session: an action, that it be built on, or that its query be run. -/
inductive Demand (Q : Type) where
  | act (action : Action)
  | enter
  | execute {α : Type} (run : Q → Except Failure α)

def Demand.perform [QueryTarget Q] (cat : Catalog) (make : Nat → Q) : Demand Q → Build Q Unit
  | act action => action.perform cat make
  | enter => Desk.enter
  | execute run => do let _ ← Desk.execute run

namespace Desk

/-- Whether a step is refused because the session is closed. -/
def RefusesClosed (step : Build Q α) (d : Desk Q) : Prop :=
  ∃ action d', step d = .error (.closedSession action) d'

/-- A desk with a session that is closed. -/
structure Closed (cat : Catalog) (s : Session Q) (d : Desk Q) : Prop where
  memory : cat.book.Reaches d.memory
  session : d.session = s
  executed : s.phase = .executed

variable {s : Session Q} {d : Desk Q}

theorem enter_of_closed (h : Closed cat s d) :
    (enter : Build Q Unit) d = .error (.closedSession "build") d := by
  obtain ⟨⟨phase, query, joins, made⟩, memory, reads, notes⟩ := d
  obtain ⟨-, rfl, rfl⟩ := h
  rfl

theorem execute_of_closed (h : Closed cat s d) (run : Q → Except Failure α) :
    execute run d = .error (.closedSession "execute") d := by
  obtain ⟨⟨phase, query, joins, made⟩, memory, reads, notes⟩ := d
  obtain ⟨-, rfl, rfl⟩ := h
  rfl

theorem reset_of_closed (h : Closed cat s d) (make : Nat → Q) :
    reset make d = .error (.closedSession "reset") d := by
  obtain ⟨⟨phase, query, joins, made⟩, memory, reads, notes⟩ := d
  obtain ⟨-, rfl, rfl⟩ := h
  rfl

/-- An open session is closed by running its query, also if that fails; a closed one stays so. -/
theorem closed_execute (hm : cat.book.Reaches d.memory) (run : Q → Except Failure α) :
    Closed cat { d.session with phase := .executed } (after (execute run) d) := by
  refine ⟨memory_execute run d ▸ hm, ?_, rfl⟩
  obtain ⟨⟨phase, query, joins, made⟩, memory, reads, notes⟩ := d
  unfold after
  cases hr : run query <;> cases phase <;>
    simp [execute, onSession, Session.execute, Session.isOpen, hr]

variable [QueryTarget Q] {asks : Asks}

theorem Closed.move {d' : Desk Q} (hm : Move cat asks d d') (h : Closed cat s d) :
    Closed cat s d' := by
  have hne : d.session.phase ≠ .building := by
    rw [h.session, h.executed]
    decide
  refine ⟨hm.reaches h.memory, ?_, h.executed⟩
  cases hm with
  | aside hs => exact hs.trans h.session
  | enter ho =>
    unfold Session.isOpen at ho
    rw [h.session, h.executed] at ho
    cases ho
  | call _ hs => exact absurd hs.building.1 hne
  | relation _ _ hj =>
    cases hj with
    | select _ _ hs => exact absurd hs.building.1 hne
    | join _ hs => exact absurd hs.building.1 hne
    | guard _ _ _ _ _ hs => exact absurd hs.building.1 hne

theorem Closed.of_goes {step : Build Q α} {R : α → Desk Q → Prop}
    (hg : Goes (Move cat asks) (Has cat []) step R) : Preserves (Closed cat s) step :=
  fun _ h => kept_of_moves (I := Closed cat s) (fun _ _ hm h => h.move hm)
    (hg.after_moves ⟨h.memory, List.nil_subset _⟩) h

theorem preserves_demand (make : Nat → Q) (demand : Demand Q) :
    Preserves (Closed cat s) (demand.perform cat make) := by
  intro d h
  cases demand with
  | act action =>
    by_cases hr : action = .reset
    · subst hr
      have hrefused : Demand.perform cat make (.act .reset) d =
          .error (.closedSession "reset") d := reset_of_closed h make
      unfold after
      rw [hrefused]
      exact h
    · have hgoes : Goes _ _ (action.perform cat make) _ := goes_perform hr
      exact Closed.of_goes hgoes d h
  | enter =>
    have hrefused : Demand.perform cat make .enter d = .error (.closedSession "build") d :=
      enter_of_closed h
    unfold after
    rw [hrefused]
    exact h
  | execute run =>
    have hrefused : Demand.perform cat make (.execute run) d =
        .error (.closedSession "execute") d := bind_of_error (execute_of_closed h run)
    unfold after
    rw [hrefused]
    exact h

/-- The desk after some demands. One that is refused does not end the run. -/
def serve (cat : Catalog) (make : Nat → Q) (demands : List (Demand Q)) (d : Desk Q) : Desk Q :=
  demands.foldl (fun d demand => after (demand.perform cat make) d) d

theorem closed_serve (make : Nat → Q) (demands : List (Demand Q)) (h : Closed cat s d) :
    Closed cat s (serve cat make demands d) := by
  unfold serve
  induction demands generalizing d with
  | nil => exact h
  | cons demand demands ih => exact ih (preserves_demand make demand d h)

theorem join_of_closed (h : Closed cat s d) (name : RelationName) :
    (∃ d', join cat (.named name) d = .ok () d' ∧ Closed cat s d') ∨
      ∃ d', join cat (.named name) d = .error (.closedSession "build") d' := by
  obtain ⟨r, d₁, hr⟩ : ∃ r d₁, route cat (.named name) d = .ok r d₁ := ⟨_, _, rfl⟩
  have hroute : Goes (Move (Q := Q) cat anyAsks) (Has cat []) (route cat (.named name)) _ :=
    goes_route cat (.named name)
  have h₁ : Closed cat s d₁ := (Closed.of_goes hroute).of_ok h hr
  have happly := applyRelation_eq hr
  unfold join
  split at happly
  next => exact Or.inl ⟨d₁, bind_of_ok happly, h₁⟩
  next rel _ =>
    split at happly
    next => exact Or.inl ⟨d₁, bind_of_ok happly, h₁⟩
    next =>
      rw [bind_of_error (enter_of_closed h₁)] at happly
      exact Or.inr ⟨d₁, bind_of_error happly⟩

/-- What applies a condition, and so enters the building phase after the joins that its column
needs, is refused. -/
theorem apply_of_closed (h : Closed cat s d) (relation : Option String) (next : Build Q α) :
    ∃ d', (match relation with
      | some relation => do
        join cat (.named (.text relation))
        enter
        next
      | none => do
        enter
        next : Build Q α) d = .error (.closedSession "build") d' := by
  have henter : ∀ {d : Desk Q}, Closed cat s d →
      (do enter; next : Build Q α) d = .error (.closedSession "build") d :=
    fun h => bind_of_error (enter_of_closed h)
  cases relation with
  | none => exact ⟨d, henter h⟩
  | some relation =>
    rcases join_of_closed h (.text relation) with ⟨d', hj, h'⟩ | ⟨d', hj⟩
    · exact ⟨d', (bind_of_ok hj).trans (henter h')⟩
    · exact ⟨d', bind_of_error hj⟩

section Work

variable {use : Use} {compile : String → String → Option α} {send : α → Build Q Unit}

/-- A text is refused when one of its conditions would be applied, and is worked off in vain
otherwise. -/
theorem work_of_closed (hcompile : ∀ column e, (compile column e).isSome = use.compiles e)
    (segments : List Segment) (h : Closed cat s d) :
    (∃ d', work cat use compile send segments d = .error (.closedSession "build") d' ∧
        ∃ c ∈ segments.filterMap Segment.condition?, (cat.applied? use c).isSome) ∨
      ∃ d', work cat use compile send segments d = .ok [] d' ∧
        ∀ c ∈ segments.filterMap Segment.condition?, cat.applied? use c = none := by
  have hnote : ∀ (n : Note) {d : Desk Q}, Closed cat s d →
      Closed cat s { d with notes := d.notes ++ [n] } :=
    fun _ _ h => ⟨h.memory, h.session, h.executed⟩
  induction segments generalizing d with
  | nil => exact Or.inr ⟨d, rfl, by simp⟩
  | cons segment rest ih =>
    cases segment with
    | malformed text => exact ih (hnote (.malformedSegment text) h)
    | condition c =>
      obtain ⟨m, notes, hm, hcolumn⟩ := column_eq h.memory use c.column
      have h₁ : Closed cat s { d with memory := m, notes := notes } :=
        ⟨hm, h.session, h.executed⟩
      simp only [List.filterMap_cons, Segment.condition?, List.mem_cons, exists_eq_or_imp,
        forall_eq_or_imp]
      unfold work
      rw [bind_of_ok hcolumn]
      cases hf : cat.columnOf? use c.column with
      | none =>
        have hc : cat.applied? use c = none := by simp [Catalog.applied?, hf]
        simp only [hc, Option.isSome_none, Bool.false_eq_true, false_or, true_and]
        exact ih (hnote _ h₁)
      | some found =>
        have hc : cat.applied? use c =
            if (compile found.column c.expression).isSome then some found else none := by
          simp [Catalog.applied?, hf, Option.filter, hcompile]
        rw [hc]
        cases ha : compile found.column c.expression with
        | none =>
          simp only [ha, Option.isSome_none, Bool.false_eq_true, ↓reduceIte, false_or, true_and]
          exact ih (hnote _ h₁)
        | some a =>
          simp only [ha, Option.isSome_some, ↓reduceIte, true_or, and_true]
          exact Or.inl (apply_of_closed (hnote _ h₁) found.relation _)

/-- A text is refused exactly when one of the conditions that are read from it would be applied. -/
theorem workText_of_closed (hcompile : ∀ column e, (compile column e).isSome = use.compiles e)
    (raw : Option String) (limit : Option Int) (h : Closed cat s d) :
    RefusesClosed (workText cat use compile send raw limit) d ↔
      ∃ c ∈ cat.conditions use raw limit, (cat.applied? use c).isSome := by
  unfold RefusesClosed workText
  cases hscan : Segment.scan cat.separator (some (limit.getD (cat.limit use))) (raw.getD "") with
  | error e =>
    obtain ⟨rfl, hnone⟩ := Catalog.conditions_of_scan_error hscan
    refine ⟨fun ⟨action, d', he⟩ => ?_, fun ⟨c, hc, _⟩ => ?_⟩
    · cases he
    · rw [hnone] at hc
      cases hc
  | ok segments =>
    rw [Catalog.conditions_of_scan hscan]
    rcases work_of_closed hcompile segments h with ⟨d', hw, happlied⟩ | ⟨d', hw, hnone⟩
    · exact ⟨fun _ => happlied, fun _ => ⟨_, _, hw⟩⟩
    · refine ⟨fun ⟨action, d'', he⟩ => ?_, fun ⟨c, hc, hs⟩ => ?_⟩
      · cases hw.symm.trans he
      · rw [hnone c hc] at hs
        cases hs

end Work

theorem filter_of_closed (raw : Option String) (limit : Option Int) (h : Closed cat s d) :
    RefusesClosed (filter cat raw limit) d ↔
      ∃ c ∈ cat.conditions .filter raw limit, (cat.applied? .filter c).isSome :=
  workText_of_closed (fun _ _ => Option.isSome_map) raw limit h

theorem sort_of_closed (raw : Option String) (limit : Option Int) (h : Closed cat s d) :
    RefusesClosed (sort cat raw limit) d ↔
      ∃ c ∈ cat.conditions .sort raw limit, (cat.applied? .sort c).isSome :=
  workText_of_closed (fun _ _ => Option.isSome_map) raw limit h

theorem search_of_closed (term : Option String) (h : Closed cat s d) :
    RefusesClosed (search cat term) d ↔ (∃ t, term = some t ∧ t ≠ "") ∧ cat.searchable ≠ [] := by
  unfold RefusesClosed search
  cases term with
  | none => exact ⟨fun ⟨_, _, he⟩ => (by cases he), fun ⟨⟨_, ht, _⟩, _⟩ => (by cases ht)⟩
  | some t =>
    by_cases hskip : t = "" || cat.searchable.isEmpty
    · simp only [hskip, ↓reduceIte]
      refine ⟨fun ⟨_, _, he⟩ => (by cases he), fun ⟨⟨_, ht, hne⟩, hs⟩ => ?_⟩
      cases ht
      simp [hne, hs] at hskip
    · simp only [hskip, Bool.false_eq_true, ↓reduceIte, bind_of_error (enter_of_closed h)]
      simpa using hskip

/-- Once the query of a session was run, also when that failed, nothing that is asked of the
session changes it: its query gets no call and is not replaced, no query is made, and what was
joined stays. It cannot be built on, run or reset; a text is refused exactly when one of its
conditions would be applied, and a term exactly when there is something to look for. -/
theorem closed_for_good (make : Nat → Logged Q) (run : Logged Q → Except Failure α)
    {d₀ : Desk (Logged Q)} (hm : cat.book.Reaches d₀.memory) (demands : List (Demand (Logged Q))) :
    let d := after (execute run) d₀
    let e := serve cat make demands d
    d.session = { d₀.session with phase := .executed } ∧ e.session = d.session ∧
      (enter : Build (Logged Q) Unit) e = .error (.closedSession "build") e ∧
      (∀ (β : Type) (again : Logged Q → Except Failure β),
        execute again e = .error (.closedSession "execute") e) ∧
      reset make e = .error (.closedSession "reset") e ∧
      (∀ raw limit, RefusesClosed (filter cat raw limit) e ↔
        ∃ c ∈ cat.conditions .filter raw limit, (cat.applied? .filter c).isSome) ∧
      (∀ raw limit, RefusesClosed (sort cat raw limit) e ↔
        ∃ c ∈ cat.conditions .sort raw limit, (cat.applied? .sort c).isSome) ∧
      ∀ term, RefusesClosed (search cat term) e ↔
        (∃ t, term = some t ∧ t ≠ "") ∧ cat.searchable ≠ [] := by
  intro d e
  have hd : Closed cat { d₀.session with phase := .executed } d := closed_execute hm run
  have he := closed_serve make demands hd
  exact ⟨hd.session, he.session.trans hd.session.symm, enter_of_closed he,
    fun _ => execute_of_closed he, reset_of_closed he make,
    fun raw limit => filter_of_closed raw limit he, fun raw limit => sort_of_closed raw limit he,
    fun term => search_of_closed term he⟩

/-- A session that joined the roles is closed by a query that fails. Asked for the photos of the
profiles, it refuses, and the roles stay all that was joined. -/
theorem closed_for_good_users :
    Catalog.ofUsers.book.Reaches (usersAfter [.join (.named (.text "role"))]).memory ∧
      ∃ e : Desk (Logged Recorder), RefusesClosed (filter .ofUsers photoText none) e ∧
        e.session.joins.joined = ["roles"] ∧
        e.log = (usersAfter [.join (.named (.text "role"))]).log := by
  have hm : Catalog.ofUsers.book.Reaches (usersAfter [.join (.named (.text "role"))]).memory :=
    (moves_run _ (by simp) .empty).2
  let fails : Logged Recorder → Except Failure Unit := fun _ => .error .noOperand
  let demands : List (Demand (Logged Recorder)) :=
    [.act .reset, .act (.filter photoText none), .execute fails, .enter]
  obtain ⟨hd, he, -, -, -, hfilter, -⟩ :=
    closed_for_good (Logged.of fun _ => ({} : Recorder)) fails hm demands
  refine ⟨hm, _, (hfilter photoText none).mpr ?_, ?_, ?_⟩
  · rw [conditions_photo]
    exact ⟨_, List.mem_singleton_self _, by decide +kernel⟩
  · rw [he, hd]
    decide +kernel
  · unfold Desk.log
    rw [he, hd]

end Desk

end Winnow
