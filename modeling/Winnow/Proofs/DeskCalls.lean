import Winnow.Proofs.DeskMoves

namespace Winnow.Desk

variable {Q : Type} {cat : Catalog} {asks : Asks} {T : List String}

/-- A desk with a memory of its book and with some tables joined. -/
structure Has (cat : Catalog) (tables : List String) (d : Desk Q) : Prop where
  memory : cat.book.Reaches d.memory
  joined : tables ⊆ d.session.joins.joined

/-- Such a desk while its query is built. -/
structure Builds (cat : Catalog) (tables : List String) (d : Desk Q) : Prop
    extends Has cat tables d where
  building : d.session.phase = .building

theorem Has.mono {d : Desk Q} {T' : List String} (h : Has cat T d) (hs : T' ⊆ T) :
    Has cat T' d := ⟨h.memory, List.Subset.trans hs h.joined⟩

theorem Builds.mono {d : Desk Q} {T' : List String} (h : Builds cat T d) (hs : T' ⊆ T) :
    Builds cat T' d := ⟨h.toHas.mono hs, h.building⟩

theorem enter_of_open {d : Desk Q} (h : d.session.isOpen = true) :
    (Desk.enter : Build Q Unit) d = .ok () d.entered := by
  simp only [Desk.enter, onSession, Session.enter, h, ↓reduceIte, entered]

theorem enter_of_building {d : Desk Q} (h : d.session.phase = .building) :
    (Desk.enter : Build Q Unit) d = .ok () d := by
  obtain ⟨⟨phase, query, joins, made⟩, memory, reads, notes⟩ := d
  cases h
  rfl

theorem memory_execute {α : Type} (run : Q → Except Failure α) (d : Desk Q) :
    (after (execute run) d).memory = d.memory := by
  obtain ⟨⟨phase, query, joins, made⟩, memory, reads, notes⟩ := d
  unfold after
  cases hr : run query <;> cases phase <;>
    simp [execute, onSession, Session.execute, Session.isOpen, hr]

theorem goes_readJoins {α : Type} {M : Desk Q → Desk Q → Prop} {P : Desk Q → Prop}
    {R : α → Desk Q → Prop} {next : Joins → Build Q α}
    (h : ∀ j, Goes M (fun d => P d ∧ d.session.joins = j) (next j) R) :
    Goes M P (joins >>= next) R :=
  fun d hp => h d.session.joins d ⟨hp, rfl⟩

theorem ends_readJoins {α : Type} {P E : Desk Q → Prop} {R : α → Desk Q → Prop}
    {next : Joins → Build Q α}
    (h : ∀ j, Ends (fun d => P d ∧ d.session.joins = j) (next j) R E) :
    Ends P (joins >>= next) R E :=
  fun d hp => h d.session.joins d ⟨hp, rfl⟩

variable [QueryTarget Q]

theorem goes_note_has (n : Note) :
    Goes (Move (Q := Q) cat asks) (Has cat T) (note n) (fun _ => Has cat T) :=
  fun _ h => ⟨.single (.aside rfl id), h.memory, h.joined⟩

theorem goes_note (n : Note) :
    Goes (Move (Q := Q) cat asks) (Builds cat T) (note n) (fun _ => Builds cat T) :=
  fun _ h => ⟨.single (.aside rfl id), ⟨h.memory, h.joined⟩, h.building⟩

theorem goes_enter :
    Goes (Move (Q := Q) cat asks) (Has cat T) enter (fun _ => Builds cat T) := by
  intro d h
  unfold Desk.enter onSession Session.enter
  by_cases ho : d.session.isOpen
  · simp only [ho, ↓reduceIte]
    exact ⟨.single (.enter ho), ⟨h.memory, h.joined⟩, rfl⟩
  · simp only [ho, Bool.false_eq_true, ↓reduceIte]
    exact .refl

theorem issue_of_ok {c : Call} {d : Desk Q} {q : Q}
    (h : QueryTarget.call c d.session.query = .ok () q) : issue c d = .ok () (d.withQuery q) := by
  simp only [issue, onSession, h, withQuery]

theorem issue_of_error {c : Call} {d : Desk Q} {e : Failure} {q : Q}
    (h : QueryTarget.call c d.session.query = .error e q) :
    issue c d = .error e (d.withQuery q) := by
  simp only [issue, onSession, h, withQuery]

/-- A query that takes every call, whatever calls it took before. -/
def Willing (q : Q) : Prop :=
  ∀ calls : List Call, succeeds (calls.forM (QueryTarget.call (Q := Q))) q = true

theorem Willing.call {q : Q} (h : Willing q) (c : Call) :
    ∃ q', QueryTarget.call c q = .ok () q' ∧ Willing q' := by
  obtain ⟨_, q', hq, -⟩ := of_succeeds_bind (h [c])
  refine ⟨q', hq, fun calls => ?_⟩
  obtain ⟨_, _, hq', hs, -⟩ := of_succeeds_bind (h (c :: calls))
  cases hq.symm.trans hq'
  exact hs

theorem Willing.of_step {S : Q → Prop}
    (step : ∀ q, S q → ∀ c, ∃ q', QueryTarget.call c q = .ok () q' ∧ S q') {q : Q} (h : S q) :
    Willing q := by
  intro calls
  induction calls generalizing q with
  | nil => rfl
  | cons c calls ih =>
    obtain ⟨q', hq, h'⟩ := step q h c
    exact (succeeds_bind_of_ok hq).trans (ih h')

theorem willing_recorder {r : Recorder} (h : r.refused = []) : Willing r :=
  Willing.of_step (S := fun r : Recorder => r.refused = [])
    (fun r hr c => ⟨{ r with calls := r.calls ++ [c] }, by simp [QueryTarget.call, hr], hr⟩) h

theorem goes_send {M : Desk Q → Desk Q → Prop} {P : Desk Q → Prop} {R : Unit → Desk Q → Prop}
    {c : Call} {f : Joins → Joins} (hp : ∀ d, P d → d.session.phase = .building)
    (hm : ∀ d d', P d → Sends c f d d' → M d d')
    (hr : ∀ d q, P d → R () ((d.withQuery q).withJoins (f d.session.joins))) :
    Goes M P (do issue c; setJoins (f (← joins))) R := by
  intro d h
  cases hc : QueryTarget.call c d.session.query with
  | ok u q =>
    rw [bind_of_ok (issue_of_ok hc)]
    exact ⟨.single (hm d _ h (.taken (hp d h) hc)), hr d q h⟩
  | error e q =>
    rw [bind_of_error (issue_of_error hc)]
    exact .single (hm d _ h (.refused (hp d h) hc))

theorem goes_issue {M : Desk Q → Desk Q → Prop} {P : Desk Q → Prop} {c : Call}
    (hp : ∀ d, P d → d.session.phase = .building) (hm : ∀ d d', P d → Sends c id d d' → M d d')
    (hr : ∀ d q, P d → P (d.withQuery q)) : Goes M P (issue c) (fun _ => P) := by
  intro d h
  cases hc : QueryTarget.call c d.session.query with
  | ok u q =>
    rw [issue_of_ok hc]
    exact ⟨.single (hm d _ h (.taken (hp d h) hc)), hr d q h⟩
  | error e q =>
    rw [issue_of_error hc]
    exact .single (hm d _ h (.refused (hp d h) hc))

theorem selectEntries_eq (cat : Catalog) (entries : List String) (d : Desk Q) :
    ∃ d₀ : Desk Q, d₀.session = d.session ∧ d₀.memory = d.memory ∧
      selectEntries cat entries d =
        if (chosen cat entries d.session.joins).selected.isEmpty then
          .ok () (d₀.withJoins (chosen cat entries d.session.joins))
        else issue (.select (chosen cat entries d.session.joins).selected)
          (d₀.withJoins (chosen cat entries d.session.joins)) := by
  have hrest : ∀ d' : Desk Q, (do
      setJoins (addEntries entries (← joins))
      let selected := (← joins).selected
      if !selected.isEmpty then issue (.select selected) : Build Q Unit) d' =
        if (addEntries entries d'.session.joins).selected.isEmpty then
          .ok () (d'.withJoins (addEntries entries d'.session.joins))
        else issue (.select (addEntries entries d'.session.joins).selected)
          (d'.withJoins (addEntries entries d'.session.joins)) := by
    intro d'
    change (if !(addEntries entries d'.session.joins).selected.isEmpty then _ else _ :
      Build Q Unit) _ = _
    cases (addEntries entries d'.session.joins).selected.isEmpty <;> rfl
  by_cases hs : d.session.joins.selected.isEmpty
  · refine ⟨{ d with defaultReads := d.defaultReads + 1 }, rfl, rfl, ?_⟩
    have hj : chosen cat entries d.session.joins =
        addEntries entries (addEntries cat.visible d.session.joins) := by simp [chosen, hs]
    rw [hj]
    have := hrest (Desk.withJoins { d with defaultReads := d.defaultReads + 1 }
      (addEntries cat.visible d.session.joins))
    change (if d.session.joins.selected.isEmpty then _ else _ : Build Q Unit) d = _
    simp only [hs, ↓reduceIte]
    exact this
  · refine ⟨d, rfl, rfl, ?_⟩
    have hj : chosen cat entries d.session.joins = addEntries entries d.session.joins := by
      simp [chosen, hs]
    rw [hj]
    change (if d.session.joins.selected.isEmpty then _ else _ : Build Q Unit) d = _
    simp only [hs, Bool.false_eq_true, ↓reduceIte]
    exact hrest d

end Winnow.Desk
