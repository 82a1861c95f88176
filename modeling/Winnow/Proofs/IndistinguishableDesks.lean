import Winnow.Proofs.QueryFailure
import Winnow.Proofs.TextProofRules

namespace Winnow

variable {σ α β : Type}

/-- Two outcomes with the same answer or the same failure, which is not that of a closed session,
in related states. -/
inductive Same (R : σ → σ → Prop) :
    EStateM.Result Failure σ α → EStateM.Result Failure σ α → Prop
  | ok {a : α} {s t : σ} : R s t → Same R (.ok a s) (.ok a t)
  | error {e : Failure} {s t : σ} : e.isOfSession = false → R s t →
      Same R (.error e s) (.error e t)

theorem Same.after {R : σ → σ → Prop} {step : EStateM Failure σ α} {s t : σ}
    (h : Same R (step s) (step t)) : R (after step s) (after step t) := by
  unfold Winnow.after
  generalize step s = x at h ⊢
  generalize step t = y at h ⊢
  cases h with
  | ok h => exact h
  | error _ h => exact h

def Respects (R : σ → σ → Prop) (step : EStateM Failure σ α) : Prop :=
  ∀ s t, R s t → Same R (step s) (step t)

namespace Respects

variable {R : σ → σ → Prop} {step : EStateM Failure σ α}

theorem pure (a : α) : Respects R (pure a : EStateM Failure σ α) := fun _ _ h => .ok h

theorem bind {next : α → EStateM Failure σ β} (hs : Respects R step)
    (hn : ∀ a, Respects R (next a)) : Respects R (step >>= next) := by
  intro s t h
  have hfirst := hs s t h
  cases hr : step s with
  | ok a s' =>
    cases ht : step t with
    | ok b t' =>
      rw [hr, ht] at hfirst
      cases hfirst with
      | ok h' =>
        rw [bind_of_ok hr, bind_of_ok ht]
        exact hn a s' t' h'
    | error f t' =>
      rw [hr, ht] at hfirst
      cases hfirst
  | error e s' =>
    cases ht : step t with
    | ok b t' =>
      rw [hr, ht] at hfirst
      cases hfirst
    | error f t' =>
      rw [hr, ht] at hfirst
      cases hfirst with
      | error he h' =>
        rw [bind_of_error hr, bind_of_error ht]
        exact .error he h'

theorem of_ok (h : Respects R step) {s s' : σ} {a : α} (hs : R s s) (he : step s = .ok a s') :
    R s' s' := by
  have hsame := h s s hs
  rw [he] at hsame
  cases hsame with
  | ok h => exact h

end Respects

namespace Desk

/-- Two desks with the same session, which is open; each book remembers what it was asked. -/
structure Alike (cat : Catalog) (d e : Desk Select) : Prop where
  isOpen : d.session.isOpen = true
  phase : e.session.phase = d.session.phase
  query : e.session.query = d.session.query
  joins : e.session.joins = d.session.joins
  memory : cat.book.Reaches d.memory
  memory' : cat.book.Reaches e.memory

variable {cat : Catalog}

theorem respects_note (n : Note) : Respects (Alike cat) (note n) := fun _ _ h =>
  .ok ⟨h.isOpen, h.phase, h.query, h.joins, h.memory, h.memory'⟩

theorem respects_enter : Respects (Alike cat) enter := by
  intro d e h
  have he : e.session.isOpen = true := by
    have ho := h.isOpen
    unfold Session.isOpen at ho ⊢
    rwa [h.phase]
  have hone : ∀ d : Desk Select, d.session.isOpen = true →
      (enter : Build Select Unit) d = .ok () d.entered := by
    intro d hd
    simp only [Desk.enter, onSession, Session.enter, hd, ↓reduceIte, entered]
  rw [hone d h.isOpen, hone e he]
  exact .ok ⟨rfl, rfl, h.query, h.joins, h.memory, h.memory'⟩

theorem respects_issue (c : Call) : Respects (Alike cat) (issue c) := by
  intro d e h
  have hf := d.session.query.failing_step c
  cases hs : d.session.query.step c with
  | ok q =>
    have hd : QueryTarget.call c d.session.query = .ok () q := by
      simp only [QueryTarget.call, hs]
    rw [issue_of_ok hd, issue_of_ok (h.query ▸ hd)]
    exact .ok ⟨h.isOpen, h.phase, rfl, h.joins, h.memory, h.memory'⟩
  | error f =>
    have hd : QueryTarget.call c d.session.query = .error f d.session.query := by
      simp only [QueryTarget.call, hs]
    rw [issue_of_error hd, issue_of_error (h.query ▸ hd)]
    exact .error (hf f hs) ⟨h.isOpen, h.phase, h.query, h.joins, h.memory, h.memory'⟩

theorem respects_setJoins (j : Joins) : Respects (Alike cat) (setJoins j) := fun _ _ h =>
  .ok ⟨h.isOpen, h.phase, h.query, rfl, h.memory, h.memory'⟩

theorem respects_joins {α : Type} {next : Joins → Build Select α}
    (h : ∀ j, Respects (Alike cat) (next j)) : Respects (Alike cat) (joins >>= next) := by
  intro d e hd
  have hnext := h d.session.joins d e hd
  rw [show (joins >>= next) e = next d.session.joins e from by rw [← hd.joins]; rfl]
  exact hnext

theorem respects_column {α : Type} {use : Use} {given : String}
    {next : Option FoundColumn → Build Select α}
    (h : Respects (Alike cat) (next (cat.columnOf? use given))) :
    Respects (Alike cat) (column cat use given >>= next) := by
  intro d e hd
  obtain ⟨m, notes, hm, he⟩ := column_eq hd.memory use given
  obtain ⟨m', notes', hm', he'⟩ := column_eq hd.memory' use given
  rw [bind_of_ok he, bind_of_ok he']
  exact h _ _ ⟨hd.isOpen, hd.phase, hd.query, hd.joins, hm, hm'⟩

theorem respects_steps : Steps (Respects (Alike cat)) where
  pure := Respects.pure
  bind := Respects.bind
  note := respects_note
  enter := respects_enter

theorem respects_rules : Rules cat (Respects (Alike cat)) where
  toSteps := respects_steps
  column := respects_column

theorem respects_joinRules : JoinRules (Respects (Alike cat)) fun _ => True where
  toSteps := respects_steps
  joins := respects_joins
  change _ := respects_joins fun _ => respects_setJoins _
  issue _ := respects_issue _

theorem respects_route (ref : RelationRef) : Respects (Alike cat) (route cat ref) := by
  intro d e h
  unfold route
  cases ref with
  | unnameable kind => exact .error rfl h
  | named name =>
    simp only [RelationBook.consult]
    rw [RelationBook.consultName_answer h.memory.faithful,
      RelationBook.consultName_answer h.memory'.faithful]
    exact .ok ⟨h.isOpen, h.phase, h.query, h.joins, h.memory.consultName name,
      h.memory'.consultName name⟩
  | inline rel =>
    have hinline : ∀ m, cat.book.consult (.inline rel) m = .ok _ := fun _ => rfl
    exact .ok ⟨h.isOpen, h.phase, h.query, h.joins, h.memory.consult (hinline _),
      h.memory'.consult (hinline _)⟩

theorem respects_selectEntries (entries : List String) :
    Respects (Alike cat) (selectEntries cat entries) := by
  intro d e h
  obtain ⟨d₀, hds, hdm, hd⟩ := selectEntries_eq cat entries d
  obtain ⟨e₀, hes, hem, he⟩ := selectEntries_eq cat entries e
  rw [hd, he, h.joins]
  have hlike : Alike cat (d₀.withJoins (chosen cat entries d.session.joins))
      (e₀.withJoins (chosen cat entries d.session.joins)) := by
    refine ⟨?_, ?_, ?_, rfl, ?_, ?_⟩
    · change d₀.session.phase != .executed
      rw [hds]
      exact h.isOpen
    · change e₀.session.phase = d₀.session.phase
      rw [hds, hes]
      exact h.phase
    · change e₀.session.query = d₀.session.query
      rw [hds, hes]
      exact h.query
    · exact hdm ▸ h.memory
    · exact hem ▸ h.memory'
  split
  · exact .ok hlike
  · exact respects_issue _ _ _ hlike

theorem respects_join (ref : RelationRef) : Respects (Alike cat) (join cat ref) :=
  respects_joinRules.join (fun _ => True)
    (fun hnext => (respects_route ref).bind fun r => hnext r trivial)
    (fun _ _ _ _ _ => respects_selectEntries _)
    fun _ _ _ _ _ => respects_joinRules.joinHops (fun _ _ => trivial) fun _ _ _ _ _ => trivial

theorem respects_ofExcept {α : Type} {x : Except Failure α} (h : Failing x) :
    Respects (Alike cat) (ofExcept x) := by
  intro d e hd
  cases x with
  | ok a => exact .ok hd
  | error f => exact .error (h f rfl) hd

theorem respects_permits (use : Use) (sends : String → Call → Prop) :
    Permits cat (Respects (Alike cat)) use sends where
  scan := by
    intro limit raw
    refine respects_ofExcept ?_
    unfold Segment.scan
    split
    · exact .ok _
    · split
      · exact .error rfl
      · exact .ok _
  call _ _ := respects_issue _
  join _ _ := respects_join _

end Desk

end Winnow
