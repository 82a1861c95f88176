import Mathlib.Logic.Relation

open Relation (ReflTransGen)

namespace Winnow

variable {ε σ α β : Type}

theorem ok_of_map {x : Except ε α} {f : α → β} {b : β} (h : x.map f = .ok b) :
    ∃ a, x = .ok a ∧ f a = b := by
  cases x with
  | error e => cases h
  | ok a => exact ⟨a, rfl, Except.ok.inj h⟩

theorem error_of_map {x : Except ε α} {f : α → β} {e : ε} (h : x.map f = .error e) :
    x = .error e := by
  cases x with
  | error e' => exact congrArg _ (Except.error.inj h)
  | ok a => cases h

theorem ok_of_bind {x : Except ε α} {f : α → Except ε β} {b : β} (h : (x >>= f) = .ok b) :
    ∃ a, x = .ok a ∧ f a = .ok b := by
  cases x with
  | error e => cases h
  | ok a => exact ⟨a, rfl, h⟩

theorem check_bind_eq_ok {x : Except ε Unit} {f : Unit → Except ε α} {a : α} :
    (x >>= f) = .ok a ↔ x = .ok () ∧ f () = .ok a := by
  cases x with
  | error e => exact ⟨nofun, fun h => nomatch h.1⟩
  | ok u => exact (and_iff_right rfl).symm

theorem ok_of_mapError {ε' : Type} {x : Except ε α} {f : ε → ε'} {a : α}
    (h : x.mapError f = .ok a) : x = .ok a := by
  cases x with
  | error e => cases h
  | ok b => exact congrArg _ (Except.ok.inj h)

theorem exists_of_isOk {x : Except ε α} (h : x.isOk = true) : ∃ a, x = .ok a := by
  cases x with
  | error e => cases h
  | ok a => exact ⟨a, rfl⟩

/-- The state that a step leaves behind. -/
def after (step : EStateM ε σ α) (s : σ) : σ :=
  match step s with
  | .ok _ s' => s'
  | .error _ s' => s'

def succeeds (step : EStateM ε σ α) (s : σ) : Bool :=
  match step s with
  | .ok _ _ => true
  | .error _ _ => false

theorem exists_of_succeeds {step : EStateM ε σ α} {s : σ} (h : succeeds step s = true) :
    ∃ a, step s = .ok a (after step s) := by
  unfold succeeds at h
  unfold after
  split at h
  next a s' he =>
    rw [he]
    exact ⟨a, rfl⟩
  next => cases h

/-- From a state with `P` the step makes only moves of `M`; if it succeeds, `R` holds of its answer
and of the state then. -/
def Goes (M : σ → σ → Prop) (P : σ → Prop) (step : EStateM ε σ α) (R : α → σ → Prop) : Prop :=
  ∀ s, P s → match step s with
    | .ok a s' => ReflTransGen M s s' ∧ R a s'
    | .error _ s' => ReflTransGen M s s'

theorem bind_of_ok {step : EStateM ε σ α} {next : α → EStateM ε σ β} {s s' : σ} {a : α}
    (h : step s = .ok a s') : (step >>= next) s = next a s' := by
  change EStateM.bind step next s = next a s'
  simp only [EStateM.bind, h]

theorem bind_of_error {step : EStateM ε σ α} {next : α → EStateM ε σ β} {s s' : σ} {e : ε}
    (h : step s = .error e s') : (step >>= next) s = .error e s' := by
  change EStateM.bind step next s = .error e s'
  simp only [EStateM.bind, h]

theorem of_succeeds_bind {step : EStateM ε σ α} {next : α → EStateM ε σ β} {s : σ}
    (h : succeeds (step >>= next) s = true) : ∃ a s', step s = .ok a s' ∧
      succeeds (next a) s' = true ∧ after (step >>= next) s = after (next a) s' := by
  unfold succeeds after at *
  cases hr : step s with
  | ok a s' =>
    rw [bind_of_ok hr] at h ⊢
    exact ⟨a, s', rfl, h, rfl⟩
  | error e s' =>
    rw [bind_of_error hr] at h
    cases h

theorem succeeds_bind_of_ok {step : EStateM ε σ α} {next : α → EStateM ε σ β} {s s' : σ} {a : α}
    (h : step s = .ok a s') : succeeds (step >>= next) s = succeeds (next a) s' := by
  unfold succeeds
  rw [bind_of_ok h]

theorem get_bind {next : σ → EStateM ε σ β} (s : σ) :
    ((get : EStateM ε σ σ) >>= next) s = next s s := rfl

theorem of_map_ok {step : EStateM ε σ α} {f : α → β} {s s' : σ} {b : β}
    (h : (do return f (← step) : EStateM ε σ β) s = .ok b s') :
    ∃ a, step s = .ok a s' ∧ f a = b := by
  cases hr : step s with
  | ok a t =>
    rw [bind_of_ok hr] at h
    cases h
    exact ⟨a, rfl, rfl⟩
  | error e t =>
    rw [bind_of_error hr] at h
    cases h

theorem of_map_error {step : EStateM ε σ α} {f : α → β} {s s' : σ} {e : ε}
    (h : (do return f (← step) : EStateM ε σ β) s = .error e s') : step s = .error e s' := by
  cases hr : step s with
  | ok a t =>
    rw [bind_of_ok hr] at h
    cases h
  | error e' t =>
    rw [bind_of_error hr] at h
    cases h
    rfl

theorem after_map (step : EStateM ε σ α) (f : α → β) (s : σ) :
    after (do return f (← step)) s = after step s := by
  unfold after
  cases h : step s with
  | ok a s' => rw [bind_of_ok h]; rfl
  | error e s' => rw [bind_of_error h]

/-- Whether it succeeds or not, the step leaves a state with `I` where it finds one. -/
def Preserves (I : σ → Prop) (step : EStateM ε σ α) : Prop := ∀ s, I s → I (after step s)

namespace Preserves

variable {I : σ → Prop} {step : EStateM ε σ α}

theorem pure (a : α) : Preserves I (pure a : EStateM ε σ α) := fun _ h => h

theorem bind {next : α → EStateM ε σ β} (hs : Preserves I step)
    (hn : ∀ a, Preserves I (next a)) : Preserves I (step >>= next) := by
  intro s h
  have hfirst := hs s h
  unfold after at hfirst ⊢
  cases hr : step s with
  | ok a s' =>
    simp only [hr] at hfirst
    rw [bind_of_ok hr]
    exact hn a s' hfirst
  | error e s' =>
    simp only [hr] at hfirst
    rwa [bind_of_error hr]

theorem get : Preserves I (get : EStateM ε σ σ) := fun _ h => h

theorem of_ok (h : Preserves I step) {s s' : σ} {a : α} (hs : I s) (he : step s = .ok a s') :
    I s' := by
  have hafter := h s hs
  unfold after at hafter
  rwa [he] at hafter

theorem of_error (h : Preserves I step) {s s' : σ} {e : ε} (hs : I s)
    (he : step s = .error e s') : I s' := by
  have hafter := h s hs
  unfold after at hafter
  rwa [he] at hafter

end Preserves

/-- From a state with `P` the step ends with `R` if it succeeds, and with `E` if it fails. -/
def Ends (P : σ → Prop) (step : EStateM ε σ α) (R : α → σ → Prop) (E : σ → Prop) : Prop :=
  ∀ s, P s → match step s with
    | .ok a s' => R a s'
    | .error _ s' => E s'

namespace Ends

variable {P E : σ → Prop} {R : α → σ → Prop} {S : β → σ → Prop} {step : EStateM ε σ α}

theorem pure {a : α} (h : ∀ s, P s → R a s) : Ends P (pure a : EStateM ε σ α) R E :=
  fun s hp => h s hp

theorem bind {next : α → EStateM ε σ β} (hs : Ends P step R E)
    (hn : ∀ a, Ends (R a) (next a) S E) : Ends P (step >>= next) S E := by
  intro s hp
  have hfirst := hs s hp
  cases hr : step s with
  | ok a s₁ =>
    simp only [hr] at hfirst
    rw [bind_of_ok hr]
    exact hn a s₁ hfirst
  | error e s₁ =>
    simp only [hr] at hfirst
    rwa [bind_of_error hr]

theorem ite {p : Prop} [Decidable p] {other : EStateM ε σ α} (hs : Ends P step R E)
    (ho : Ends P other R E) : Ends P (if p then step else other) R E := by
  split
  · exact hs
  · exact ho

theorem weaken {R' : α → σ → Prop} (h : Ends P step R E) (hr : ∀ a s, R a s → R' a s) :
    Ends P step R' E := by
  intro s hp
  have hstep := h s hp
  cases ht : step s with
  | ok a s' =>
    simp only [ht] at hstep
    exact hr a s' hstep
  | error e s' => simpa only [ht] using hstep

theorem assume {p : Prop} (h : p → Ends P step R E) : Ends (fun s => P s ∧ p) step R E :=
  fun s hp => h hp.2 s hp.1

theorem of_succeeds (h : Ends P step R E) {s : σ} (hp : P s) (hs : succeeds step s = true) :
    ∃ a s', step s = .ok a s' ∧ R a s' := by
  obtain ⟨a, hok⟩ := exists_of_succeeds hs
  have hstep := h s hp
  rw [hok] at hstep
  exact ⟨a, _, hok, hstep⟩

theorem ok_of_false (h : Ends P step R fun _ => False) {s : σ} (hp : P s) :
    ∃ a s', step s = .ok a s' ∧ R a s' := by
  have hstep := h s hp
  cases hr : step s with
  | ok a s' => exact ⟨a, s', rfl, by simpa only [hr] using hstep⟩
  | error e s' =>
    simp only [hr] at hstep

theorem after_of_false {R : σ → Prop} (h : Ends P step (fun _ => R) fun _ => False) {s : σ}
    (hp : P s) : R (after step s) := by
  obtain ⟨a, s', hok, hr⟩ := h.ok_of_false hp
  unfold after
  rw [hok]
  exact hr

end Ends

namespace Goes

variable {M : σ → σ → Prop} {P P' : σ → Prop} {R R' : α → σ → Prop} {S : β → σ → Prop}
variable {step : EStateM ε σ α}

theorem pure {a : α} (h : ∀ s, P s → R a s) : Goes M P (pure a : EStateM ε σ α) R :=
  fun s hp => ⟨.refl, h s hp⟩

theorem bind {next : α → EStateM ε σ β} (hs : Goes M P step R)
    (hn : ∀ a, Goes M (R a) (next a) S) : Goes M P (step >>= next) S := by
  intro s hp
  have hfirst := hs s hp
  cases hr : step s with
  | error e s₁ =>
    rw [bind_of_error hr]
    simpa only [hr] using hfirst
  | ok a s₁ =>
    simp only [hr] at hfirst
    rw [bind_of_ok hr]
    have hsecond := hn a s₁ hfirst.2
    cases ht : next a s₁ with
    | error e s₂ =>
      simp only [ht] at hsecond
      exact hfirst.1.trans hsecond
    | ok b s₂ =>
      simp only [ht] at hsecond
      exact ⟨hfirst.1.trans hsecond.1, hsecond.2⟩

theorem bindValue {next : α → EStateM ε σ β} {v : α} {P' : σ → Prop}
    (hs : Goes M P step fun a s => a = v ∧ P' s) (hn : Goes M P' (next v) S) :
    Goes M P (step >>= next) S := by
  refine hs.bind fun a s ⟨ha, hp⟩ => ?_
  subst ha
  exact hn s hp

theorem weaken (hs : Goes M P step R) (hp : ∀ s, P' s → P s) (hr : ∀ a s, R a s → R' a s) :
    Goes M P' step R' := by
  intro s h
  have hfirst := hs s (hp s h)
  cases ht : step s with
  | error e s' => simpa only [ht] using hfirst
  | ok a s' =>
    simp only [ht] at hfirst
    exact ⟨hfirst.1, hr a s' hfirst.2⟩

theorem after_moves (hs : Goes M P step R) {s : σ} (hp : P s) :
    ReflTransGen M s (after step s) := by
  have hfirst := hs s hp
  unfold after
  cases ht : step s with
  | error e s' => simpa only [ht] using hfirst
  | ok a s' =>
    simp only [ht] at hfirst
    exact hfirst.1

theorem of_ok (hs : Goes M P step R) {s s' : σ} {a : α} (hp : P s) (ht : step s = .ok a s') :
    ReflTransGen M s s' ∧ R a s' := by
  have hfirst := hs s hp
  simpa only [ht] using hfirst

end Goes

theorem kept_of_moves {M : σ → σ → Prop} {I : σ → Prop} (keeps : ∀ s s', M s s' → I s → I s')
    {s s' : σ} (h : ReflTransGen M s s') (hi : I s) : I s' := by
  induction h with
  | refl => exact hi
  | tail _ hm ih => exact keeps _ _ hm ih

end Winnow
