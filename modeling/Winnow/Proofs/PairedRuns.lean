import Winnow.Proofs.TextProofRules

namespace Winnow

variable {ε σ α β γ : Type}

/-- Two steps that both succeed from related states, with related answers and states. -/
def Together (T : σ → σ → Prop) (step step' : EStateM ε σ α) (R : α → α → Prop) : Prop :=
  ∀ s t, T s t → ∃ a b s' t', step s = .ok a s' ∧ step' t = .ok b t' ∧ R a b ∧ T s' t'

namespace Together

variable {T : σ → σ → Prop} {R : α → α → Prop} {S : β → β → Prop} {step step' : EStateM ε σ α}

theorem pure {a b : α} (h : R a b) : Together T (pure a : EStateM ε σ α) (pure b) R :=
  fun s t hst => ⟨a, b, s, t, rfl, rfl, h, hst⟩

theorem bind {next next' : α → EStateM ε σ β} (hs : Together T step step' R)
    (hn : ∀ a b, R a b → Together T (next a) (next' b) S) :
    Together T (step >>= next) (step' >>= next') S := by
  intro s t hst
  obtain ⟨a, b, s₁, t₁, ha, hb, hr, hst₁⟩ := hs s t hst
  obtain ⟨c, d, s₂, t₂, hc, hd, hrest, hst₂⟩ := hn a b hr s₁ t₁ hst₁
  exact ⟨c, d, s₂, t₂, (bind_of_ok ha).trans hc, (bind_of_ok hb).trans hd, hrest, hst₂⟩

theorem bind_eq {next next' : α → EStateM ε σ β} (hs : Together T step step' Eq)
    (hn : ∀ a, Together T (next a) (next' a) S) : Together T (step >>= next) (step' >>= next') S :=
  hs.bind fun a _ hab => hab ▸ hn a

theorem skip {next : α → EStateM ε σ β} {other : EStateM ε σ β} {a : α}
    (hs : ∀ s t, T s t → ∃ s', step s = .ok a s' ∧ T s' t) (hn : Together T (next a) other S) :
    Together T (step >>= next) other S := by
  intro s t hst
  obtain ⟨s₁, ha, hst₁⟩ := hs s t hst
  obtain ⟨c, d, s₂, t₂, hc, hd, hrest, hst₂⟩ := hn s₁ t hst₁
  exact ⟨c, d, s₂, t₂, (bind_of_ok ha).trans hc, hd, hrest, hst₂⟩

end Together

namespace Desk

variable {Q : Type} [QueryTarget Q] {cat : Catalog} {T : Desk Q → Desk Q → Prop}

/-- A relation of desks that is told apart by none of the steps that joins are made of. -/
structure Pairs (cat : Catalog) (T : Desk Q → Desk Q → Prop) : Prop where
  /-- Nothing counts but sessions and memories. -/
  aside {d d' e e' : Desk Q} : T d e → d'.session = d.session → d'.memory = d.memory →
    e'.session = e.session → e'.memory = e.memory → T d' e'
  joins {d e : Desk Q} : T d e → d.session.joins = e.session.joins
  withJoins {d e : Desk Q} (j : Joins) : T d e → T (d.withJoins j) (e.withJoins j)
  enter : Together T enter enter Eq
  issue (c : Call) : Together T (issue c) (issue c) Eq
  route (name : RelationName) : Together T (route cat (.named name)) (route cat (.named name)) Eq

namespace Pairs

theorem note (h : Pairs cat T) (n n' : Note) : Together T (note n) (note n') Eq :=
  fun _ _ hde => ⟨(), (), _, _, rfl, rfl, rfl, h.aside hde rfl rfl rfl rfl⟩

theorem readJoins (h : Pairs cat T) {next next' : Joins → Build Q α} {R : α → α → Prop}
    (hn : ∀ j, Together T (next j) (next' j) R) :
    Together T (Desk.joins >>= next) (Desk.joins >>= next') R := by
  intro d e hde
  have hnext := hn d.session.joins d e hde
  rw [show (Desk.joins >>= next') e = next' d.session.joins e from by rw [h.joins hde]; rfl]
  exact hnext

theorem setJoins (h : Pairs cat T) (j : Joins) : Together T (setJoins j) (setJoins j) Eq :=
  fun _ _ hde => ⟨(), (), _, _, rfl, rfl, rfl, h.withJoins j hde⟩

theorem joinRules (h : Pairs cat T) :
    JoinRules (fun step => Together T step step Eq) fun _ => True where
  pure _ := .pure rfl
  bind hs hn := hs.bind_eq hn
  note n := h.note n n
  enter := h.enter
  joins hn := h.readJoins hn
  change _ := h.readJoins fun _ => h.setJoins _
  issue _ := h.issue _

theorem issueAll (h : Pairs cat T) (calls : List Call) :
    Together T (issueAll calls) (issueAll calls) Eq := by
  induction calls with
  | nil => exact .pure rfl
  | cons c calls ih => exact (h.issue c).bind_eq fun _ => ih

theorem selectEntries (h : Pairs cat T) (entries : List String) :
    Together T (selectEntries cat entries) (selectEntries cat entries) Eq := by
  intro d e hde
  obtain ⟨d₀, hds, hdm, hd⟩ := selectEntries_eq cat entries d
  obtain ⟨e₀, hes, hem, he⟩ := selectEntries_eq cat entries e
  have hchosen := h.withJoins (chosen cat entries d.session.joins)
    (h.aside hde hds hdm hes hem)
  rw [hd, he, ← h.joins hde]
  split
  next => exact ⟨(), (), _, _, rfl, rfl, rfl, hchosen⟩
  next => exact h.issue _ _ _ hchosen

theorem join (h : Pairs cat T) (name : RelationName) :
    Together T (join cat (.named name)) (join cat (.named name)) Eq :=
  h.joinRules.join (fun _ => True)
    (fun hnext => (h.route name).bind_eq fun r => hnext r trivial)
    (fun _ _ _ _ _ => h.selectEntries _)
    fun _ _ _ _ _ => h.joinRules.joinHops (fun _ _ => trivial) fun _ _ _ _ _ => trivial

end Pairs

end Desk

end Winnow
