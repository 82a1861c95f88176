import Winnow.Proofs.GuardedTables

open Relation (ReflTransGen)

namespace Winnow.Desk

variable {Q : Type} {cat : Catalog} {rel : Relation} {hops : List Hop}

/-- Nothing that was joined or selected is lost, and a query that was being built still is. -/
structure Extends (s s' : Session Q) : Prop where
  joined : s.joins.joined ⊆ s'.joins.joined
  selected : s.joins.selected ⊆ s'.joins.selected
  building : s.phase = .building → s'.phase = .building

theorem Extends.refl (s : Session Q) : Extends s s :=
  ⟨List.Subset.refl _, List.Subset.refl _, id⟩

theorem Extends.trans {s s' s'' : Session Q} (h : Extends s s') (h' : Extends s' s'') :
    Extends s s'' :=
  ⟨List.Subset.trans h.joined h'.joined, List.Subset.trans h.selected h'.selected,
    fun hp => h'.building (h.building hp)⟩

/-- All that a relation asks for is done. Nothing is selected only while there is nothing visible.
-/
structure Complete (cat : Catalog) (rel : Relation) (hops : List Hop) (s : Session Q) : Prop where
  joined : ∀ hop ∈ hops, hop.toTable ∈ s.joins.joined
  selected : ∀ entry ∈ rel.entries.map normalizeEntry, entry ∈ s.joins.selected
  bare : s.joins.selected = [] → cat.visible = [] ∧ s.phase = .building

theorem Complete.mono {s s' : Session Q} (h : Complete cat rel hops s) (he : Extends s s') :
    Complete cat rel hops s' := by
  refine ⟨fun hop hm => he.joined (h.joined hop hm),
    fun entry hm => he.selected (h.selected entry hm), fun hn => ?_⟩
  have hbefore : s.joins.selected = [] := List.subset_nil.mp (hn ▸ he.selected)
  obtain ⟨hv, hp⟩ := h.bare hbefore
  exact ⟨hv, he.building hp⟩

theorem nil_of_chosen_nil {entries : List String} {j : Joins}
    (h : (chosen cat entries j).selected = []) : entries = [] ∧ cat.visible = [] := by
  have hsame := chosen_eq_of_isEmpty (List.isEmpty_iff.mpr h)
  have hj : j.selected = [] := hsame ▸ h
  have hmem : ∀ entry, entry ∈ cat.visible ∨ entry ∈ entries →
      entry ∈ (chosen cat entries j).selected := by
    intro entry hm
    simp only [chosen, hj, List.isEmpty_nil, ↓reduceIte, mem_addEntries]
    tauto
  rw [h] at hmem
  exact ⟨List.eq_nil_iff_forall_not_mem.mpr fun e he => List.not_mem_nil (hmem e (Or.inr he)),
    List.eq_nil_iff_forall_not_mem.mpr fun e he => List.not_mem_nil (hmem e (Or.inl he))⟩

section Calls

variable [QueryTarget Q] {asks : Asks} {ref : RelationRef}

theorem Sends.extends {c : Call} {f : Joins → Joins} {d d' : Desk Q} (h : Sends c f d d')
    (hj : ∀ j, j.joined ⊆ (f j).joined) (hs : ∀ j, j.selected ⊆ (f j).selected) :
    Extends d.session d'.session := by
  cases h with
  | taken => exact ⟨hj _, hs _, id⟩
  | refused => exact ⟨List.Subset.refl _, List.Subset.refl _, id⟩

theorem Move.extends {d d' : Desk Q} (h : Move cat asks d d') : Extends d.session d'.session := by
  cases h with
  | aside hs => exact hs ▸ Extends.refl _
  | enter => exact ⟨List.Subset.refl _, List.Subset.refl _, fun _ => rfl⟩
  | call _ hs => exact hs.extends (fun _ => List.Subset.refl _) fun _ => List.Subset.refl _
  | relation _ _ hm =>
    cases hm with
    | select hj _ hs =>
      subst hj
      have hsent := hs.extends (fun _ => List.Subset.refl _) fun _ => List.Subset.refl _
      exact ⟨chosen_joined cat _ d.session.joins ▸ hsent.joined,
        fun _ he => hsent.selected (mem_chosen he), hsent.building⟩
    | join _ hs =>
      exact hs.extends (fun _ _ ht => mem_addNew.mpr (Or.inr ht)) fun _ => List.Subset.refl _
    | guard _ _ _ _ _ hs =>
      exact hs.extends (fun _ => List.Subset.refl _) fun _ => List.Subset.refl _

theorem complete_of_applyRelation {d e : Desk Q} {r : Route} (hd : cat.book.Reaches d.memory)
    (known : cat.book.relationOf? ref = some rel) (hok : applyRelation cat ref d = .ok r e)
    (hn : (cat.book.route ref).hops ≠ []) :
    Complete cat rel (cat.book.route ref).hops e.session := by
  rcases applyRelation_cases hd known hok with ⟨hskip, hs⟩ | ⟨hp, hj⟩
  · rw [hs]
    have hsettled : isSettled d.session.joins (cat.book.route ref)
        (rel.entries.map normalizeEntry) = true := by simpa [hn] using hskip
    simp only [isSettled, Bool.and_eq_true, Bool.not_eq_true', List.all_eq_true,
      decide_eq_true_eq] at hsettled
    obtain ⟨⟨hselected, hjoined⟩, hentries⟩ := hsettled
    exact ⟨hjoined, hentries, fun h => by simp [h] at hselected⟩
  · have hsel : e.session.joins.selected =
        (chosen cat (rel.entries.map normalizeEntry) d.session.joins).selected := by
      rw [hj, joinedHops_selected]
    have hgoes : Goes (Move cat anyAsks) (Has cat []) (applyRelation (Q := Q) cat ref) _ :=
      goes_applyRelation trivial
    obtain ⟨-, -, hhas⟩ := hgoes.of_ok ⟨hd, List.nil_subset _⟩ hok
    refine ⟨fun hop hm => hhas.joined ?_, fun entry hm => ?_, fun h => ?_⟩
    · exact List.mem_append_left _ (List.mem_map_of_mem hm)
    · rw [hsel]
      exact mem_addEntries.mpr (Or.inr hm)
    · exact ⟨(nil_of_chosen_nil (hsel ▸ h)).2, hp⟩

theorem joinHop_of_joined {kind : JoinKind} {d : Desk Q} {hop : Hop} (first : Bool)
    (h : hop.toTable ∈ d.session.joins.joined) : joinHop cat rel kind first hop d = .ok () d := by
  change (if hop.toTable ∉ d.session.joins.joined then _ else _ : Build Q Unit) d = _
  simp only [h, not_true_eq_false, ↓reduceIte]
  rfl

theorem joinHops_of_joined {kind : JoinKind} {d : Desk Q} (first : Bool)
    (h : ∀ hop ∈ hops, hop.toTable ∈ d.session.joins.joined) :
    joinHops cat rel kind first hops d = .ok () d := by
  induction hops generalizing first with
  | nil => rfl
  | cons hop hops ih =>
    unfold joinHops
    rw [bind_of_ok (joinHop_of_joined first (h hop (by simp)))]
    exact ih false fun hop hm => h hop (by simp [hm])

theorem selectEntries_of_bare {d : Desk Q} (hv : cat.visible = [])
    (hs : d.session.joins.selected = []) :
    ∃ d', selectEntries cat [] d = .ok () d' ∧ d'.session = d.session := by
  obtain ⟨d₀, hsame, -, he⟩ := selectEntries_eq cat [] d
  have hj : chosen cat [] d.session.joins = d.session.joins := by simp [chosen, addEntries, hs, hv]
  rw [hj, hs, List.isEmpty_nil, if_pos rfl, ← hsame] at he
  exact ⟨_, he, hsame⟩

omit [QueryTarget Q] in
theorem route_again {d d' d₁ : Desk Q} {r : Route} (hr : route cat ref d = .ok r d')
    (hd : cat.book.Reaches d₁.memory) :
    ∃ d₂, route cat ref d₁ = .ok (cat.book.route ref) d₂ ∧ d₂.session = d₁.session := by
  have hok : ∃ r₂ d₂, route cat ref d₁ = .ok r₂ d₂ := by
    cases ref with
    | named name => exact ⟨_, _, rfl⟩
    | inline rel => exact ⟨_, _, rfl⟩
    | unnameable kind => cases hr
  obtain ⟨r₂, d₂, h⟩ := hok
  obtain ⟨rfl, hs, -⟩ := route_of_ok hd h
  exact ⟨d₂, h, hs⟩

theorem applyRelation_of_complete {d d₁ : Desk Q} (known : cat.book.relationOf? ref = some rel)
    (hr : route cat ref d = .ok (cat.book.route ref) d₁)
    (h : Complete cat rel (cat.book.route ref).hops d₁.session) :
    ∃ e, applyRelation cat ref d = .ok (cat.book.route ref) e ∧ e.session = d₁.session := by
  rw [applyRelation_eq hr, known]
  by_cases hskip : ((cat.book.route ref).hops.isEmpty ||
      isSettled d₁.session.joins (cat.book.route ref) (rel.entries.map normalizeEntry)) = true
  · simp only [hskip, ↓reduceIte]
    exact ⟨d₁, rfl, rfl⟩
  · -- all is joined and selected: what is left is that nothing is selected at all
    have hbare : d₁.session.joins.selected = [] := by
      by_contra hn
      refine hskip (Bool.or_eq_true _ _ ▸ Or.inr ?_)
      simp only [isSettled, Bool.and_eq_true, Bool.not_eq_true', List.all_eq_true,
        decide_eq_true_eq]
      exact ⟨⟨List.isEmpty_eq_false_iff.mpr hn, h.joined⟩, h.selected⟩
    obtain ⟨hv, hb⟩ := h.bare hbare
    have hentries : rel.entries.map normalizeEntry = [] :=
      List.eq_nil_iff_forall_not_mem.mpr fun e he => by simpa [hbare] using h.selected e he
    obtain ⟨d₂, hselect, hsame⟩ := selectEntries_of_bare hv hbare
    rw [← hentries] at hselect
    have hhops : joinHops cat rel (cat.book.route ref).joinKind true (cat.book.route ref).hops d₂ =
        .ok () d₂ := joinHops_of_joined true (hsame ▸ h.joined)
    refine ⟨d₂, ?_, hsame⟩
    simp only [hskip, Bool.false_eq_true, ↓reduceIte]
    rw [bind_of_ok (enter_of_building hb), bind_of_ok hselect, bind_of_ok hhops]
    rfl

/-- Where a relation was joined, it is joined again without a failure and without a change of the
session, as long as the session only grew since. -/
theorem applyRelation_again {d e d₁ : Desk Q} {r : Route} (hd : cat.book.Reaches d.memory)
    (hok : applyRelation cat ref d = .ok r e) (hd₁ : cat.book.Reaches d₁.memory)
    (hgrown : Extends e.session d₁.session) :
    ∃ e₁, applyRelation cat ref d₁ = .ok r e₁ ∧ e₁.session = d₁.session := by
  have hgoes : Goes (Move cat anyAsks) (Has cat []) (applyRelation (Q := Q) cat ref) _ :=
    goes_applyRelation trivial
  obtain ⟨-, rfl, -⟩ := hgoes.of_ok ⟨hd, List.nil_subset _⟩ hok
  have hsucceeds : succeeds (applyRelation cat ref) d = true := by
    unfold succeeds
    rw [hok]
  unfold applyRelation at hsucceeds
  obtain ⟨found, d', hr, -⟩ := of_succeeds_bind hsucceeds
  obtain ⟨d₂, hr₂, hs⟩ := route_again hr hd₁
  rw [← hs]
  cases known : cat.book.relationOf? ref with
  | none => exact ⟨d₂, by rw [applyRelation_eq hr₂, known], rfl⟩
  | some rel =>
    by_cases hn : (cat.book.route ref).hops = []
    · refine ⟨d₂, ?_, rfl⟩
      rw [applyRelation_eq hr₂, known]
      simp only [hn, List.isEmpty_nil, Bool.true_or, ↓reduceIte]
    · exact applyRelation_of_complete known hr₂
        (hs ▸ (complete_of_applyRelation hd known hok hn).mono hgrown)

/-- A relation that was joined is joined again without a call, whatever was filtered, sorted,
searched and joined in between, and the session stays as it is. -/
theorem rejoined_unchanged (make : Nat → Logged Q) (actions : List Action)
    (hr : Action.reset ∉ actions) {d e : Desk (Logged Q)} {r : Route}
    (hd : cat.book.Reaches d.memory) (hok : applyRelation cat ref d = .ok r e) :
    let d₁ := run cat make actions e
    ∃ e₁, applyRelation cat ref d₁ = .ok r e₁ ∧ e₁.log = d₁.log ∧ e₁.session = d₁.session := by
  intro d₁
  have hgoes : Goes (Move cat anyAsks) (Has cat []) (applyRelation (Q := Logged Q) cat ref) _ :=
    goes_applyRelation trivial
  have he := (hgoes.of_ok ⟨hd, List.nil_subset _⟩ hok).2.2.memory
  obtain ⟨hmoves, hd₁⟩ := moves_run make hr he
  have hgrown : Extends e.session d₁.session :=
    kept_of_moves (I := fun d' => Extends e.session d'.session)
      (fun _ _ hm h => h.trans hm.extends) hmoves (Extends.refl _)
  obtain ⟨e₁, hagain, hs⟩ := applyRelation_again hd hok hd₁ hgrown
  refine ⟨e₁, hagain, ?_, hs⟩
  unfold Desk.log
  rw [hs]

end Calls

def bareUsers : Catalog := { Catalog.ofUsers with visible := [] }

def bareJoined : Desk (Logged Recorder) :=
  after (applyRelation bareUsers avatar) (opened (Logged.of fun _ => {}) {})

def bareRoles : Desk (Logged Recorder) :=
  run bareUsers (Logged.of fun _ => {}) [.join (.named (.text "pictureRole"))] bareJoined

theorem rejoined_unchanged_avatar :
    bareUsers.book.Reaches {} ∧ Action.reset ∉ [Action.join (.named (.text "pictureRole"))] ∧
      bareRoles.log.map (·.call.name) = ["join", "where_null", "join"] ∧
      ∃ r e, applyRelation bareUsers avatar bareRoles = .ok r e ∧ e.log = bareRoles.log := by
  have hs : succeeds (applyRelation bareUsers avatar)
      (opened (Logged.of fun _ => ({} : Recorder)) {}) = true := by decide +kernel
  obtain ⟨r, hok⟩ := exists_of_succeeds hs
  have hn : Action.reset ∉ [Action.join (.named (.text "pictureRole"))] := by simp
  obtain ⟨e, hagain, hlog, -⟩ :=
    rejoined_unchanged (Logged.of fun _ => ({} : Recorder)) _ hn .empty hok
  exact ⟨.empty, hn, by decide +kernel, r, e, hagain, hlog⟩

end Winnow.Desk
