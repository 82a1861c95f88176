import Winnow.Proofs.DeskRuns

namespace Winnow.Desk

variable {Q : Type} {cat : Catalog} {rel : Relation} {table : String}

def guardTables (tables : List String) (j : Joins) : Joins :=
  tables.foldl (fun j table => j.addGuard table) j

def joinedHop (rel : Relation) (first : Bool) (hop : Hop) (j : Joins) : Joins :=
  if hop.toTable ∈ j.joined then j
  else guardTables (guardedBy rel first hop) (j.addTable hop.toTable)

def joinedHops (rel : Relation) : Bool → List Hop → Joins → Joins
  | _, [], j => j
  | first, hop :: hops, j => joinedHops rel false hops (joinedHop rel first hop j)

theorem guardTables_joined (tables : List String) (j : Joins) :
    (guardTables tables j).joined = j.joined := by
  unfold guardTables
  induction tables generalizing j with
  | nil => rfl
  | cons t ts ih => rw [List.foldl_cons, ih]; rfl

theorem guardTables_selected (tables : List String) (j : Joins) :
    (guardTables tables j).selected = j.selected := by
  unfold guardTables
  induction tables generalizing j with
  | nil => rfl
  | cons t ts ih => rw [List.foldl_cons, ih]; rfl

theorem mem_guardTables {tables : List String} {j : Joins} :
    table ∈ (guardTables tables j).guarded ↔ table ∈ j.guarded ∨ table ∈ tables := by
  unfold guardTables
  induction tables generalizing j with
  | nil => simp
  | cons t ts ih =>
    rw [List.foldl_cons, ih]
    simp only [Joins.addGuard, mem_addNew, List.mem_cons]
    rw [or_comm (a := table = t), or_assoc]

theorem mem_joinedHop_joined {first : Bool} {hop : Hop} {j : Joins} :
    table ∈ (joinedHop rel first hop j).joined ↔ table = hop.toTable ∨ table ∈ j.joined := by
  unfold joinedHop
  split
  next h =>
    constructor
    · exact Or.inr
    · rintro (rfl | ht)
      · exact h
      · exact ht
  next => rw [guardTables_joined]; exact mem_addNew

theorem joinedHop_selected (first : Bool) (hop : Hop) (j : Joins) :
    (joinedHop rel first hop j).selected = j.selected := by
  unfold joinedHop
  split
  next => rfl
  next => exact guardTables_selected _ _

theorem joinedHops_selected (first : Bool) (hops : List Hop) (j : Joins) :
    (joinedHops rel first hops j).selected = j.selected := by
  induction hops generalizing first j with
  | nil => rfl
  | cons hop hops ih => rw [joinedHops, ih, joinedHop_selected]

theorem mem_joinedHop_guarded {first : Bool} {hop : Hop} {j : Joins} :
    table ∈ (joinedHop rel first hop j).guarded ↔
      table ∈ j.guarded ∨ hop.toTable ∉ j.joined ∧ table ∈ guardedBy rel first hop := by
  unfold joinedHop
  split
  next h => simp [h]
  next h => simp only [mem_guardTables, h, not_false_eq_true, true_and]; rfl

/-- The joins after a route have the tables under guard that the hops joined on the way bring. -/
theorem mem_joinedHops_guarded {first : Bool} {hops : List Hop} {j : Joins} :
    table ∈ (joinedHops rel first hops j).guarded ↔ table ∈ j.guarded ∨
      ∃ before hop rest, hops = before ++ hop :: rest ∧ hop.toTable ∉ j.joined ∧
        hop.toTable ∉ before.map (·.toTable) ∧
        table ∈ guardedBy rel (first && before.isEmpty) hop := by
  induction hops generalizing first j with
  | nil => simp [joinedHops]
  | cons hop hops ih =>
    rw [joinedHops, ih, mem_joinedHop_guarded, or_assoc]
    refine or_congr_right ⟨?_, ?_⟩
    · rintro (⟨hn, hg⟩ | ⟨before, h, rest, rfl, hn, hb, hg⟩)
      · exact ⟨[], hop, hops, rfl, hn, by simp, by simpa using hg⟩
      · rw [mem_joinedHop_joined, not_or] at hn
        exact ⟨hop :: before, h, rest, rfl, hn.2, by simpa using ⟨hn.1, by simpa using hb⟩,
          by simpa using hg⟩
    · rintro ⟨before, h, rest, he, hn, hb, hg⟩
      cases before with
      | nil =>
        obtain ⟨rfl, rfl⟩ := List.cons.inj he
        exact Or.inl ⟨hn, by simpa using hg⟩
      | cons first' before =>
        obtain ⟨rfl, rfl⟩ := List.cons.inj he
        rw [List.map_cons, List.mem_cons, not_or] at hb
        refine Or.inr ⟨before, h, rest, rfl, ?_, hb.2, by simpa using hg⟩
        rw [mem_joinedHop_joined, not_or]
        exact ⟨hb.1, hn⟩

def ChangesJoins (step : Build Q Unit) (f : Joins → Joins) : Prop :=
  ∀ j, Goes (fun _ _ => True) (fun d => d.session.joins = j) step fun _ d => d.session.joins = f j

namespace ChangesJoins

theorem bind {step next : Build Q Unit} {f g : Joins → Joins} (hs : ChangesJoins step f)
    (hn : ChangesJoins next g) : ChangesJoins (do step; next) fun j => g (f j) :=
  fun j => (hs j).bind fun _ => hn (f j)

theorem skip : ChangesJoins (Q := Q) (pure ()) id := fun _ => Goes.pure fun _ h => h

theorem set (f : Joins → Joins) : ChangesJoins (Q := Q) (do setJoins (f (← joins))) f := by
  intro j d hd
  subst hd
  exact ⟨.single trivial, rfl⟩

theorem read {next : Joins → Build Q Unit} {f : Joins → Joins}
    (h : ∀ j, Goes (fun _ _ => True) (fun d => d.session.joins = j) (next j)
      fun _ d => d.session.joins = f j) : ChangesJoins (do next (← joins)) f := by
  intro j d hd
  have hnext := h j d hd
  subst hd
  exact hnext

theorem note (n : Note) : ChangesJoins (Q := Q) (note n) id := fun _ _ hd => ⟨.single trivial, hd⟩

theorem enter : ChangesJoins (Q := Q) enter id := by
  intro j ⟨⟨phase, query, joins, made⟩, memory, reads, notes⟩ hd
  cases phase with
  | executed => exact .refl
  | fresh => exact ⟨.single trivial, hd⟩
  | building => exact ⟨.single trivial, hd⟩

variable [QueryTarget Q]

theorem issue (c : Call) : ChangesJoins (Q := Q) (issue c) id := by
  intro j d hd
  cases hc : QueryTarget.call c d.session.query with
  | ok u q =>
    rw [issue_of_ok hc]
    exact ⟨.single trivial, hd⟩
  | error e q =>
    rw [issue_of_error hc]
    exact .single trivial

theorem guard (cat : Catalog) (table : String) :
    ChangesJoins (Q := Q) (guard cat table) (·.addGuard table) := by
  refine read fun j => ?_
  by_cases hg : table ∈ j.guarded
  · simp only [hg, not_true_eq_false, ↓reduceIte]
    refine Goes.pure fun d hd => ?_
    rw [hd]
    simp [Joins.addGuard, addNew, hg]
  · simp only [hg, not_false_eq_true, ↓reduceIte]
    exact (enter.bind ((issue _).bind (set (·.addGuard table)))) j

theorem guardAll (cat : Catalog) (tables : List String) :
    ChangesJoins (Q := Q) (guardAll cat tables) (guardTables tables) := by
  induction tables with
  | nil => exact skip
  | cons table tables ih => exact (guard cat table).bind ih

theorem joinHop (cat : Catalog) (rel : Relation) (kind : JoinKind) (first : Bool) (hop : Hop) :
    ChangesJoins (Q := Q) (joinHop cat rel kind first hop) (joinedHop rel first hop) := by
  refine read fun j => ?_
  by_cases hj : hop.toTable ∈ j.joined
  · simp only [hj, not_true_eq_false, ↓reduceIte, joinedHop]
    exact Goes.pure fun d hd => hd
  · simp only [hj, not_false_eq_true, ↓reduceIte, joinedHop]
    have hall := (issue (Q := Q) (hop.call kind)).bind ((set (·.addTable hop.toTable)).bind
      ((note (.joined hop.toTable hop.fromColumn hop.toColumn kind)).bind
        (guardAll cat (guardedBy rel first hop)))) j
    exact hall

theorem joinHops (cat : Catalog) (rel : Relation) (kind : JoinKind) (first : Bool)
    (hops : List Hop) :
    ChangesJoins (Q := Q) (joinHops cat rel kind first hops) (joinedHops rel first hops) := by
  induction hops generalizing first with
  | nil => exact skip
  | cons hop hops ih => exact (joinHop cat rel kind first hop).bind (ih false)

theorem selectEntries (cat : Catalog) (entries : List String) :
    ChangesJoins (Q := Q) (selectEntries cat entries) (chosen cat entries) := by
  intro j d hd
  obtain ⟨d₀, -, -, he⟩ := selectEntries_eq cat entries d
  rw [he, hd]
  by_cases hn : (chosen cat entries j).selected.isEmpty
  · simp only [hn, ↓reduceIte]
    exact ⟨.single trivial, rfl⟩
  · simp only [hn, Bool.false_eq_true, ↓reduceIte]
    have hissue := issue (.select (chosen cat entries j).selected) (chosen cat entries j)
      (d₀.withJoins (chosen cat entries j)) rfl
    split
    next hi =>
      simp only [hi] at hissue
      exact ⟨.single trivial, hissue.2⟩
    next => exact .single trivial

end ChangesJoins

variable [QueryTarget Q]

/-- A relation that was joined is passed over, or its entries are selected and its hops joined
while the session builds its query. -/
theorem applyRelation_cases {ref : RelationRef} {d e : Desk Q} {r : Route}
    (hd : cat.book.Reaches d.memory) (known : cat.book.relationOf? ref = some rel)
    (hok : applyRelation cat ref d = .ok r e) :
    ((cat.book.route ref).hops.isEmpty ||
        isSettled d.session.joins (cat.book.route ref) (rel.entries.map normalizeEntry)) = true ∧
      e.session = d.session ∨
    e.session.phase = .building ∧ e.session.joins = joinedHops rel true (cat.book.route ref).hops
      (chosen cat (rel.entries.map normalizeEntry) d.session.joins) := by
  obtain ⟨found, d₁, hr⟩ : ∃ found d₁, route cat ref d = .ok found d₁ := by
    cases hr : route cat ref d with
    | ok found d₁ => exact ⟨found, d₁, rfl⟩
    | error f d₁ =>
      unfold applyRelation at hok
      rw [bind_of_error hr] at hok
      cases hok
  obtain ⟨rfl, hs, hd₁⟩ := route_of_ok hd hr
  rw [applyRelation_eq hr, known] at hok
  rw [← hs]
  dsimp only at hok
  split at hok
  next hskip =>
    cases hok
    exact Or.inl ⟨hskip, rfl⟩
  next =>
    have hchanges := (ChangesJoins.enter (Q := Q)).bind ((ChangesJoins.selectEntries cat
      (rel.entries.map normalizeEntry)).bind (ChangesJoins.joinHops cat rel
        (cat.book.route ref).joinKind true (cat.book.route ref).hops)) d₁.session.joins
    have hlast := hchanges.bind fun _ => Goes.pure (a := cat.book.route ref)
      (R := fun _ (d : Desk Q) => d.session.joins = joinedHops rel true (cat.book.route ref).hops
        (chosen cat (rel.entries.map normalizeEntry) d₁.session.joins)) fun _ h => h
    simp only [bind_assoc] at hlast
    have hhops : Goes (Move cat anyAsks) (Builds cat []) (joinHops (Q := Q) cat rel rel.joinKind
        ([] : List Hop).isEmpty (cat.book.route ref).hops) _ :=
      goes_joinHops trivial known rfl (by simp)
    rw [← joinKind_of_known known] at hhops
    have hbuilds := goes_enter.bind fun _ => (goes_selectEntries trivial known).bind fun _ =>
      hhops.bind fun _ => Goes.pure (a := cat.book.route ref)
        (R := fun _ (d : Desk Q) => d.session.phase = .building) fun _ h => h.building
    exact Or.inr ⟨(hbuilds.of_ok ⟨hd₁, List.nil_subset _⟩ hok).2, (hlast.of_ok rfl hok).2⟩

/-- The guards after a relation was joined: those before, and those of the hops joined for it. -/
theorem guarded_of_applyRelation {ref : RelationRef} {d e : Desk Q} {r : Route}
    (hd : cat.book.Reaches d.memory) (known : cat.book.relationOf? ref = some rel)
    (hok : applyRelation cat ref d = .ok r e) :
    table ∈ e.session.joins.guarded ↔ table ∈ d.session.joins.guarded ∨
      ∃ before hop rest, (cat.book.route ref).hops = before ++ hop :: rest ∧
        hop.toTable ∉ d.session.joins.joined ∧ hop.toTable ∉ before.map (·.toTable) ∧
        table ∈ guardedBy rel before.isEmpty hop := by
  rcases applyRelation_cases hd known hok with ⟨hskip, hs⟩ | ⟨-, hj⟩
  · rw [hs]
    refine ⟨Or.inl, ?_⟩
    rintro (hg | ⟨before, hop, rest, he, hn, -⟩)
    · exact hg
    · have hm : hop ∈ (cat.book.route ref).hops := by simp [he]
      exact absurd (joined_of_settled hskip hm) hn
  · rw [hj, mem_joinedHops_guarded, chosen_guarded, chosen_joined]
    simp only [Bool.true_and]

def GuardsSent (cat : Catalog) (d : Desk (Logged Q)) : Prop :=
  ∀ table ∈ d.session.joins.guarded, ⟨cat.guardCall table, true⟩ ∈ d.log

theorem GuardsSent.sends {c : Call} {f : Joins → Joins} {d d' : Desk (Logged Q)}
    (h : GuardsSent cat d) (hs : Sends c f d d')
    (hf : ∀ j, ∀ t ∈ (f j).guarded, t ∈ j.guarded ∨ c = cat.guardCall t) : GuardsSent cat d' := by
  obtain ⟨taken, hl, hj⟩ := hs.log
  intro t ht
  rw [hl]
  rw [hj] at ht
  cases taken with
  | false => exact List.mem_append_left _ (h t ht)
  | true =>
    rcases hf _ t ht with ht | rfl
    · exact List.mem_append_left _ (h t ht)
    · exact List.mem_append_right _ (List.mem_singleton.mpr rfl)

theorem GuardsSent.move {asks : Asks} {d d' : Desk (Logged Q)} (hm : Move cat asks d d')
    (h : GuardsSent cat d) : GuardsSent cat d' := by
  cases hm with
  | aside hs =>
    intro t ht
    rw [hs] at ht
    simpa only [Desk.log, hs] using h t ht
  | enter => exact h
  | call _ hs => exact h.sends hs fun _ _ ht => Or.inl ht
  | relation _ _ hj =>
    cases hj with
    | @select j hj _ hs =>
      have hsame : GuardsSent cat (d.withJoins j) := by
        intro t ht
        refine h t ?_
        rw [← chosen_guarded cat _ d.session.joins, ← hj]
        exact ht
      exact hsame.sends hs fun _ _ ht => Or.inl ht
    | join _ hs => exact h.sends hs fun _ _ ht => Or.inl ht
    | guard _ _ _ _ _ hs =>
      refine h.sends hs fun j t ht => ?_
      rcases mem_addNew.mp ht with rfl | ht
      · exact Or.inr rfl
      · exact Or.inl ht

theorem GuardsSent.turn {make : Nat → Q} {d d' : Desk (Logged Q)}
    (ht : Turn cat anyAsks (Logged.of make) d d') (h : GuardsSent cat d) : GuardsSent cat d' := by
  cases ht with
  | move hm => exact h.move hm
  | restart _ _ hj =>
    intro t hg
    simp [hj] at hg

/-- After a relation was joined, a table of which it leaves out trashed rows is under guard exactly
if it was before, or if it is the right table of a hop that was joined now, or the left one of such
a hop that is not the first. A hop is joined now if its right table was not joined and no earlier
hop has it. -/
theorem guarded_iff (make : Nat → Q) (actions : List Action) {m : Memory}
    (hm : cat.book.Reaches m) {ref : RelationRef} (known : cat.book.relationOf? ref = some rel)
    {d e : Desk (Logged Q)} {r : Route}
    (hd : d = run cat (Logged.of make) actions (opened (Logged.of make) m))
    (hok : applyRelation cat ref d = .ok r e) (hs : table ∈ rel.softDelete) :
    (table ∈ e.session.joins.guarded ∧ ⟨cat.guardCall table, true⟩ ∈ e.log) ↔
      table ∈ d.session.joins.guarded ∨
      ∃ before hop rest, (cat.book.route ref).hops = before ++ hop :: rest ∧
        hop.toTable ∉ d.session.joins.joined ∧ hop.toTable ∉ before.map (·.toTable) ∧
        (table = hop.toTable ∨ before ≠ [] ∧ table = hop.fromTable) := by
  have hstart : GuardsSent cat (opened (Logged.of make) m) := by
    simp [GuardsSent, opened, Session.new]
  obtain ⟨hsent, hreach⟩ := run_keeps (I := GuardsSent cat) (fun _ _ ht h => GuardsSent.turn ht h)
    actions hm hstart
  rw [← hd] at hsent hreach
  have hgoes : Goes (Move cat anyAsks) (Has cat []) (applyRelation (Q := Logged Q) cat ref) _ :=
    goes_applyRelation trivial
  have hmoves := hgoes.of_ok ⟨hreach, List.nil_subset _⟩ hok
  have hguards : GuardsSent cat e := kept_of_moves (I := GuardsSent cat)
    (fun _ _ hm h => GuardsSent.move hm h) hmoves.1 hsent
  have hby : ∀ before : List Hop, ∀ hop, table ∈ guardedBy rel before.isEmpty hop ↔
      (table = hop.toTable ∨ before ≠ [] ∧ table = hop.fromTable) := by
    intro before hop
    rw [mem_guardedBy, and_iff_right hs, List.isEmpty_eq_false_iff]
  rw [and_iff_left_of_imp (hguards table), guarded_of_applyRelation hreach known hok]
  simp only [hby]

def avatar : RelationRef := .named (.text "avatar")

theorem guarded_iff_avatar :
    Catalog.ofUsers.book.Reaches {} ∧
      succeeds (applyRelation .ofUsers avatar) (usersAfter []) = true ∧
      ⟨Catalog.ofUsers.guardCall "user_pictures", true⟩ ∈
        (after (applyRelation .ofUsers avatar) (usersAfter [])).log := by
  have hs : succeeds (applyRelation .ofUsers avatar) (usersAfter []) = true := by decide +kernel
  obtain ⟨r, hok⟩ := exists_of_succeeds hs
  have hl : "user_pictures" ∈ ["user_pictures"] := by decide
  have h := guarded_iff (fun _ => ({} : Recorder)) [] .empty rfl rfl hok hl
  refine ⟨.empty, hs, (h.mpr (Or.inr ?_)).2⟩
  exact ⟨[], ⟨"users", "pic_id", "user_pictures", "id"⟩, [], by decide +kernel, by decide +kernel,
    by simp, Or.inl rfl⟩

/-- Where the profile was joined before, the avatar is joined without the guard that it asks for.
-/
theorem avatar_unguarded :
    ∃ rel r e, Catalog.ofUsers.book.relationOf? avatar = some rel ∧
      "user_pictures" ∈ rel.softDelete ∧
      (Catalog.ofUsers.book.route avatar).hops.map (·.toTable) = ["user_pictures"] ∧
      applyRelation .ofUsers avatar (usersAfter [.join (.named (.text "profile"))]) = .ok r e ∧
      "user_pictures" ∉ e.session.joins.guarded ∧ e.log.map (·.call.name) = ["select", "join"] := by
  have hs : succeeds (applyRelation .ofUsers avatar)
      (usersAfter [.join (.named (.text "profile"))]) = true := by decide +kernel
  obtain ⟨r, hok⟩ := exists_of_succeeds hs
  exact ⟨_, r, _, rfl, by decide, by decide +kernel, hok, by decide +kernel, by decide +kernel⟩

end Winnow.Desk
