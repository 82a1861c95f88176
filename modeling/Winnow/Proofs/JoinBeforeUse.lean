import Winnow.Proofs.GuardedTables
import Winnow.Proofs.CallReferences
import Winnow.Proofs.TextProofRules

open Relation (ReflTransGen)

namespace Winnow

/-- Whether a call is of the kinds that join a relation: selections, joins and guards. -/
def Call.isOfJoining : Call → Bool
  | select _ | join .. | filterNull _ => true
  | _ => false

namespace Desk

variable {Q : Type} {cat : Catalog} {tables : List String}

def Balked (d : Desk (Logged Q)) : Prop :=
  ∃ s ∈ d.log, s.call.isOfJoining = true ∧ s.taken = false

theorem Balked.mono {d d' : Desk (Logged Q)} (h : Balked d) (hl : d.log <+: d'.log) :
    Balked d' := by
  obtain ⟨s, hs, hb⟩ := h
  exact ⟨s, hl.subset hs, hb⟩

/-- What is selected is on the base table, on tables that are joined or on some others. -/
def Settled (cat : Catalog) (tables : List String) (d : Desk (Logged Q)) : Prop :=
  ∀ entry ∈ d.session.joins.selected, ∀ column ∈ Select.entryColumn? entry,
    cat.Reads (tables ++ d.session.joins.joined) column

theorem Settled.mono {d d' : Desk (Logged Q)} (h : Settled cat tables d)
    (hs : d'.session.joins.selected = d.session.joins.selected)
    (hj : d.session.joins.joined ⊆ d'.session.joins.joined) : Settled cat tables d' := by
  intro entry he column hc
  rw [hs] at he
  exact (h entry he column hc).mono (List.append_subset.mpr
    ⟨List.subset_append_left _ _, List.subset_append_of_subset_right _ hj⟩)

/-- A step while the query is built, which fails only when the query refuses it a call. -/
def Blames {α : Type} (step : Build (Logged Q) α) : Prop :=
  Ends (fun d => d.session.phase = .building) step (fun _ d => d.session.phase = .building) Balked

variable [QueryTarget Q]

theorem blames_issue {c : Call} (hc : c.isOfJoining = true) : Blames (Q := Q) (issue c) := by
  intro d hd
  cases hq : QueryTarget.call c d.session.query with
  | ok u q =>
    rw [issue_of_ok hq]
    exact hd
  | error e q =>
    rw [issue_of_error hq]
    have hl : (d.withQuery q).log = d.log ++ [⟨c, false⟩] := Logged.log_of_error hq
    exact ⟨⟨c, false⟩, by simp [hl], hc, rfl⟩

theorem blames_joinRules : JoinRules (Q := Logged Q) Blames fun c => c.isOfJoining = true where
  pure _ := Ends.pure fun _ h => h
  bind := Ends.bind
  note _ _ h := h
  enter := by
    intro d hd
    rw [enter_of_building hd]
    exact hd
  joins h d hd := h d.session.joins d hd
  change _ _ h := h
  issue := blames_issue

theorem blames_selectEntries (cat : Catalog) (entries : List String) :
    Blames (Q := Q) (selectEntries cat entries) := by
  intro d hd
  obtain ⟨d₀, hs, -, he⟩ := selectEntries_eq cat entries d
  rw [he]
  have hphase : (d₀.withJoins (chosen cat entries d.session.joins)).session.phase = .building := by
    change d₀.session.phase = .building
    rw [hs]
    exact hd
  by_cases hn : (chosen cat entries d.session.joins).selected.isEmpty
  · simp only [hn, ↓reduceIte]
    exact hphase
  · simp only [hn, Bool.false_eq_true, ↓reduceIte]
    exact blames_issue rfl _ hphase

theorem ends_applyRelation (ref : RelationRef) (d : Desk (Logged Q)) :
    Ends (fun e => e.session = d.session) (applyRelation cat ref) (fun _ _ => True)
      (fun e => e.session = d.session ∨ Balked e) := by
  have hroute : Ends (fun e => e.session = d.session) (route (Q := Logged Q) cat ref)
      (fun _ e => e.session = d.session) (fun e => e.session = d.session ∨ Balked e) := by
    intro e he
    unfold route
    split
    next a s hr =>
      split at hr
      next => cases hr
      next =>
        cases hr
        exact he
    next f s hr =>
      split at hr
      next =>
        cases hr
        exact Or.inl he
      next => cases hr
  refine hroute.bind fun r => ?_
  cases cat.book.relationOf? ref with
  | none => exact Ends.pure fun _ _ => trivial
  | some rel =>
    intro e he
    refine Ends.ite (P := fun e => e.session = d.session) (Ends.pure fun _ _ => trivial) ?_ e he
    -- only opening the session can fail before something is done, and only the query after it
    have henter : Ends (fun e => e.session = d.session) (enter (Q := Logged Q))
        (fun _ e => e.session.phase = .building) (fun e => e.session = d.session ∨ Balked e) := by
      intro e he
      unfold enter onSession Session.enter
      by_cases ho : e.session.isOpen
      · simp only [ho, ↓reduceIte]
      · simp only [ho, Bool.false_eq_true, ↓reduceIte]
        exact Or.inl he
    have hhops : Blames (Q := Q) (joinHops cat rel r.joinKind true r.hops) :=
      blames_joinRules.joinHops (fun _ _ => rfl) fun _ _ _ _ _ => rfl
    have hrest := (blames_selectEntries (Q := Q) cat (rel.entries.map normalizeEntry)).bind fun _ =>
      hhops.bind fun _ => Ends.pure (a := r) (R := fun _ _ => True) fun _ _ => trivial
    exact henter.bind fun _ e he => by
      have h := hrest e he
      split
      next => trivial
      next hr =>
        rw [hr] at h
        exact Or.inr h

theorem Settled.sends {c : Call} {f : Joins → Joins} {d d' : Desk (Logged Q)}
    (h : Settled cat tables d) (hs : Sends c f d d')
    (hf : ∀ j, (f j).selected = j.selected ∧ j.joined ⊆ (f j).joined) :
    Settled cat tables d' := by
  obtain ⟨taken, -, hj⟩ := hs.log
  cases taken with
  | true => exact h.mono (by rw [hj]; exact (hf _).1) (by rw [hj]; exact (hf _).2)
  | false => exact h.mono (by rw [hj]; rfl) (by rw [hj]; exact List.Subset.refl _)

theorem log_prefix_of_move {asks : Asks} (hc : ∀ j c, asks.call j c → c.joined? = none)
    {d d' : Desk (Logged Q)} (hm : Move cat asks d d') : d.log <+: d'.log := by
  rcases hm.joined_or_not hc with ⟨sent, hl, -⟩ | ⟨_, _, hop, taken, -, -, -, hl, -⟩
  · exact ⟨sent, hl.symm⟩
  · exact ⟨_, hl.symm⟩

/-- Joining a relation selects nothing that is not on the base table, on tables that are joined, or
on tables of that relation. -/
theorem settled_move (ws : cat.WellScoped) {ref : RelationRef}
    (closed : ∀ rel, cat.book.relationOf? ref = some rel → cat.Closed rel)
    {d d' : Desk (Logged Q)} (hm : Move cat ⟨(· = ref), fun _ _ => False⟩ d d')
    (h : Settled cat ((cat.book.route ref).hops.map (·.toTable)) d) :
    Settled cat ((cat.book.route ref).hops.map (·.toTable)) d' := by
  cases hm with
  | aside hs => exact h.mono (by rw [hs]) (by rw [hs]; exact List.Subset.refl _)
  | enter => exact h
  | call ha => exact False.elim ha
  | @relation _ other rel ha hk hr =>
    obtain rfl : other = ref := ha
    cases hr with
    | @select j hj _ hs =>
      -- the tables of the relation are not joined yet, which is why they are allowed for
      have hchosen : Settled cat ((cat.book.route other).hops.map (·.toTable)) (d.withJoins j) := by
        intro entry he column hc
        change entry ∈ j.selected at he
        rw [show (d.withJoins j).session.joins = j from rfl, hj, chosen_joined]
        rw [hj] at he
        rcases mem_of_mem_chosen he with he | he | he
        · exact h entry he column hc
        · exact Catalog.reads_base (ws.visible entry he column hc)
        · obtain ⟨source, hsource, rfl⟩ := List.mem_map.mp he
          rw [Select.entryColumn?_normalizeEntry] at hc
          have hread := (closed rel hk).entries source hsource column hc
          rw [Catalog.reached, ← Catalog.hops_of_relationOf? hk] at hread
          exact hread.mono (List.subset_append_left _ _)
      exact hchosen.sends hs fun _ => ⟨rfl, List.Subset.refl _⟩
    | join _ hs =>
      exact h.sends hs fun j => ⟨rfl, fun t ht => mem_addNew.mpr (Or.inr ht)⟩
    | guard _ _ _ _ _ hs => exact h.sends hs fun j => ⟨rfl, List.Subset.refl _⟩

/-- Whatever is selected is on tables that are joined, or the query refused a call. -/
structure Steady (cat : Catalog) (d : Desk (Logged Q)) : Prop where
  memory : cat.book.Reaches d.memory
  settled : Balked d ∨ Settled cat [] d

theorem steady_join (ws : cat.WellScoped) {ref : RelationRef}
    (closed : ∀ rel, cat.book.relationOf? ref = some rel → cat.Closed rel) :
    Preserves (Steady (Q := Q) cat) (join cat ref) := by
  intro d hd
  unfold join
  rw [after_discard]
  let asks : Asks := ⟨(· = ref), fun _ _ => False⟩
  have hgoes : Goes (Move cat asks) (Has cat []) (applyRelation (Q := Logged Q) cat ref) _ :=
    goes_applyRelation rfl
  have hhas : Has cat [] d := ⟨hd.memory, List.nil_subset _⟩
  have hmoves := hgoes.after_moves hhas
  have hkept : cat.book.Reaches (after (applyRelation cat ref) d).memory :=
    kept_of_moves (I := fun d => cat.book.Reaches d.memory) (fun _ _ h hm => h.reaches hm) hmoves
      hd.memory
  refine ⟨hkept, ?_⟩
  rcases hd.settled with hb | hs
  · refine Or.inl (kept_of_moves (I := Balked) (fun _ _ h hb => ?_) hmoves hb)
    exact hb.mono (log_prefix_of_move (fun _ _ hc => False.elim hc) h)
  · have hmore : Settled cat ((cat.book.route ref).hops.map (·.toTable)) d :=
      fun entry he column hc => (hs entry he column hc).mono (by simp)
    have happly : Ends _ (applyRelation cat ref) _ _ := ends_applyRelation ref d
    have hend := happly d rfl
    have hlast := kept_of_moves (fun _ _ h => settled_move ws closed h) hmoves hmore
    unfold after at hlast ⊢
    cases hr : applyRelation cat ref d with
    | ok r e =>
      -- now that the relation is joined, its tables need not be allowed for any more
      obtain ⟨-, -, hjoined⟩ := hgoes.of_ok hhas hr
      simp only [hr] at hlast ⊢
      refine Or.inr fun entry he column hc => (hlast entry he column hc).mono ?_
      exact List.append_subset.mpr ⟨by simpa using hjoined.joined, by simp⟩
    | error f e =>
      simp only [hr] at hend ⊢
      rcases hend with he | hb
      · exact Or.inr (hs.mono (by rw [he]) (by rw [he]; exact List.Subset.refl _))
      · exact Or.inl hb

omit [QueryTarget Q] in
theorem Steady.of_session {d d' : Desk (Logged Q)} (h : Steady cat d)
    (hm : cat.book.Reaches d'.memory) (hl : d.log <+: d'.log)
    (hj : d'.session.joins = d.session.joins) : Steady cat d' :=
  ⟨hm, h.settled.imp (·.mono hl) (·.mono (by rw [hj]) (by rw [hj]; exact List.Subset.refl _))⟩

omit [QueryTarget Q] in
theorem steady_enter : Preserves (Steady (Q := Q) cat) enter := by
  intro ⟨⟨phase, query, joins, made⟩, memory, reads, notes⟩ h
  cases phase with
  | fresh => exact h.of_session h.memory (List.prefix_refl _) rfl
  | building => exact h
  | executed => exact h

theorem steady_issue (c : Call) : Preserves (Steady (Q := Q) cat) (issue c) := by
  intro d h
  unfold after
  cases hq : QueryTarget.call c d.session.query with
  | ok u q =>
    rw [issue_of_ok hq]
    exact h.of_session h.memory ⟨_, (Logged.log_of_ok hq).symm⟩ rfl
  | error e q =>
    rw [issue_of_error hq]
    exact h.of_session h.memory ⟨_, (Logged.log_of_error hq).symm⟩ rfl

omit [QueryTarget Q] in
theorem steady_rules : Rules cat (Preserves (Steady (Q := Q) cat)) where
  pure := Preserves.pure
  bind := Preserves.bind
  note n := fun d h => h.of_session h.memory (List.prefix_refl _) rfl
  enter := steady_enter
  column := by
    intro α use given next hn d h
    obtain ⟨m, notes, hm, he⟩ := column_eq h.memory use given
    unfold after
    rw [bind_of_ok he]
    exact hn _ (h.of_session hm (List.prefix_refl _) rfl)

theorem steady_permits (ws : cat.WellScoped) (use : Use) (sends : String → Call → Prop) :
    Permits cat (Preserves (Steady (Q := Q) cat)) use sends where
  scan limit raw := by
    intro d h
    unfold ofExcept
    split
    · exact h
    · exact h
  call _ _ := steady_issue _
  join _ _ := steady_join ws (closed_of_named ws _)

/-- Whatever an action does, whether it fails or not, leaves what is selected on joined tables, or
the query has refused a call that was to join a relation. -/
theorem steady_perform (ws : cat.WellScoped) {make : Nat → Q} {action : Action}
    (inline : ∀ rel, .inline rel ∈ action.refs → cat.Closed rel) :
    Preserves (Steady cat) (action.perform cat (Logged.of make)) := by
  have hjoin : ∀ ref ∈ action.refs, Preserves (Steady (Q := Q) cat) (join cat ref) :=
    fun ref hr => steady_join ws ((closed_of_refs ws inline) ref hr)
  have hrules : Rules cat (Preserves (Steady (Q := Q) cat)) := steady_rules
  cases action with
  | filter raw limit =>
    exact (hrules.filter (steady_permits ws _ _) raw limit).bind fun _ => .pure ()
  | sort raw limit => exact (hrules.sort (steady_permits ws _ _) raw limit).bind fun _ => .pure ()
  | search term => exact hrules.search fun _ c _ => steady_issue c
  | join ref => exact hjoin ref (by simp [Action.refs])
  | joins refs => exact hrules.joinAll hjoin
  | reset =>
    intro ⟨⟨phase, query, joins, made⟩, memory, reads, notes⟩ h
    have hfresh : Settled (Q := Q) cat []
        ⟨⟨.fresh, Logged.of make made, {}, made + 1⟩, memory, reads, notes ++ [.discarded]⟩ := by
      intro entry he
      cases he
    cases phase with
    | fresh => exact ⟨h.memory, Or.inr hfresh⟩
    | building => exact ⟨h.memory, Or.inr hfresh⟩
    | executed => exact h

theorem steady_run (ws : cat.WellScoped) {make : Nat → Q} {actions : List Action}
    (inline : ∀ action ∈ actions, ∀ rel, .inline rel ∈ action.refs → cat.Closed rel)
    {d : Desk (Logged Q)} (h : Steady cat d) :
    Steady cat (run cat (Logged.of make) actions d) := by
  unfold run
  induction actions generalizing d with
  | nil => exact h
  | cons action actions ih =>
    obtain ⟨hfirst, hrest⟩ := List.forall_mem_cons.mp inline
    exact ih hrest (steady_perform ws hfirst _ h)

def KeepsSelected (d : Desk (Logged Q)) : Prop :=
  ∀ s ∈ d.log, ∀ entries ∈ s.call.selected?, entries ⊆ d.session.joins.selected

theorem KeepsSelected.sends {c : Call} {f : Joins → Joins} {d d' : Desk (Logged Q)}
    (h : KeepsSelected d) (hs : Sends c f d d') (hf : ∀ j, (f j).selected = j.selected)
    (hc : ∀ entries, c.selected? = some entries → entries ⊆ d.session.joins.selected) :
    KeepsSelected d' := by
  obtain ⟨taken, hl, hj⟩ := hs.log
  have hsame : d'.session.joins.selected = d.session.joins.selected := by
    rw [hj]
    cases taken with
    | true => exact hf _
    | false => rfl
  intro s hm entries he
  rw [hsame]
  rw [hl] at hm
  rcases List.mem_append.mp hm with hm | hm
  · exact h s hm entries he
  · cases List.mem_singleton.mp hm
    exact hc entries he

theorem KeepsSelected.move {d d' : Desk (Logged Q)} (hm : Move cat (closedAsks cat) d d')
    (h : KeepsSelected d) : KeepsSelected d' := by
  have hnone : ∀ {c : Call} {xs : List String}, c.selected? = none →
      ∀ entries, c.selected? = some entries → entries ⊆ xs := by
    intro c xs hn entries he
    cases hn.symm.trans he
  cases hm with
  | aside hs => simpa only [KeepsSelected, Desk.log, hs] using h
  | enter => exact h
  | call ha hs => exact h.sends hs (fun _ => rfl) (hnone ha.2.1)
  | relation _ _ hr =>
    cases hr with
    | @select j hj _ hs =>
      have hchosen : KeepsSelected (d.withJoins j) := by
        intro s hm entries he entry hentry
        change entry ∈ j.selected
        rw [hj]
        exact mem_chosen (h s hm entries he hentry)
      refine hchosen.sends hs (fun _ => rfl) fun entries he => ?_
      cases he
      exact List.Subset.refl _
    | join _ hs => exact h.sends hs (fun _ => rfl) (hnone rfl)
    | guard _ _ _ _ _ hs => exact h.sends hs (fun _ => rfl) (hnone rfl)

/-- What a run keeps while it refers back to joined tables. -/
structure Refers (cat : Catalog) (d : Desk (Logged Q)) : Prop where
  booked : Booked cat anyAsks.relation [] d
  back : cat.RefersBack d.log
  selected : KeepsSelected d

theorem Refers.turn {make : Nat → Q} {d d' : Desk (Logged Q)}
    (ht : Turn cat (closedAsks cat) (Logged.of make) d d') (h : Refers cat d) : Refers cat d' := by
  cases ht with
  | move hm =>
    have hany : (closedAsks cat).Within anyAsks := ⟨fun _ _ => trivial, fun _ _ hc => hc.1⟩
    have hturn : Turn cat anyAsks (Logged.of make) d d' := .move (hm.mono hany)
    exact ⟨h.booked.turn hturn, refersBack_move hm h.booked.joined h.back,
      h.selected.move hm⟩
  | restart hmem hq hj =>
    have hl : d'.log = [] := by
      unfold Desk.log
      rw [hq]
      rfl
    have hturn : Turn cat anyAsks (Logged.of make) d d' := .restart hmem hq hj
    refine ⟨h.booked.turn hturn, ?_, ?_⟩
    · intro early s late he
      simp [hl] at he
    · intro s hs
      simp [hl] at hs

theorem refers_run (ws : cat.WellScoped) (make : Nat → Q) {actions : List Action}
    (inline : ∀ action ∈ actions, ∀ rel, .inline rel ∈ action.refs → cat.Closed rel) {m : Memory}
    (hm : cat.book.Reaches m) :
    Refers cat (run cat (Logged.of make) actions (opened (Logged.of make) m)) := by
  have hstart : Refers (Q := Q) cat (opened (Logged.of make) m) := by
    refine ⟨(booked_run make [] hm).1, ?_, ?_⟩
    · intro early s late he
      simp [opened, Session.new, Logged.of, Desk.log] at he
    · intro s hs
      simp [opened, Session.new, Logged.of, Desk.log] at hs
  exact (run_keeps_of actions (fun a ha => asks_within_closed ws (inline a ha))
    (fun _ _ ht h => h.turn ht) hm hstart).1

/-- In a catalog that is well scoped, whatever the run and whatever its queries refuse, a call that
tests, orders, guards or joins refers to the base table and to tables that were joined before, and
a join to its own table as well. As long as the query refuses no selection, join or guard, the
tables of what was selected are joined at the end of every action. -/
theorem joined_before_use (ws : cat.WellScoped) (make : Nat → Q) (actions : List Action)
    (inline : ∀ action ∈ actions, ∀ rel, .inline rel ∈ action.refs → cat.Closed rel) {m : Memory}
    (hm : cat.book.Reaches m) :
    let d := run cat (Logged.of make) actions (opened (Logged.of make) m)
    cat.RefersBack d.log ∧
    ((∀ s ∈ d.log, s.call.isOfJoining = true → s.taken = true) →
      ∀ s ∈ d.log, ∀ entries ∈ s.call.selected?, ∀ entry ∈ entries,
        ∀ column ∈ Select.entryColumn? entry, cat.Reads (joinedTables d.log) column) := by
  intro d
  have hsteady : Steady cat d :=
    steady_run ws inline ⟨hm, Or.inr fun entry he => by cases he⟩
  have hrefers : Refers cat d := refers_run ws make inline hm
  refine ⟨hrefers.back, fun htaken s hs entries he entry hentry column hc => ?_⟩
  rcases hsteady.settled with ⟨t, ht, hjoin, hrefused⟩ | hsettled
  · rw [htaken t ht hjoin] at hrefused
    cases hrefused
  · rw [← hrefers.booked.joined]
    exact hsettled entry (hrefers.selected s hs entries he hentry) column hc

theorem wellScoped_ofUsers : Catalog.ofUsers.WellScoped where
  listed := by
    intro use
    cases use <;> decide +kernel
  searchable := by decide +kernel
  visible := by decide +kernel
  relations := by
    have hall : ∀ p ∈ Catalog.ofUsers.book.relations,
        Catalog.Chained ["users"] (Catalog.ofUsers.hops p.2) = true ∧
        (∀ entry ∈ p.2.entries, ∀ column ∈ Select.entryColumn? entry,
          Catalog.ofUsers.Reads (Catalog.ofUsers.reached p.2) column) ∧
        ∀ field ∈ p.2.filterable ++ p.2.sortable,
          ∀ source ∈ (AliasMap.ofEntries p.2.entries).lookup field,
            Catalog.ofUsers.Reads (Catalog.ofUsers.reached p.2) source := by decide +kernel
    intro name rel h
    obtain ⟨s, hs⟩ := RelationBook.mem_of_relation? h
    obtain ⟨hhops, hentries, haliases⟩ := hall _ hs
    refine ⟨hhops, hentries, fun use field hf => haliases field ?_⟩
    cases use with
    | filter => exact List.mem_append_left _ hf
    | sort => exact List.mem_append_right _ hf

def picturesThenRoles : List Action :=
  [.filter photoText none, .join (.named (.text "pictureRole")), .sort (some "id:desc") none]

theorem joined_before_use_pictures :
    Catalog.ofUsers.WellScoped ∧ Catalog.ofUsers.book.Reaches {} ∧
      Catalog.ofUsers.RefersBack (usersAfter picturesThenRoles).log ∧
      (usersAfter picturesThenRoles).log.map (·.call.name) =
        ["select", "join", "where", "select", "join", "where_null", "order_by"] ∧
      ∀ s ∈ (usersAfter picturesThenRoles).log, ∀ entries ∈ s.call.selected?, ∀ entry ∈ entries,
        ∀ column ∈ Select.entryColumn? entry,
          Catalog.ofUsers.Reads (joinedTables (usersAfter picturesThenRoles).log) column := by
  have hm : Catalog.ofUsers.book.Reaches {} := .empty
  have hinline : ∀ action ∈ picturesThenRoles, ∀ rel, .inline rel ∈ action.refs →
      Catalog.ofUsers.Closed rel := by
    intro action ha rel hr
    simp only [picturesThenRoles, List.mem_cons, List.not_mem_nil, or_false] at ha
    rcases ha with rfl | rfl | rfl
    · cases hr
    · cases List.mem_singleton.mp hr
    · cases hr
  obtain ⟨hback, hselected⟩ := joined_before_use wellScoped_ofUsers (fun _ => ({} : Recorder))
    picturesThenRoles hinline hm
  have htaken : ∀ s ∈ (usersAfter picturesThenRoles).log,
      s.call.isOfJoining = true → s.taken = true := by decide +kernel
  exact ⟨wellScoped_ofUsers, hm, hback, by decide +kernel, hselected htaken⟩

def profileRefused : Desk (Logged Recorder) :=
  run .ofUsers (Logged.of fun _ => { refused := ["join"] }) [.join (.named (.text "profile"))]
    (opened (Logged.of fun _ => { refused := ["join"] }) {})

def roleShown : Catalog := { Catalog.ofUsers with visible := ["roles.title"] }

def profileWithRole : Desk (Logged Recorder) :=
  run roleShown (Logged.of fun _ => {}) [.join (.named (.text "profile"))]
    (opened (Logged.of fun _ => {}) {})

/-- What is selected need not be joined in the end where the query refuses a join, or where a
visible column is not on the base table. -/
theorem selected_unjoined :
    Catalog.ofUsers.WellScoped ∧
    (∃ s ∈ profileRefused.log, ∃ entries ∈ s.call.selected?, ∃ entry ∈ entries,
      ∃ column ∈ Select.entryColumn? entry,
        ¬ Catalog.ofUsers.Reads (joinedTables profileRefused.log) column) ∧
    (∀ name rel, roleShown.book.relation? name = some rel → roleShown.Closed rel) ∧
    (∀ s ∈ profileWithRole.log, s.taken = true) ∧
    ∃ s ∈ profileWithRole.log, ∃ entries ∈ s.call.selected?, ∃ entry ∈ entries,
      ∃ column ∈ Select.entryColumn? entry,
        ¬ roleShown.Reads (joinedTables profileWithRole.log) column := by
  refine ⟨wellScoped_ofUsers, by decide +kernel, fun name rel h => ?_, by decide +kernel,
    by decide +kernel⟩
  obtain ⟨hhops, hentries, haliases⟩ := wellScoped_ofUsers.relations name rel h
  exact ⟨hhops, hentries, haliases⟩

end Desk

end Winnow
