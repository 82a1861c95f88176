import Winnow.Proofs.ClosedSessions
import Winnow.Proofs.GuardedTables
import Winnow.Proofs.JoinedOnce
import Winnow.Proofs.SessionSelection

namespace Winnow

def Catalog.tablesTo (cat : Catalog) (ref : RelationRef) : List String :=
  (cat.book.route ref).hops.map (·.toTable)

namespace Desk

variable {Q : Type} {cat : Catalog} {rel : Relation} {refs refs' : List RelationRef}
variable {rels : List Relation} {T : String → Prop}

theorem joining_perm (h : refs.Perm refs') : (cat.joining refs).Perm (cat.joining refs') :=
  (h.filterMap _).filter _

theorem mem_selection {e : String} :
    e ∈ cat.selection rels ↔ rels ≠ [] ∧ e ∈ cat.listed rels := by
  unfold Catalog.selection
  split
  next h => simp [List.isEmpty_iff.mp h]
  next h =>
    rw [List.isEmpty_iff] at h
    simp [List.mem_eraseDups, h]

theorem selection_perm {rels' : List Relation} (h : rels.Perm rels') :
    (cat.selection rels).Perm (cat.selection rels') := by
  refine (List.perm_ext_iff_of_nodup (nodup_selection cat rels) (nodup_selection cat rels')).mpr ?_
  intro e
  have hnil : rels = [] ↔ rels' = [] := by
    rw [← List.length_eq_zero_iff, ← List.length_eq_zero_iff, h.length_eq]
  rw [mem_selection, mem_selection, Ne, hnil]
  simp only [Catalog.listed, List.mem_append, List.mem_flatMap, h.mem_iff]

theorem visible_prefix (h : cat.selection rels ≠ []) :
    cat.visible.eraseDups <+: cat.selection rels := by
  rw [selection_of_ne_nil h, Catalog.listed, List.eraseDups_append]
  exact List.prefix_append _ _

theorem mem_joinedHops_joined {first : Bool} {hops : List Hop} {j : Joins} {table : String} :
    table ∈ (joinedHops rel first hops j).joined ↔
      table ∈ j.joined ∨ table ∈ hops.map (·.toTable) := by
  induction hops generalizing first j with
  | nil => simp [joinedHops]
  | cons hop hops ih =>
    rw [joinedHops, ih, mem_joinedHop_joined, List.map_cons, List.mem_cons,
      or_comm (a := table = _), or_assoc]

/-- A desk with a memory of its book where the tables of `T` are joined, and no others. -/
structure JoinedExactly (cat : Catalog) (T : String → Prop) (d : Desk Q) : Prop where
  memory : cat.book.Reaches d.memory
  joined : ∀ table, table ∈ d.session.joins.joined ↔ T table

variable [QueryTarget Q]

theorem session_of_unknown {ref : RelationRef} {d e : Desk Q} {r : Route}
    (hd : cat.book.Reaches d.memory) (unknown : cat.book.relationOf? ref = none)
    (hok : applyRelation cat ref d = .ok r e) : e.session = d.session := by
  cases hr : route cat ref d with
  | ok found d₁ =>
    rw [applyRelation_eq hr, unknown] at hok
    cases hok
    exact (route_of_ok hd hr).2.1
  | error f d₁ =>
    unfold applyRelation at hok
    rw [bind_of_error hr] at hok
    cases hok

theorem ends_join (ref : RelationRef) : Ends (JoinedExactly (Q := Q) cat T) (join cat ref)
    (fun _ => JoinedExactly cat fun table => T table ∨ table ∈ cat.tablesTo ref)
    fun _ => True := by
  intro d h
  cases hok : join cat ref d with
  | error f e => trivial
  | ok u e =>
    have hgoes : Goes (Move (Q := Q) cat anyAsks) (Has cat []) (join cat ref) _ := goes_join trivial
    have hm := (hgoes.of_ok ⟨h.memory, List.nil_subset _⟩ hok).2.memory
    obtain ⟨r, happly, -⟩ := of_map_ok hok
    refine ⟨hm, fun table => ?_⟩
    cases known : cat.book.relationOf? ref with
    | none =>
      have hnone : cat.tablesTo ref = [] := by simp [Catalog.tablesTo, hops_of_unknown known]
      rw [session_of_unknown h.memory known happly, h.joined, hnone]
      simp
    | some rel =>
      rw [← h.joined]
      rcases applyRelation_cases h.memory known happly with ⟨hskip, hs⟩ | ⟨-, hj⟩
      · rw [hs, or_iff_left_of_imp]
        intro ht
        obtain ⟨hop, hm, rfl⟩ := List.mem_map.mp ht
        exact joined_of_settled hskip hm
      · rw [hj, mem_joinedHops_joined, chosen_joined]
        rfl

theorem ends_joinAll (refs : List RelationRef) : Ends (JoinedExactly (Q := Q) cat T)
    (joinAll cat refs)
    (fun _ => JoinedExactly cat fun table => T table ∨ ∃ ref ∈ refs, table ∈ cat.tablesTo ref)
    fun _ => True := by
  induction refs generalizing T with
  | nil => exact Ends.pure fun d h => by simpa using h
  | cons ref refs ih =>
    have hrest : Ends (JoinedExactly (Q := Q) cat fun table => T table ∨ table ∈ cat.tablesTo ref)
        (joinAll cat refs) (fun _ => JoinedExactly cat fun table => T table ∨
          ∃ r ∈ ref :: refs, table ∈ cat.tablesTo r) fun _ => True := by
      simpa only [List.mem_cons, exists_eq_or_imp, or_assoc] using
        ih (T := fun table => T table ∨ table ∈ cat.tablesTo ref)
    have hjoin : Ends (JoinedExactly (Q := Q) cat T) (join cat ref)
        (fun _ => JoinedExactly cat fun table => T table ∨ table ∈ cat.tablesTo ref)
        fun _ => True := ends_join ref
    have hone := hjoin.bind fun _ => hrest
    -- what can name no relation leads nowhere
    have hskip : cat.book.relationOf? ref = none →
        Ends (JoinedExactly (Q := Q) cat T) (joinAll cat refs) (fun _ => JoinedExactly cat
          fun table => T table ∨ ∃ r ∈ ref :: refs, table ∈ cat.tablesTo r) fun _ => True := by
      intro unknown
      have hnone : cat.tablesTo ref = [] := by simp [Catalog.tablesTo, hops_of_unknown unknown]
      simpa [hnone] using hrest
    unfold joinAll
    cases ref with
    | named name =>
      cases name with
      | text s => exact hone
      | null | bool _ | int _ | real _ => exact hskip rfl
    | inline rel => exact hone
    | unnameable kind => exact hskip rfl

/-- A query that took every call that it got after a log `before`, and goes on taking them. -/
structure Takes (before : List Sent) (d : Desk (Logged Q)) : Prop where
  willing : Willing d.session.query
  log : ∃ sent, d.log = before ++ sent ∧ ∀ s ∈ sent, s.taken = true

variable {before : List Sent} {d d' : Desk (Logged Q)}

theorem Takes.sends {c : Call} {f : Joins → Joins} (hs : Sends c f d d') (h : Takes before d) :
    Takes before d' := by
  obtain ⟨q, hq, hw⟩ := h.willing.call c
  obtain ⟨sent, hsent, htaken⟩ := h.log
  cases hs with
  | taken _ hc =>
    cases hq.symm.trans hc
    refine ⟨hw, sent ++ [⟨c, true⟩], ?_, ?_⟩
    · rw [← List.append_assoc, ← hsent]
      exact Logged.log_of_ok hq
    · intro s hs
      rcases List.mem_append.mp hs with hs | hs
      · exact htaken s hs
      · rw [List.mem_singleton.mp hs]
  | refused _ hc => cases hq.symm.trans hc

theorem Takes.move {asks : Asks} (hm : Move cat asks d d') (h : Takes before d) :
    Takes before d' := by
  cases hm with
  | aside hs =>
    obtain ⟨sent, hsent, htaken⟩ := h.log
    exact ⟨hs ▸ h.willing, sent, by simpa only [Desk.log, hs] using hsent, htaken⟩
  | enter => exact ⟨h.willing, h.log⟩
  | call _ hs => exact h.sends hs
  | relation _ _ hj =>
    cases hj with
    | @select j _ _ hs => exact Takes.sends hs (d := d.withJoins j) ⟨h.willing, h.log⟩
    | join _ hs => exact h.sends hs
    | guard _ _ _ _ _ hs => exact h.sends hs

/-- A session with a query that takes every call, which counts what was joined and selects in
order. -/
structure Standing (cat : Catalog) (d : Desk (Logged Q)) : Prop where
  memory : cat.book.Reaches d.memory
  willing : Willing d.session.query
  selected : ∃ rels, d.session.joins.selected = cat.selection rels
  booked : Booked cat anyAsks.relation [] d

theorem Standing.of_session {p : Phase} (h : Standing cat d)
    (hm : cat.book.Reaches d'.memory) (hs : d'.session = { d.session with phase := p }) :
    Standing cat d' := by
  obtain ⟨session, memory, reads, notes⟩ := d'
  obtain rfl : session = _ := hs
  obtain ⟨hj, hn, ho⟩ := h.booked
  exact ⟨hm, h.willing, h.selected, hj, hn, ho⟩

theorem Standing.closed (h : Standing cat d) (hp : d.session.phase = .executed)
    (hc : Closed cat d.session d') : Standing cat d' :=
  h.of_session (p := .executed) hc.memory (by rw [hc.session, ← hp])

theorem Standing.act {make : Nat → Q} (willing : ∀ n, Willing (make n)) (h : Standing cat d)
    (ho : d.session.isOpen = true) (action : Action) :
    Standing cat (after (action.perform cat (Logged.of make)) d) := by
  obtain ⟨rels, hr⟩ := h.selected
  have hready : Ready cat (cat.selection rels) d := ⟨h.memory, ho, h.willing, hr⟩
  have hnew : ∃ rels, Ready cat (cat.selection rels)
      (after (action.perform cat (Logged.of make)) d) := by
    by_cases hreset : action = .reset
    · subst hreset
      exact ⟨[], ready_reset (fun n => Logged.willing (willing n)) hready⟩
    · exact ⟨_, ready_perform (Logged.of make) hreset hready⟩
  obtain ⟨rels', hready'⟩ := hnew
  have hturns : Relation.ReflTransGen (Turn cat anyAsks (Logged.of make)) d
      (after (action.perform cat (Logged.of make)) d) :=
    turns_perform action action.asks_within_any h.memory
  exact ⟨hready'.memory, hready'.willing, ⟨rels', hready'.selected⟩,
    kept_of_moves (I := Booked cat anyAsks.relation []) (fun _ _ ht h => h.turn ht) hturns h.booked⟩

theorem Standing.demand {make : Nat → Q} (willing : ∀ n, Willing (make n)) (h : Standing cat d)
    (demand : Demand (Logged Q)) :
    Standing cat (after (demand.perform cat (Logged.of make)) d) := by
  by_cases ho : d.session.isOpen = true
  · cases demand with
    | act action => exact h.act willing ho action
    | enter =>
      have he : after (Demand.perform cat (Logged.of make) .enter) d = d.entered := by
        unfold after
        simp only [Demand.perform, enter_of_open ho]
      exact h.of_session (p := .building) (he ▸ h.memory) (he ▸ rfl)
    | execute run =>
      have hclosed := closed_execute h.memory run
      rw [← after_discard (execute run) ()] at hclosed
      exact h.of_session hclosed.memory hclosed.session
  · have hp : d.session.phase = .executed := by simpa [Session.isOpen] using ho
    have hclosed := preserves_demand (Logged.of make) demand d ⟨h.memory, rfl, hp⟩
    exact h.closed hp hclosed

theorem standing_serve {make : Nat → Q} (willing : ∀ n, Willing (make n))
    (demands : List (Demand (Logged Q))) {m : Memory} (hm : cat.book.Reaches m) :
    Standing cat (serve cat (Logged.of make) demands (opened (Logged.of make) m)) := by
  have hstart : Standing cat (opened (Logged.of make) m) :=
    ⟨hm, Logged.willing (willing 0), ⟨[], rfl⟩, rfl, List.nodup_nil, [], rfl,
      joinsInOrder_of_none (by simp)⟩
  unfold serve
  generalize opened (Logged.of make) m = d at hstart
  induction demands generalizing d with
  | nil => exact hstart
  | cons demand demands ih => exact ih _ (hstart.demand willing demand)

/-- The number of calls that ask for a join. -/
def joinCalls (sent : List Sent) : Nat := sent.countP (·.call.joined?.isSome)

theorem length_joinedTables {sent : List Sent} (h : ∀ s ∈ sent, s.taken = true) :
    (joinedTables sent).length = joinCalls sent := by
  unfold joinedTables joinCalls
  rw [List.length_filterMap_eq_countP]
  exact List.countP_congr fun s hs => by simp [h s hs]

theorem joinCalls_of_joinAll (h : Standing cat d) (refs : List RelationRef) :
    ∃ sent, (after (joinAll cat refs) d).log = d.log ++ sent ∧
      (after (joinAll cat refs) d).session.joins.joined.Nodup ∧
      (after (joinAll cat refs) d).session.joins.joined.length =
        d.session.joins.joined.length + joinCalls sent := by
  have hgoes : Goes (Move cat anyAsks) (Has cat []) (joinAll (Q := Logged Q) cat refs) _ :=
    goes_joinAll fun _ _ => trivial
  have hmoves := hgoes.after_moves ⟨h.memory, List.nil_subset _⟩
  generalize after (joinAll cat refs) d = e at hmoves
  have hbooked : Booked cat anyAsks.relation [] e :=
    kept_of_moves (I := Booked cat anyAsks.relation [])
      (fun _ _ hm h => h.move (fun _ _ hn => hn) hm) hmoves h.booked
  have htakes : Takes d.log e := kept_of_moves (I := Takes d.log) (fun _ _ hm h => h.move hm)
    hmoves ⟨h.willing, [], by simp, by simp⟩
  obtain ⟨sent, hsent, htaken⟩ := htakes.log
  refine ⟨sent, hsent, hbooked.joined ▸ hbooked.nodup, ?_⟩
  rw [hbooked.joined, hsent, joinedTables_append, List.length_append, h.booked.joined,
    length_joinedTables htaken]

/-- At an open session, joining several relations joins the tables of all of them and selects their
entries; at a closed one it does nothing. -/
theorem joinAll_of_standing (h : Standing cat d)
    (hr : d.session.joins.selected = cat.selection rels) (refs : List RelationRef) :
    (after (joinAll cat refs) d).session.joins.selected =
        cat.selection (if d.session.isOpen then rels ++ cat.joining refs else rels) ∧
      (∀ table, table ∈ (after (joinAll cat refs) d).session.joins.joined ↔
        table ∈ d.session.joins.joined ∨
          d.session.isOpen = true ∧ ∃ ref ∈ refs, table ∈ cat.tablesTo ref) ∧
      (d.session.isOpen = true → succeeds (joinAll cat refs) d = true) := by
  by_cases ho : d.session.isOpen = true
  · obtain ⟨u, e, hok, hready⟩ := (ready_joinAll refs).ok_of_false
      (⟨h.memory, ho, h.willing, hr⟩ : Ready cat (cat.selection rels) d)
    have hjoined := ends_joinAll refs d
      (⟨h.memory, fun _ => Iff.rfl⟩ : JoinedExactly cat (· ∈ d.session.joins.joined) d)
    rw [hok] at hjoined
    have he : after (joinAll cat refs) d = e := by
      unfold after
      rw [hok]
    rw [he, if_pos ho]
    refine ⟨hready.selected, fun table => ?_, fun _ => ?_⟩
    · rw [hjoined.joined, and_iff_right ho]
    · unfold succeeds
      rw [hok]
  · have hp : d.session.phase = .executed := by simpa [Session.isOpen] using ho
    have hgoes : Goes (Move cat anyAsks) (Has cat []) (joinAll (Q := Logged Q) cat refs) _ :=
      goes_joinAll fun _ _ => trivial
    have hclosed : Closed cat d.session d := ⟨h.memory, rfl, hp⟩
    have hs : (after (joinAll cat refs) d).session = d.session :=
      (Closed.of_goes hgoes d hclosed).session
    rw [hs, if_neg ho]
    exact ⟨hr, fun table => by simp [ho], fun h => absurd h ho⟩

/-- As long as the queries of a session take every call, the order in which relations are joined
does not change which tables are joined, which entries are selected and how many joins are called
for; the visible columns come first in every order. -/
theorem joinAll_perm {make : Nat → Q} (willing : ∀ n, Willing (make n))
    (demands : List (Demand (Logged Q))) {m : Memory} (hm : cat.book.Reaches m)
    (hperm : refs.Perm refs') :
    let d := serve cat (Logged.of make) demands (opened (Logged.of make) m)
    let e := after (joinAll cat refs) d
    let e' := after (joinAll cat refs') d
    e.session.joins.joined.Perm e'.session.joins.joined ∧
      e.session.joins.selected.Perm e'.session.joins.selected ∧
      (e.session.joins.selected ≠ [] → cat.visible.eraseDups <+: e.session.joins.selected) ∧
      (e'.session.joins.selected ≠ [] → cat.visible.eraseDups <+: e'.session.joins.selected) ∧
      (∃ sent sent', e.log = d.log ++ sent ∧ e'.log = d.log ++ sent' ∧
        joinCalls sent = joinCalls sent') ∧
      (d.session.isOpen = true →
        succeeds (joinAll cat refs) d = true ∧ succeeds (joinAll cat refs') d = true) := by
  intro d e e'
  have hd : Standing cat d := standing_serve willing demands hm
  obtain ⟨rels, hr⟩ := hd.selected
  obtain ⟨sent, hsent, hnodup, hcount⟩ := joinCalls_of_joinAll hd refs
  obtain ⟨sent', hsent', hnodup', hcount'⟩ := joinCalls_of_joinAll hd refs'
  obtain ⟨hsel, hjoined, hok⟩ := joinAll_of_standing hd hr refs
  obtain ⟨hsel', hjoined', hok'⟩ := joinAll_of_standing hd hr refs'
  have hp : (after (joinAll cat refs) d).session.joins.joined.Perm
      (after (joinAll cat refs') d).session.joins.joined := by
    refine (List.perm_ext_iff_of_nodup hnodup hnodup').mpr fun table => ?_
    rw [hjoined, hjoined']
    simp only [hperm.mem_iff]
  have hcalls : joinCalls sent = joinCalls sent' := by
    have hlength := hp.length_eq
    omega
  refine ⟨hp, ?_, hsel ▸ visible_prefix, hsel' ▸ visible_prefix,
    ⟨sent, sent', hsent, hsent', hcalls⟩, fun ho => ⟨hok ho, hok' ho⟩⟩
  rw [hsel, hsel']
  split
  next => exact selection_perm ((joining_perm hperm).append_left rels)
  next => rfl

/-- Relations that lead to the same tables, with a repetition and a name that is not known. -/
def overlapping : List RelationRef :=
  [.named (.text "role"), .named (.text "nowhere"), .named (.text "pictureRole"),
    .inline { chain := [("users.pic_id", "user_pictures.id")], entries := ["user_pictures.path"] },
    .named (.text "role")]

/-- What is joined for these relations in their order, one after the other, is joined for them in
the reverse order as well. -/
theorem joinAll_perm_overlapping :
    Willing ({} : Recorder) ∧ Catalog.ofUsers.book.Reaches {} ∧
      overlapping.Perm overlapping.reverse ∧
      ∃ d : Desk (Logged Recorder), d = usersAfter [.filter photoText none] ∧
        (after (joinAll .ofUsers overlapping.reverse) d).session.joins.selected.Perm
          ["users.id", "users.name", "user_pictures.path as photo", "roles.title as role",
            "user_pictures.path"] := by
  have willing : Willing ({} : Recorder) := willing_recorder rfl
  have hm : Catalog.ofUsers.book.Reaches {} := .empty
  have hperm : overlapping.Perm overlapping.reverse := overlapping.reverse_perm.symm
  have hserve : serve .ofUsers (Logged.of fun _ => ({} : Recorder))
      [.act (.filter photoText none)] (opened (Logged.of fun _ => {}) {}) =
        usersAfter [.filter photoText none] := rfl
  obtain ⟨-, hselected, -⟩ :=
    joinAll_perm (fun _ => willing) [.act (.filter photoText none)] hm hperm
  rw [hserve] at hselected
  have hforward : (after (joinAll .ofUsers overlapping)
      (usersAfter [.filter photoText none])).session.joins.selected =
        ["users.id", "users.name", "user_pictures.path as photo", "roles.title as role",
          "user_pictures.path"] := by decide +kernel
  rw [hforward] at hselected
  exact ⟨willing, hm, hperm, _, rfl, hselected.symm⟩

end Desk

end Winnow
