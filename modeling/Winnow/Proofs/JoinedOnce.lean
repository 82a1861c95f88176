import Winnow.Proofs.DeskRuns

namespace Winnow.Desk

variable {Q : Type} {cat : Catalog} {asked : RelationRef → Prop} {before : List Sent}

/-- The tables that the calls of a log joined. -/
def joinedTables (log : List Sent) : List String :=
  log.filterMap fun s => if s.taken then s.call.joined? else none

/-- Whether a call joins what comes next for a relation, after the calls of a log. -/
def JoinsFirstMissing (cat : Catalog) (asked : RelationRef → Prop) (log : List Sent) (c : Call) :
    Prop :=
  ∃ ref rel hop, asked ref ∧ cat.book.relationOf? ref = some rel ∧
    firstMissing (joinedTables log) (cat.book.route ref).hops = some hop ∧
    c = hop.call rel.joinKind

/-- Every join among some calls joins what comes next for a relation. -/
def JoinsInOrder (cat : Catalog) (asked : RelationRef → Prop) (before sent : List Sent) : Prop :=
  ∀ early s late, sent = early ++ s :: late → s.call.joined? ≠ none →
    JoinsFirstMissing cat asked (before ++ early) s.call

theorem joinedTables_append (xs ys : List Sent) :
    joinedTables (xs ++ ys) = joinedTables xs ++ joinedTables ys := List.filterMap_append

theorem joinedTables_eq_nil {sent : List Sent} (h : ∀ s ∈ sent, s.call.joined? = none) :
    joinedTables sent = [] := by
  unfold joinedTables
  rw [List.filterMap_eq_nil_iff]
  intro s hs
  rw [h s hs, ite_self]

theorem JoinsInOrder.append {xs ys : List Sent} (hx : JoinsInOrder cat asked before xs)
    (hy : JoinsInOrder cat asked (before ++ xs) ys) :
    JoinsInOrder cat asked before (xs ++ ys) := by
  intro early s late h hs
  rcases List.append_eq_append_iff.mp h with ⟨mid, rfl, hmid⟩ | ⟨mid, hmid, hlate⟩
  · rw [← List.append_assoc]
    exact hy mid s late hmid hs
  · cases mid with
    | nil =>
      rw [List.append_nil] at hmid
      subst hmid
      have hfirst := hy [] s late hlate.symm hs
      rwa [List.append_nil] at hfirst
    | cons t mid =>
      obtain ⟨rfl, -⟩ := List.cons.inj hlate
      exact hx early s mid hmid hs

theorem joinsInOrder_of_none {sent : List Sent} (h : ∀ s ∈ sent, s.call.joined? = none) :
    JoinsInOrder cat asked before sent := by
  intro early s late he hs
  exact absurd (h s (by simp [he])) hs

theorem joinsInOrder_singleton {s : Sent} (h : JoinsFirstMissing cat asked before s.call) :
    JoinsInOrder cat asked before [s] := by
  intro early t late he _
  cases early with
  | nil =>
    obtain ⟨rfl, -⟩ := List.cons.inj he
    rwa [List.append_nil]
  | cons u early => simp at he

theorem toTable_of_firstMissing {joined : List String} {hops : List Hop} {hop : Hop}
    (h : firstMissing joined hops = some hop) : hop ∈ hops ∧ hop.toTable ∉ joined := by
  unfold firstMissing at h
  exact ⟨List.mem_of_find?_eq_some h, by simpa using List.find?_some h⟩

variable [QueryTarget Q] {asks : Asks} {d d' : Desk (Logged Q)}

/-- Whether the query takes it or not, a call that joins no table leaves the count of the joined
tables as it is. -/
theorem Sends.joins_nothing {c : Call} {f : Joins → Joins} (hs : Sends c f d d')
    (hn : c.joined? = none) (hf : ∀ j, (f j).joined = j.joined) :
    ∃ sent, d'.log = d.log ++ sent ∧ (∀ s ∈ sent, s.call.joined? = none) ∧
      d'.session.joins.joined = d.session.joins.joined := by
  obtain ⟨taken, hl, hj⟩ := hs.log
  refine ⟨[⟨c, taken⟩], hl, by simpa using hn, ?_⟩
  rw [hj]
  cases taken with
  | true => exact hf _
  | false => rfl

theorem Move.joined_or_not (hc : ∀ j c, asks.call j c → c.joined? = none) (h : Move cat asks d d') :
    (∃ sent, d'.log = d.log ++ sent ∧ (∀ s ∈ sent, s.call.joined? = none) ∧
      d'.session.joins.joined = d.session.joins.joined) ∨
    ∃ ref rel hop taken, asks.relation ref ∧ cat.book.relationOf? ref = some rel ∧
      firstMissing d.session.joins.joined (cat.book.route ref).hops = some hop ∧
      d'.log = d.log ++ [⟨hop.call rel.joinKind, taken⟩] ∧
      d'.session.joins.joined =
        if taken then addNew hop.toTable d.session.joins.joined else d.session.joins.joined := by
  cases h with
  | aside hs => exact Or.inl ⟨[], by simp [Desk.log, hs], by simp, by rw [hs]⟩
  | enter => exact Or.inl ⟨[], by simp [Desk.log, entered], by simp, rfl⟩
  | call ha hs => exact Or.inl (hs.joins_nothing (hc _ _ ha) fun _ => rfl)
  | @relation _ ref rel ha hk hm =>
    cases hm with
    | select hj _ hs =>
      obtain ⟨sent, hl, hn, hjoined⟩ := hs.joins_nothing rfl fun _ => rfl
      refine Or.inl ⟨sent, hl, hn, ?_⟩
      rw [hjoined, hj]
      exact chosen_joined _ _ _
    | @join hop hf hs =>
      obtain ⟨taken, hl, hj⟩ := hs.log
      refine Or.inr ⟨ref, rel, hop, taken, ha, hk, hf, hl, ?_⟩
      rw [hj]
      cases taken with
      | true => rfl
      | false => rfl
    | guard _ _ _ _ _ hs => exact Or.inl (hs.joins_nothing rfl fun _ => rfl)

/-- The session's count of the joined tables is that of the log, and the calls since a log `before`
join in order. -/
structure Booked (cat : Catalog) (asked : RelationRef → Prop) (before : List Sent)
    (d : Desk (Logged Q)) : Prop where
  joined : d.session.joins.joined = joinedTables d.log
  nodup : (joinedTables d.log).Nodup
  inOrder : ∃ sent, d.log = before ++ sent ∧ JoinsInOrder cat asked before sent

theorem Booked.move (hc : ∀ j c, asks.call j c → c.joined? = none) (hm : Move cat asks d d')
    (h : Booked cat asks.relation before d) : Booked cat asks.relation before d' := by
  obtain ⟨hj, hn, sent, hsent, ho⟩ := h
  rcases hm.joined_or_not hc with
    ⟨more, hl, hnone, hsame⟩ | ⟨ref, rel, hop, taken, ha, hk, hf, hl, hnew⟩
  · have ht : joinedTables d'.log = joinedTables d.log := by
      rw [hl, joinedTables_append, joinedTables_eq_nil hnone, List.append_nil]
    refine ⟨by rw [hsame, ht, hj], by rw [ht]; exact hn, sent ++ more, ?_, ?_⟩
    · rw [hl, hsent, List.append_assoc]
    · exact ho.append (joinsInOrder_of_none hnone)
  · have hfresh := (toTable_of_firstMissing hf).2
    have ht : joinedTables d'.log = d'.session.joins.joined := by
      rw [hl, joinedTables_append, hnew, ← hj]
      cases taken with
      | true => simp [joinedTables, Call.joined?, Hop.call, addNew, hfresh]
      | false => simp [joinedTables]
    refine ⟨ht.symm, ?_, sent ++ [⟨hop.call rel.joinKind, taken⟩], ?_, ?_⟩
    · rw [ht, hnew]
      rw [← hj] at hn
      cases taken with
      | true =>
        simp only [addNew, hfresh, ↓reduceIte]
        exact List.nodup_append.mpr ⟨hn, by simp, by
          intro a ha b hb
          rw [List.mem_singleton.mp hb]
          exact fun he => hfresh (he ▸ ha)⟩
      | false => exact hn
    · rw [hl, hsent, List.append_assoc]
    · refine ho.append (joinsInOrder_singleton ⟨ref, rel, hop, ha, hk, ?_, rfl⟩)
      rw [← hsent, ← hj]
      exact hf

theorem Booked.turn {make : Nat → Q} (ht : Turn cat anyAsks (Logged.of make) d d')
    (h : Booked cat anyAsks.relation [] d) : Booked cat anyAsks.relation [] d' := by
  cases ht with
  | move hm => exact h.move (fun _ _ hn => hn) hm
  | restart _ hq hj =>
    have hl : d'.log = [] := by
      unfold Desk.log
      rw [hq]
      rfl
    exact ⟨by simp [hj, hl, joinedTables], by simp [hl, joinedTables], [], by simp [hl],
      joinsInOrder_of_none (by simp)⟩

theorem booked_run (make : Nat → Q) (actions : List Action) {m : Memory}
    (hm : cat.book.Reaches m) :
    Booked cat anyAsks.relation [] (run cat (Logged.of make) actions (opened (Logged.of make) m)) ∧
      cat.book.Reaches (run cat (Logged.of make) actions (opened (Logged.of make) m)).memory :=
  run_keeps (fun _ _ ht h => h.turn ht) actions hm
    ⟨rfl, by simp [opened, Session.new, Logged.of, Desk.log, joinedTables], [], rfl,
      joinsInOrder_of_none (by simp)⟩

/-- Whatever the run and whatever its queries refuse, what the session counts as joined is what its
query joined, without a repetition; every join was of the first hop that a relation missed then,
and an attempt at a relation goes on with the first hop that it misses now. -/
theorem joined_once (make : Nat → Q) (actions : List Action) {m : Memory}
    (hm : cat.book.Reaches m) :
    let d := run cat (Logged.of make) actions (opened (Logged.of make) m)
    d.session.joins.joined = joinedTables d.log ∧ (joinedTables d.log).Nodup ∧
      JoinsInOrder cat (fun _ => True) [] d.log ∧
      ∀ ref, (∃ sent, (after (applyRelation cat ref) d).log = d.log ++ sent ∧
          JoinsInOrder cat (· = ref) d.log sent) ∧
        ∀ r e, applyRelation cat ref d = .ok r e →
          ∀ hop ∈ (cat.book.route ref).hops, hop.toTable ∈ joinedTables e.log := by
  intro d
  obtain ⟨hb, hreach⟩ := booked_run make actions hm
  have hd : Has cat [] d := ⟨hreach, List.nil_subset _⟩
  obtain ⟨hj, hn, sent, hsent, ho⟩ := hb
  refine ⟨hj, hn, by rw [List.nil_append] at hsent; rw [hsent]; exact ho, fun ref => ?_⟩
  let asks : Asks := ⟨(· = ref), fun _ _ => False⟩
  have hgoes : Goes (Move cat asks) (Has cat []) (applyRelation (Q := Logged Q) cat ref) _ :=
    goes_applyRelation rfl
  have hkept : ∀ e, Relation.ReflTransGen (Move cat asks) d e → Booked cat (· = ref) d.log e :=
    fun e he => kept_of_moves (I := Booked cat asks.relation d.log)
      (fun _ _ hm h => h.move (fun _ _ => False.elim) hm) he
      ⟨hj, hn, [], by simp, joinsInOrder_of_none (by simp)⟩
  refine ⟨(hkept _ (hgoes.after_moves hd)).inOrder, ?_⟩
  intro r e hok hop hmem
  obtain ⟨hmoves, -, hhas⟩ := hgoes.of_ok hd hok
  rw [← (hkept e hmoves).joined]
  exact hhas.joined (by simpa using ⟨hop, hmem, rfl⟩)

/-- The roles of the pictures are asked for twice, of a query that refuses to guard the pictures.
-/
def pictureRoleRetried : Desk (Logged Recorder) :=
  run .ofUsers (Logged.of fun _ => { refused := ["where_null"] })
    [.join (.named (.text "pictureRole")), .join (.named (.text "pictureRole"))]
    (opened (Logged.of fun _ => { refused := ["where_null"] }) {})

theorem joined_once_pictureRole :
    Catalog.ofUsers.book.Reaches {} ∧
      joinedTables pictureRoleRetried.log = ["user_pictures", "roles"] ∧
      pictureRoleRetried.session.joins.joined = joinedTables pictureRoleRetried.log := by
  have ht : joinedTables pictureRoleRetried.log = ["user_pictures", "roles"] := by decide +kernel
  have hm : Catalog.ofUsers.book.Reaches {} := .empty
  obtain ⟨hj, -⟩ := joined_once (fun _ => ({ refused := ["where_null"] } : Recorder))
    [.join (.named (.text "pictureRole")), .join (.named (.text "pictureRole"))] hm
  refine ⟨hm, ht, ?_⟩
  unfold pictureRoleRetried
  exact hj

end Winnow.Desk
