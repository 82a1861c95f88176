import Winnow.Proofs.DeskCalls

open Relation (ReflTransGen)

namespace Winnow.Desk

variable {Q : Type} {cat : Catalog} {asks : Asks} {T : List String}

theorem firstMissing_of_joined {before rest : List Hop} {hop : Hop} {joined : List String}
    (hb : ∀ h ∈ before, h.toTable ∈ joined) (hh : hop.toTable ∉ joined) :
    firstMissing joined (before ++ hop :: rest) = some hop := by
  have hn : before.find? (fun h => h.toTable ∉ joined) = none := by
    rw [List.find?_eq_none]
    intro h hm
    simpa using hb h hm
  unfold firstMissing
  rw [List.find?_append, hn]
  simp [hh]

theorem mem_guardedBy {rel : Relation} {first : Bool} {hop : Hop} {table : String} :
    table ∈ guardedBy rel first hop ↔ table ∈ rel.softDelete ∧
      (table = hop.toTable ∨ first = false ∧ table = hop.fromTable) := by
  unfold guardedBy
  rw [List.mem_filter, decide_eq_true_eq, and_comm]
  refine and_congr_right fun _ => ?_
  cases first with
  | true => simp
  | false => simp [or_comm]

variable [QueryTarget Q]

section Relation

variable {ref : RelationRef} {rel : Relation}
variable (asked : asks.relation ref) (known : cat.book.relationOf? ref = some rel)
include asked known

theorem goes_guard {before rest : List Hop} {hop : Hop} {table : String}
    (hs : (cat.book.route ref).hops = before ++ hop :: rest) (hb : before.map (·.toTable) ⊆ T)
    (hl : table ∈ rel.softDelete)
    (ht : table = hop.toTable ∨ before ≠ [] ∧ table = hop.fromTable) :
    Goes (Move (Q := Q) cat asks) (Builds cat (hop.toTable :: T)) (guard cat table)
      (fun _ => Builds cat (hop.toTable :: T)) := by
  apply goes_readJoins
  intro j
  by_cases hg : table ∈ j.guarded
  · simp only [hg, not_true_eq_false, ↓reduceIte]
    exact Goes.pure fun _ h => h.1
  · simp only [hg, not_false_eq_true, ↓reduceIte]
    intro d ⟨hd, hj⟩
    have hsend := goes_send (M := Move cat asks) (c := cat.guardCall table)
      (f := (·.addGuard table))
      (P := fun d => Builds cat (hop.toTable :: T) d ∧ d.session.joins = j)
      (R := fun _ => Builds cat (hop.toTable :: T)) (fun d h => h.1.building)
      (fun d d' h hsends => .relation asked known (.guard hs
        (List.Subset.trans (List.cons_subset_cons _ hb) h.1.joined) hl ht
        (by rw [h.2]; exact hg) hsends))
      (fun d q h => ⟨⟨h.1.memory, h.1.joined⟩, h.1.building⟩) d ⟨hd, hj⟩
    rw [bind_of_ok (enter_of_building hd.building)]
    exact hsend

theorem goes_guardAll {before rest : List Hop} {hop : Hop}
    (hs : (cat.book.route ref).hops = before ++ hop :: rest) (hb : before.map (·.toTable) ⊆ T)
    {tables : List String}
    (ht : ∀ table ∈ tables, table ∈ rel.softDelete ∧
      (table = hop.toTable ∨ before ≠ [] ∧ table = hop.fromTable)) :
    Goes (Move (Q := Q) cat asks) (Builds cat (hop.toTable :: T)) (guardAll cat tables)
      (fun _ => Builds cat (hop.toTable :: T)) := by
  induction tables with
  | nil => exact Goes.pure fun _ h => h
  | cons table tables ih =>
    obtain ⟨hl, hside⟩ := ht table (by simp)
    exact (goes_guard asked known hs hb hl hside).bind fun _ => ih fun t h => ht t (by simp [h])

theorem goes_joinHop {before rest : List Hop} {hop : Hop}
    (hs : (cat.book.route ref).hops = before ++ hop :: rest) (hb : before.map (·.toTable) ⊆ T) :
    Goes (Move (Q := Q) cat asks) (Builds cat T) (joinHop cat rel rel.joinKind before.isEmpty hop)
      (fun _ => Builds cat (hop.toTable :: T)) := by
  apply goes_readJoins
  intro j
  by_cases hj : hop.toTable ∈ j.joined
  · simp only [hj, not_true_eq_false, ↓reduceIte]
    apply Goes.pure
    intro d ⟨hd, he⟩
    refine ⟨⟨hd.memory, List.cons_subset.mpr ⟨by rw [he]; exact hj, hd.joined⟩⟩, hd.building⟩
  · simp only [hj, not_false_eq_true, ↓reduceIte]
    have hguards : ∀ table ∈ guardedBy rel before.isEmpty hop, table ∈ rel.softDelete ∧
        (table = hop.toTable ∨ before ≠ [] ∧ table = hop.fromTable) := by
      intro table ht
      obtain ⟨hl, hside⟩ := mem_guardedBy.mp ht
      exact ⟨hl, hside.imp_right fun h => ⟨List.isEmpty_eq_false_iff.mp h.1, h.2⟩⟩
    have hsend := goes_send (M := Move (Q := Q) cat asks) (c := hop.call rel.joinKind)
      (f := (·.addTable hop.toTable)) (P := fun d => Builds cat T d ∧ d.session.joins = j)
      (R := fun _ => Builds cat (hop.toTable :: T)) (fun d h => h.1.building)
      (fun d d' h hsends => .relation asked known (.join (by
        rw [hs]
        exact firstMissing_of_joined (fun e he => h.1.joined (hb (List.mem_map_of_mem he)))
          (by rw [h.2]; exact hj)) hsends))
      (fun d q h => ⟨⟨h.1.memory, by
        intro t ht
        apply mem_addNew.mpr
        exact (List.mem_cons.mp ht).imp_right fun ht => h.1.joined ht⟩, h.1.building⟩)
    have hall := hsend.bind fun _ => (goes_note (.joined hop.toTable hop.fromColumn hop.toColumn
      rel.joinKind)).bind fun _ => goes_guardAll asked known hs hb hguards
    simp only [bind_assoc] at hall
    exact hall

theorem goes_joinHops {before hops : List Hop} (hs : (cat.book.route ref).hops = before ++ hops)
    (hb : before.map (·.toTable) ⊆ T) :
    Goes (Move (Q := Q) cat asks) (Builds cat T) (joinHops cat rel rel.joinKind before.isEmpty hops)
      (fun _ => Builds cat (hops.map (·.toTable) ++ T)) := by
  induction hops generalizing before T with
  | nil => exact Goes.pure fun _ h => h
  | cons hop hops ih =>
    have hone := goes_joinHop (Q := Q) asked known hs hb
    have hrest := @ih (hop.toTable :: T) (before ++ [hop]) (by simp [hs])
      (by
        rw [List.map_append]
        exact List.append_subset.mpr ⟨List.subset_cons_of_subset _ hb, by simp⟩)
    rw [show (before ++ [hop]).isEmpty = false by simp] at hrest
    refine (hone.bind fun _ => hrest).weaken (fun _ h => h) fun _ d h => h.mono ?_
    exact List.perm_middle.symm.subset

theorem goes_selectEntries :
    Goes (Move (Q := Q) cat asks) (Builds cat T)
      (selectEntries cat (rel.entries.map normalizeEntry)) (fun _ => Builds cat T) := by
  intro d hd
  obtain ⟨d₀, hs, hmem, he⟩ := selectEntries_eq cat (rel.entries.map normalizeEntry) d
  rw [he]
  generalize hc : chosen cat (rel.entries.map normalizeEntry) d.session.joins = j
  have hbuilds : ∀ q, Builds cat T ((d₀.withQuery q).withJoins j) := by
    intro q
    refine ⟨⟨by simpa [withJoins, withQuery, hmem] using hd.memory, ?_⟩, ?_⟩
    · change T ⊆ j.joined
      rw [← hc, chosen_joined]
      exact hd.joined
    · simpa [withJoins, withQuery, hs] using hd.building
  have haside : Move cat asks d d₀ := .aside hs fun hm => hmem ▸ hm
  by_cases hn : j.selected.isEmpty
  · simp only [hn, ↓reduceIte]
    have hsame : d₀.withJoins j = d₀ := by
      rw [← hc] at hn ⊢
      rw [chosen_eq_of_isEmpty hn, ← hs]
      rfl
    exact ⟨.single (hsame ▸ haside), hbuilds d₀.session.query⟩
  · simp only [hn, Bool.false_eq_true, ↓reduceIte]
    have hmove : ∀ d', Sends (.select j.selected) id (d₀.withJoins j) d' → Move cat asks d₀ d' :=
      fun d' hsends => .relation asked known (.select (by rw [hs]; exact hc.symm)
        (fun he => hn (List.isEmpty_iff.mpr he)) hsends)
    have hb : (d₀.withJoins j).session.phase = .building := (hbuilds d₀.session.query).building
    cases hq : QueryTarget.call (.select j.selected) (d₀.withJoins j).session.query with
    | ok u q =>
      rw [issue_of_ok hq]
      exact ⟨.head haside (.single (hmove _ (.taken hb hq))), hbuilds q⟩
    | error e q =>
      rw [issue_of_error hq]
      exact .head haside (.single (hmove _ (.refused hb hq)))

end Relation

theorem goes_route (cat : Catalog) (ref : RelationRef) :
    Goes (Move (Q := Q) cat asks) (Has cat T) (route cat ref)
      (fun r d => r = cat.book.route ref ∧ Has cat T d) := by
  intro d hd
  unfold route
  cases hc : cat.book.consult ref d.memory with
  | error e => exact .refl
  | ok found =>
    obtain ⟨hroute, -⟩ := RelationBook.consult_answer hd.memory.faithful hc
    have hm := hd.memory.consult hc
    exact ⟨.single (.aside rfl fun _ => hm), hroute, hm, hd.joined⟩

omit [QueryTarget Q] in
theorem route_of_ok {ref : RelationRef} {d d' : Desk Q} {r : Route} (hd : cat.book.Reaches d.memory)
    (h : route cat ref d = .ok r d') :
    r = cat.book.route ref ∧ d'.session = d.session ∧ cat.book.Reaches d'.memory := by
  unfold route at h
  split at h
  next => cases h
  next found hc =>
    cases h
    exact ⟨(RelationBook.consult_answer hd.faithful hc).1, rfl, hd.consult hc⟩

theorem hops_of_unknown {ref : RelationRef} (h : cat.book.relationOf? ref = none) :
    (cat.book.route ref).hops = [] := by
  cases ref with
  | named name =>
    unfold RelationBook.relationOf? at h
    simp only [RelationBook.route, h]
  | inline rel => simp [RelationBook.relationOf?] at h
  | unnameable kind => rfl

theorem joinKind_of_known {ref : RelationRef} {rel : Relation}
    (h : cat.book.relationOf? ref = some rel) : (cat.book.route ref).joinKind = rel.joinKind := by
  cases ref with
  | named name =>
    unfold RelationBook.relationOf? at h
    simp only [RelationBook.route, h]
    rfl
  | inline other =>
    cases h
    rfl
  | unnameable kind => simp [RelationBook.relationOf?] at h

theorem joined_of_settled {entries : List String} {r : Route} {j : Joins}
    (h : (r.hops.isEmpty || isSettled j r entries) = true) {hop : Hop} (hm : hop ∈ r.hops) :
    hop.toTable ∈ j.joined := by
  rcases Bool.or_eq_true _ _ ▸ h with he | hs
  · rw [List.isEmpty_iff.mp he] at hm
    cases hm
  · simp only [isSettled, Bool.and_eq_true, List.all_eq_true, decide_eq_true_eq] at hs
    exact hs.1.2 hop hm

theorem applyRelation_eq {ref : RelationRef} {d d₁ : Desk Q} {r : Route}
    (hr : route cat ref d = .ok r d₁) :
    applyRelation cat ref d = match cat.book.relationOf? ref with
      | none => .ok r d₁
      | some rel =>
        if r.hops.isEmpty || isSettled d₁.session.joins r (rel.entries.map normalizeEntry) then
          .ok r d₁
        else (do
          enter
          selectEntries cat (rel.entries.map normalizeEntry)
          joinHops cat rel r.joinKind true r.hops
          return r : Build Q Route) d₁ := by
  unfold applyRelation
  rw [bind_of_ok hr]
  cases cat.book.relationOf? ref with
  | none => rfl
  | some rel =>
    change (if _ then _ else _ : Build Q Route) d₁ = _
    dsimp only
    split
    next => rfl
    next => rfl

theorem goes_applyRelation {ref : RelationRef} (asked : asks.relation ref) :
    Goes (Move (Q := Q) cat asks) (Has cat T) (applyRelation cat ref)
      (fun r d => r = cat.book.route ref ∧
        Has cat ((cat.book.route ref).hops.map (·.toTable) ++ T) d) := by
  refine (goes_route cat ref).bindValue ?_
  cases known : cat.book.relationOf? ref with
  | none =>
    refine Goes.pure fun d hd => ⟨rfl, ?_⟩
    simpa [hops_of_unknown known] using hd
  | some rel =>
    apply goes_readJoins
    intro j
    by_cases hskip : ((cat.book.route ref).hops.isEmpty ||
        isSettled j (cat.book.route ref) (rel.entries.map normalizeEntry)) = true
    · simp only [hskip, ↓reduceIte]
      refine Goes.pure fun d ⟨hd, hj⟩ => ⟨rfl, hd.memory, ?_⟩
      refine List.append_subset.mpr ⟨?_, hd.joined⟩
      intro t ht
      obtain ⟨hop, hm, rfl⟩ := List.mem_map.mp ht
      rw [hj]
      exact joined_of_settled hskip hm
    · simp only [hskip, Bool.false_eq_true, ↓reduceIte]
      have hhops : Goes (Move (Q := Q) cat asks) (Builds cat T) (joinHops cat rel rel.joinKind
          ([] : List Hop).isEmpty (cat.book.route ref).hops) _ :=
        goes_joinHops asked known rfl (by simp)
      refine (goes_enter.weaken (fun _ h => h.1) (fun _ _ h => h)).bind fun _ =>
        (goes_selectEntries asked known).bind fun _ => ?_
      rw [joinKind_of_known known]
      exact hhops.bind fun _ => Goes.pure fun _ h => ⟨rfl, h.toHas⟩

theorem goes_join {ref : RelationRef} (asked : asks.relation ref) :
    Goes (Move (Q := Q) cat asks) (Has cat T) (join cat ref)
      (fun _ => Has cat ((cat.book.route ref).hops.map (·.toTable) ++ T)) :=
  (goes_applyRelation asked).bind fun _ => Goes.pure fun _ h => h.2

theorem goes_joinAll {refs : List RelationRef} (asked : ∀ ref ∈ refs, asks.relation ref) :
    Goes (Move (Q := Q) cat asks) (Has cat []) (joinAll cat refs) (fun _ => Has cat []) := by
  induction refs with
  | nil => exact Goes.pure fun _ h => h
  | cons ref refs ih =>
    have hrest := ih fun r hr => asked r (by simp [hr])
    have hjoin := (goes_join (Q := Q) (T := []) (asked ref (by simp))).weaken (fun _ h => h)
      (fun _ d h => h.mono (List.nil_subset _) : ∀ _ d, _ → Has cat [] d)
    unfold joinAll
    split
    next => exact hjoin.bind fun _ => hrest
    next => exact hjoin.bind fun _ => hrest
    next => exact hrest

end Winnow.Desk
