import Winnow.Proofs.RowEdits
import Winnow.Proofs.RenewedRepository

namespace Winnow

def Select.Lasts (I : Select → Prop) : Prop :=
  ∀ q call q', I q → q.step call = .ok q' → I q'

namespace Desk

variable {α : Type} {cat : Catalog} {asks : Asks} {I : Select → Prop} {d d' : Desk Select}

theorem Sends.step {call : Call} {f : Joins → Joins} (hs : Sends call f d d') :
    (d.session.query.step call = .ok d'.session.query ∧
      d'.session.joins = f d.session.joins) ∨
    d'.session.query = d.session.query ∧ d'.session.joins = d.session.joins := by
  cases hs with
  | taken _ hc =>
    simp only [QueryTarget.call] at hc
    split at hc
    next hq =>
      cases hc
      exact Or.inl ⟨hq, rfl⟩
    next => cases hc
  | refused _ hc =>
    simp only [QueryTarget.call] at hc
    split at hc
    next => cases hc
    next =>
      cases hc
      exact Or.inr ⟨rfl, rfl⟩

/-- A desk with a memory of its book and a query that has `I`. -/
structure Upholds (cat : Catalog) (I : Select → Prop) (d : Desk Select) : Prop where
  memory : cat.book.Reaches d.memory
  query : I d.session.query

section Lasts

variable (lasts : Select.Lasts I)
include lasts

theorem Upholds.sends {call : Call} {f : Joins → Joins} (h : Upholds cat I d)
    (hs : Sends call f d d') : Upholds cat I d' := by
  refine ⟨hs.memory ▸ h.memory, ?_⟩
  rcases hs.step with ⟨hq, -⟩ | ⟨hq, -⟩
  · exact lasts _ _ _ h.query hq
  · exact hq ▸ h.query

theorem Upholds.move (hm : Move cat asks d d') (h : Upholds cat I d) : Upholds cat I d' := by
  cases hm with
  | aside hs hk => exact ⟨hk h.memory, hs ▸ h.query⟩
  | enter => exact ⟨h.memory, h.query⟩
  | call _ hs => exact h.sends lasts hs
  | relation _ _ hj =>
    cases hj with
    | @select j _ _ hs =>
      have hchosen : Upholds cat I (d.withJoins j) := ⟨h.memory, h.query⟩
      exact hchosen.sends lasts hs
    | join _ hs => exact h.sends lasts hs
    | guard _ _ _ _ _ hs => exact h.sends lasts hs

theorem upholds_of_goes {step : Build Select α} {R : α → Desk Select → Prop}
    (hg : Goes (Move cat asks) (Has cat []) step R) : Preserves (Upholds cat I) step :=
  fun _ h => kept_of_moves (I := Upholds cat I) (fun _ _ hm h => h.move lasts hm)
    (hg.after_moves ⟨h.memory, List.nil_subset _⟩) h

theorem upholds_search (term : Option String) :
    Preserves (Upholds cat I) (search (Q := Select) cat term) := by
  have hsearch : Goes (Move cat ((Action.search term).asks cat)) (Has cat [])
      (search (Q := Select) cat term) _ := goes_search fun s hs _ c hc => ⟨s, hs, hc⟩
  exact upholds_of_goes lasts hsearch

theorem upholds_join (ref : RelationRef) :
    Preserves (Upholds cat I) (join (Q := Select) cat ref) := by
  have hjoin : Goes (Move cat ((Action.join ref).asks cat)) (Has cat [])
      (join (Q := Select) cat ref) _ := goes_join rfl
  exact upholds_of_goes lasts hjoin

theorem upholds_issue (call : Call) : Preserves (Upholds cat I) (issue call) := by
  intro d h
  unfold after
  cases hq : d.session.query.step call with
  | ok q =>
    rw [issue_of_ok (q := q) (by simp only [QueryTarget.call, hq])]
    exact ⟨h.memory, lasts _ _ _ h.query hq⟩
  | error e =>
    rw [issue_of_error (e := e) (q := d.session.query) (by simp only [QueryTarget.call, hq])]
    exact h

end Lasts

theorem upholds_rules : Rules cat (Preserves (Upholds cat I)) where
  pure := .pure
  bind := .bind
  note _ _ h := ⟨h.memory, h.query⟩
  enter := by
    intro ⟨⟨phase, query, joins, made⟩, memory, reads, notes⟩ h
    cases phase with
    | executed => exact h
    | fresh => exact ⟨h.memory, h.query⟩
    | building => exact ⟨h.memory, h.query⟩
  column {α use given next} hn := by
    intro d h
    obtain ⟨m, notes, hm, he⟩ := column_eq h.memory use given
    unfold after
    rw [bind_of_ok he]
    exact hn _ ⟨hm, h.query⟩

end Desk

namespace Repository

variable {r : Repository} {db : Database} {I : Select → Prop} {P : Desk Select → Prop} {α : Type}

theorem desk_atDesk {step : Build Select α} (h : Preserves P step) :
    Preserves (fun s => P s.desk) (atDesk step) := by
  intro s hs
  have hdesk := h _ hs
  unfold after at hdesk ⊢
  unfold atDesk
  cases hd : step s.desk with
  | ok a d =>
    simp only [hd] at hdesk
    exact hdesk
  | error e d =>
    simp only [hd] at hdesk
    exact hdesk

theorem desk_flush (f : Tables → Except Failure (α × Tables)) :
    Preserves (fun s => P s.desk) (flush f) := by
  intro s h
  unfold after flush
  cases f s.database.current with
  | ok result => exact h
  | error e => exact h

/-- What operations on the query, the calls of an act and notes keep of the desk, the act keeps. -/
theorem desk_perform {act : Act}
    (hop : ∀ op : Operation, Preserves (fun s => P s.desk) (op.perform r))
    (hcall : ∀ c, act = .call c → Preserves P (Desk.issue c))
    (hnote : ∀ n, Preserves P (Desk.note n)) :
    Preserves (fun s => P s.desk) (act.perform r) := by
  have hfind : ∀ id, Preserves (fun s => P s.desk) (r.find id) := fun id s h => by
    rwa [after_find]
  have hfind? : ∀ id, Preserves (fun s => P s.desk) (r.find? id) := fun id =>
    (hfind id).bind fun _ => .pure _
  cases act with
  | query op => exact (hop op).bind fun _ => .pure _
  | call c => exact (desk_atDesk (hcall c rfl)).bind fun _ => .pure _
  | find id => exact (hfind? id).bind fun _ => .pure _
  | require id =>
    refine Preserves.bind (fun s h => ?_) fun _ => .pure _
    rwa [after_require]
  | read id => exact ((hfind? id).bind fun _ => .pure _).bind fun _ => .pure _
  | create data =>
    refine Preserves.bind ?_ fun _ => .pure _
    unfold Repository.create
    split
    · exact fun _ h => h
    · exact (desk_flush _).bind fun _ => .pure _
  | update id data =>
    refine ((hfind id).bind fun found => ?_).bind fun _ => .pure _
    cases found with
    | none => exact .pure _
    | some row => exact (desk_flush _).bind fun _ => .pure _
  | delete now id =>
    refine ((hfind id).bind fun found => ?_).bind fun _ => .pure _
    cases found with
    | none => exact .pure _
    | some row =>
      exact (desk_flush _).bind fun _ => (desk_atDesk (hnote _)).bind fun _ => .pure _
  | commit => exact fun _ h => h

theorem upholds_execute (hnew : I (r.scopedQuery 0)) (run : Tables → Select → Except Failure α) :
    Preserves (fun s => Desk.Upholds r.catalog I s.desk) (r.execute run) := by
  intro s h
  have hmemory := Desk.memory_execute (run s.database.current) s.desk
  unfold after at hmemory ⊢
  unfold execute
  cases hr : Desk.execute (run s.database.current) s.desk with
  | ok a d =>
    simp only [hr] at hmemory
    exact ⟨hmemory ▸ h.memory, hnew⟩
  | error e d =>
    simp only [hr] at hmemory
    exact ⟨hmemory ▸ h.memory, hnew⟩

theorem upholds_rules (lasts : Select.Lasts I) (hnew : ∀ n, I (r.scopedQuery n)) :
    r.OperationRules (Preserves (Desk.Upholds r.catalog I))
      (Preserves fun s => Desk.Upholds r.catalog I s.desk) where
  pure := .pure
  bind := .bind
  desk := Desk.upholds_rules
  filterText raw limit := Desk.upholds_of_goes lasts (Desk.goes_filter raw limit)
  sortText raw limit := Desk.upholds_of_goes lasts (Desk.goes_sort raw limit)
  searchTerm term := Desk.upholds_search lasts term
  joinOne ref := Desk.upholds_join lasts ref
  test _ _ _ := Desk.upholds_issue lasts _
  atDesk := desk_atDesk
  remember _ _ h := h
  get _ h := Preserves.get.bind h
  reset := by
    refine (desk_atDesk ?_).bind fun _ => fun _ h => h
    refine Preserves.bind (fun d h => ?_) fun _ => Desk.upholds_rules.note _
    obtain ⟨⟨phase, query, joins, made⟩, memory, reads, notes⟩ := d
    cases phase with
    | executed => exact h
    | fresh => exact ⟨h.memory, hnew made⟩
    | building => exact ⟨h.memory, hnew made⟩
  execute _ := upholds_execute (hnew 0) _

theorem scopedQuery_of_lasts (lasts : Select.Lasts I) (hbare : I r.bareQuery) (n : Nat) :
    I (r.scopedQuery n) := by
  have hcalls : ∀ (calls : List Call) (q : Select), I q → I (after (callAll calls) q) := by
    intro calls
    induction calls with
    | nil => exact fun _ h => h
    | cons c calls ih =>
      intro q h
      unfold after
      cases hc : q.step c with
      | ok q' =>
        rw [callAll_cons hc]
        exact ih q' (lasts _ _ _ h hc)
      | error e =>
        have hrefused : QueryTarget.call c q = .error e q := by simp only [QueryTarget.call, hc]
        unfold callAll
        rw [bind_of_error hrefused]
        exact h
  have hscope := hcalls r.scopeCalls r.bareQuery hbare
  unfold after at hscope
  unfold scopedQuery
  cases hc : callAll r.scopeCalls r.bareQuery <;> simpa only [hc] using hscope

/-- Whatever was done with a repository, its query has what a query without calls has and every
call keeps. -/
theorem upholds_runActs {t : State} (lasts : Select.Lasts I) (hbare : I r.bareQuery)
    (ht : r.start db = .ok t) (acts : List Act) :
    Desk.Upholds r.catalog I (r.runActs acts t).desk := by
  have hnew := scopedQuery_of_lasts lasts hbare
  have hall : ∀ s : State, Desk.Upholds r.catalog I s.desk →
      Desk.Upholds r.catalog I (r.runActs acts s).desk := by
    induction acts with
    | nil => exact fun _ h => h
    | cons act acts ih =>
      exact fun s h => ih _ (desk_perform (upholds_rules lasts hnew).perform
        (fun c _ => Desk.upholds_issue lasts c) Desk.upholds_rules.note s h)
  refine hall t ?_
  rw [start_eq ht]
  exact ⟨.empty, hnew 0⟩

end Repository

end Winnow
