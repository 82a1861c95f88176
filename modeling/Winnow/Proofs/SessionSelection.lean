import Winnow.Proofs.CallReferences
import Winnow.Proofs.TextProofRules

namespace Winnow

theorem eraseDups_append_of_subset {xs ys : List String} (h : ys ⊆ xs) :
    (xs ++ ys).eraseDups = xs.eraseDups := by
  have hnone : ys.removeAll xs = [] := by
    rw [List.removeAll, List.filter_eq_nil_iff]
    intro y hy
    simpa using h hy
  rw [List.eraseDups_append, hnone, List.eraseDups_nil, List.append_nil]

namespace Catalog

/-- The visible columns and the entries of some relations in their order. -/
def listed (cat : Catalog) (rels : List Relation) : List String :=
  cat.visible ++ rels.flatMap fun rel => rel.entries.map normalizeEntry

/-- What is selected once these relations were applied in this order. -/
def selection (cat : Catalog) (rels : List Relation) : List String :=
  if rels.isEmpty then [] else (cat.listed rels).eraseDups

/-- The relations among those referred to that have a hop. -/
def joining (cat : Catalog) (refs : List RelationRef) : List Relation :=
  (refs.filterMap cat.book.relationOf?).filter fun rel => !(cat.hops rel).isEmpty

theorem joining_cons (cat : Catalog) (ref : RelationRef) (refs : List RelationRef) :
    cat.joining (ref :: refs) = cat.joining [ref] ++ cat.joining refs := by
  rw [← List.singleton_append]
  simp only [joining, List.filterMap_append, List.filter_append]

/-- The relation that a condition needs, if it is applied to a column of one. -/
def needed? (cat : Catalog) (use : Use) (c : Condition) : Option RelationRef :=
  ((cat.applied? use c).bind (·.relation)).map fun relation => .named (.text relation)

end Catalog

/-- The relations that an action applies, in order. -/
def Action.applied (cat : Catalog) : Action → List RelationRef
  | filter raw limit => (cat.conditions .filter raw limit).filterMap (cat.needed? .filter)
  | sort raw limit => (cat.conditions .sort raw limit).filterMap (cat.needed? .sort)
  | action => action.refs

/-- The relations applied after an action, given those before. -/
def Catalog.addApplied (cat : Catalog) (rels : List Relation) : Action → List Relation
  | .reset => []
  | action => rels ++ cat.joining (action.applied cat)

/-- The relations with a hop that were applied since the session last started anew. -/
def Catalog.appliedSince (cat : Catalog) (actions : List Action) : List Relation :=
  actions.foldl cat.addApplied []

namespace Desk

variable {Q α : Type} {cat : Catalog} {entries : List String} {j : Joins}

theorem selected_addEntries {xs : List String} (h : j.selected = xs.eraseDups) :
    (addEntries entries j).selected = (xs ++ entries).eraseDups := by
  unfold addEntries
  induction entries generalizing j xs with
  | nil => simpa using h
  | cons e es ih =>
    have hone : (j.addEntry e).2.selected = (xs ++ [e]).eraseDups := by
      rw [← addNew_eraseDups, ← h]
      rfl
    rw [List.foldl_cons, ih hone, List.append_assoc, List.singleton_append]

theorem selection_concat (cat : Catalog) (rels : List Relation) (rel : Relation) :
    cat.selection (rels ++ [rel]) =
      (cat.listed rels ++ rel.entries.map normalizeEntry).eraseDups := by
  simp [Catalog.selection, Catalog.listed]

theorem selection_of_ne_nil {rels : List Relation} (h : cat.selection rels ≠ []) :
    cat.selection rels = (cat.listed rels).eraseDups := by
  unfold Catalog.selection at h ⊢
  split
  next hr => simp [hr] at h
  next => rfl

/-- Nothing is selected only where the relations have no entries, and nothing is visible, unless
there are none. -/
theorem listed_of_selection_nil {rels : List Relation} (h : cat.selection rels = []) :
    cat.listed rels = cat.visible := by
  unfold Catalog.selection at h
  split at h
  next hr => simp [Catalog.listed, List.isEmpty_iff.mp hr]
  next =>
    have hnil : cat.listed rels = [] := List.eq_nil_iff_forall_not_mem.mpr fun e hm =>
      List.not_mem_nil (h ▸ List.mem_eraseDups.mpr hm)
    rw [hnil]
    exact (List.append_eq_nil_iff.mp hnil).1.symm

theorem chosen_selection {rels : List Relation} {rel : Relation}
    (h : j.selected = cat.selection rels) :
    (chosen cat (rel.entries.map normalizeEntry) j).selected = cat.selection (rels ++ [rel]) := by
  rw [selection_concat]
  unfold chosen
  by_cases he : j.selected.isEmpty
  · have hnone : j.selected = [] := List.isEmpty_iff.mp he
    have hvisible : (addEntries cat.visible j).selected = cat.visible.eraseDups :=
      selected_addEntries (hnone.trans List.eraseDups_nil.symm)
    simp only [he, ↓reduceIte, listed_of_selection_nil (h ▸ hnone)]
    exact selected_addEntries hvisible
  · have hsome : j.selected ≠ [] := fun hn => he (List.isEmpty_iff.mpr hn)
    simp only [he, Bool.false_eq_true, ↓reduceIte]
    exact selected_addEntries (h.trans (selection_of_ne_nil (h ▸ hsome)))

theorem selection_of_settled {rels : List Relation} {rel : Relation}
    (hs : cat.selection rels ≠ [])
    (he : ∀ entry ∈ rel.entries.map normalizeEntry, entry ∈ cat.selection rels) :
    cat.selection (rels ++ [rel]) = cat.selection rels := by
  rw [selection_of_ne_nil hs] at he ⊢
  rw [selection_concat]
  exact eraseDups_append_of_subset fun e hm => List.mem_eraseDups.mp (he e hm)

theorem nodup_selection (cat : Catalog) (rels : List Relation) : (cat.selection rels).Nodup := by
  unfold Catalog.selection
  split
  next => exact List.nodup_nil
  next => exact nodup_eraseDups _

section Ready

variable [QueryTarget Q] {selected : List String} {rels : List Relation} {rel : Relation}
variable {ref : RelationRef}

/-- An open session that selects these entries, with a query that takes every call. -/
structure Ready (cat : Catalog) (selected : List String) (d : Desk Q) : Prop where
  memory : cat.book.Reaches d.memory
  isOpen : d.session.isOpen = true
  willing : Willing d.session.query
  selected : d.session.joins.selected = selected

def Smooth (cat : Catalog) (selected : List String) (step : Build Q α) : Prop :=
  Ends (Ready cat selected) step (fun _ => Ready cat selected) fun _ => False

theorem smooth_issue (c : Call) : Smooth (Q := Q) cat selected (issue c) := by
  intro d h
  obtain ⟨q, hq, hw⟩ := h.willing.call c
  rw [issue_of_ok hq]
  exact ⟨h.memory, h.isOpen, hw, h.selected⟩

theorem smooth_steps : Steps (Q := Q) (Smooth cat selected) where
  pure _ := Ends.pure fun _ h => h
  bind := Ends.bind
  note _ _ h := ⟨h.memory, h.isOpen, h.willing, h.selected⟩
  enter := by
    intro d h
    have ho := h.isOpen
    simp only [enter, onSession, Session.enter, ho, ↓reduceIte]
    exact ⟨h.memory, rfl, h.willing, h.selected⟩

theorem ready_column {use : Use} {given : String} {next : Option FoundColumn → Build Q α}
    {R : α → Desk Q → Prop}
    (hn : Ends (Ready cat selected) (next (cat.columnOf? use given)) R fun _ => False) :
    Ends (Ready cat selected) (column cat use given >>= next) R fun _ => False := by
  intro d h
  obtain ⟨m, notes, hm, he⟩ := column_eq h.memory use given
  rw [bind_of_ok he]
  exact hn _ ⟨hm, h.isOpen, h.willing, h.selected⟩

theorem smooth_rules : Rules (Q := Q) cat (Smooth cat selected) where
  toSteps := smooth_steps
  column := ready_column

theorem smooth_joinRules : JoinRules (Q := Q) (Smooth cat selected) fun _ => True where
  toSteps := smooth_steps
  joins h d hd := h d.session.joins d hd
  change hf _ hd := ⟨hd.memory, hd.isOpen, hd.willing, (hf _).trans hd.selected⟩
  issue _ := smooth_issue _

theorem ready_selectEntries : Ends (Ready (Q := Q) cat (cat.selection rels))
    (selectEntries cat (rel.entries.map normalizeEntry))
    (fun _ => Ready cat (cat.selection (rels ++ [rel]))) fun _ => False := by
  intro d h
  obtain ⟨d₀, hs, hm, he⟩ := selectEntries_eq cat (rel.entries.map normalizeEntry) d
  have hready : Ready cat (cat.selection (rels ++ [rel]))
      (d₀.withJoins (chosen cat (rel.entries.map normalizeEntry) d.session.joins)) := by
    refine ⟨hm ▸ h.memory, ?_, ?_, chosen_selection h.selected⟩
    · change d₀.session.isOpen = true
      exact hs ▸ h.isOpen
    · change Willing d₀.session.query
      exact hs ▸ h.willing
  rw [he]
  by_cases hn : (chosen cat (rel.entries.map normalizeEntry) d.session.joins).selected.isEmpty
  · simp only [hn, ↓reduceIte]
    exact hready
  · simp only [hn, Bool.false_eq_true, ↓reduceIte]
    exact smooth_issue _ _ hready

theorem ready_route (named : ∀ kind, ref ≠ .unnameable kind) {d : Desk Q}
    (h : Ready cat selected d) :
    ∃ d', route cat ref d = .ok (cat.book.route ref) d' ∧ Ready cat selected d' := by
  have hok : ∃ r d', route cat ref d = .ok r d' := by
    cases ref with
    | named name => exact ⟨_, _, rfl⟩
    | inline rel => exact ⟨_, _, rfl⟩
    | unnameable kind => exact absurd rfl (named kind)
  obtain ⟨r, d', hr⟩ := hok
  obtain ⟨rfl, hs, hm⟩ := route_of_ok h.memory hr
  exact ⟨d', hr, hm, hs ▸ h.isOpen, hs ▸ h.willing, hs ▸ h.selected⟩

theorem ready_join (ref : RelationRef) (named : ∀ kind, ref ≠ .unnameable kind) :
    Ends (Ready (Q := Q) cat (cat.selection rels)) (join cat ref)
      (fun _ => Ready cat (cat.selection (rels ++ cat.joining [ref]))) fun _ => False := by
  refine Ends.bind (R := fun _ => Ready cat (cat.selection (rels ++ cat.joining [ref]))) ?_
    fun _ => Ends.pure fun _ h => h
  intro d h
  obtain ⟨d₁, hr, h₁⟩ := ready_route named h
  rw [applyRelation_eq hr]
  cases known : cat.book.relationOf? ref with
  | none =>
    have hnone : cat.joining [ref] = [] := by simp [Catalog.joining, known]
    simpa only [hnone, List.append_nil] using h₁
  | some rel =>
    have hhops := Catalog.hops_of_relationOf? known
    by_cases hn : cat.hops rel = []
    · have hnone : cat.joining [ref] = [] := by simp [Catalog.joining, known, hn]
      simpa only [hhops, hn, List.isEmpty_nil, Bool.true_or, ↓reduceIte, hnone, List.append_nil]
        using h₁
    have hone : cat.joining [ref] = [rel] := by simp [Catalog.joining, known, hn]
    simp only [hhops, List.isEmpty_eq_false_iff.mpr hn, Bool.false_or, hone]
    by_cases hskip :
        isSettled d₁.session.joins (cat.book.route ref) (rel.entries.map normalizeEntry)
    · simp only [hskip, ↓reduceIte]
      simp only [isSettled, Bool.and_eq_true, Bool.not_eq_true', List.all_eq_true,
        decide_eq_true_eq, h₁.selected] at hskip
      obtain ⟨⟨hsome, -⟩, hentries⟩ := hskip
      have hsame := selection_of_settled (List.isEmpty_eq_false_iff.mp hsome) hentries
      exact ⟨h₁.memory, h₁.isOpen, h₁.willing, h₁.selected.trans hsame.symm⟩
    · simp only [hskip, Bool.false_eq_true, ↓reduceIte]
      have hjoins : Smooth (Q := Q) cat (cat.selection (rels ++ [rel]))
          (joinHops cat rel (cat.book.route ref).joinKind true (cat.hops rel)) :=
        smooth_joinRules.joinHops (fun _ _ => trivial) fun _ _ _ _ _ => trivial
      exact (smooth_steps.enter.bind fun _ => ready_selectEntries.bind fun _ =>
        hjoins.bind fun _ => smooth_steps.pure _) d₁ h₁

theorem ready_joinAll (refs : List RelationRef) :
    Ends (Ready (Q := Q) cat (cat.selection rels)) (joinAll cat refs)
      (fun _ => Ready cat (cat.selection (rels ++ cat.joining refs))) fun _ => False := by
  induction refs generalizing rels with
  | nil => exact Ends.pure fun d h => by simpa [Catalog.joining] using h
  | cons ref refs ih =>
    rw [Catalog.joining_cons, ← List.append_assoc]
    have hskip : ∀ ref, cat.book.relationOf? ref = none → cat.joining [ref] = [] := by
      intro ref h
      simp [Catalog.joining, h]
    cases ref with
    | named name =>
      cases name with
      | text s => exact (ready_join (.named (.text s)) (by simp)).bind fun _ => ih
      | null | bool _ | int _ | real _ =>
        rw [hskip _ rfl, List.append_nil]
        exact ih
    | inline rel => exact (ready_join (.inline rel) (by simp)).bind fun _ => ih
    | unnameable kind =>
      rw [hskip _ rfl, List.append_nil]
      exact ih

section Work

variable {use : Use} {compile : String → String → Option α} {send : α → Build Q Unit}

theorem ready_work (hcompile : ∀ column e, (compile column e).isSome = use.compiles e)
    (hsend : ∀ selected column e a, compile column e = some a → Smooth cat selected (send a))
    (segments : List Segment) :
    Ends (Ready cat (cat.selection rels)) (work cat use compile send segments)
      (fun _ => Ready cat (cat.selection (rels ++
        cat.joining ((segments.filterMap Segment.condition?).filterMap (cat.needed? use)))))
      fun _ => False := by
  induction segments generalizing rels with
  | nil => exact Ends.pure fun d h => by simpa [Catalog.joining] using h
  | cons segment rest ih =>
    cases segment with
    | malformed text => exact (smooth_steps.note _).bind fun _ => ih
    | condition c =>
      simp only [List.filterMap_cons, Segment.condition?]
      refine ready_column ?_
      cases hf : cat.columnOf? use c.column with
      | none =>
        have hneeded : cat.needed? use c = none := by
          simp [Catalog.needed?, Catalog.applied?, hf]
        rw [hneeded]
        exact (smooth_steps.note _).bind fun _ => ih
      | some found =>
        have hneeded : cat.needed? use c = if (compile found.column c.expression).isSome then
            found.relation.map fun relation => .named (.text relation) else none := by
          simp only [Catalog.needed?, Catalog.applied?, hf, Option.filter, hcompile]
          split <;> rfl
        cases ha : compile found.column c.expression with
        | none =>
          simp only [hneeded, ha, Option.isSome_none, Bool.false_eq_true, ↓reduceIte]
          exact (smooth_steps.note _).bind fun _ => ih
        | some a =>
          simp only [hneeded, ha, Option.isSome_some, ↓reduceIte]
          have hrest : ∀ rels, Ends (Ready cat (cat.selection rels)) (do
              enter
              send a
              let applied ← work cat use compile send rest
              return a :: applied : Build Q (List α)) (fun _ => Ready cat (cat.selection (rels ++
                cat.joining ((rest.filterMap Segment.condition?).filterMap (cat.needed? use)))))
              fun _ => False :=
            fun rels => smooth_steps.enter.bind fun _ => (hsend _ _ _ a ha).bind fun _ =>
              ih.bind fun _ => Ends.pure fun _ h => h
          refine (smooth_steps.note _).bind fun _ => ?_
          cases found.relation with
          | none => exact hrest rels
          | some relation =>
            rw [Option.map_some, Catalog.joining_cons, ← List.append_assoc]
            exact (ready_join (.named (.text relation)) (by simp)).bind fun _ => hrest _

theorem ready_workText (hcompile : ∀ column e, (compile column e).isSome = use.compiles e)
    (hsend : ∀ selected column e a, compile column e = some a → Smooth cat selected (send a))
    (raw : Option String) (limit : Option Int) {d : Desk Q} (h : Ready cat (cat.selection rels) d) :
    Ready cat (cat.selection (rels ++
        cat.joining ((cat.conditions use raw limit).filterMap (cat.needed? use))))
      (after (workText cat use compile send raw limit) d) := by
  unfold workText
  cases hscan : Segment.scan cat.separator (some (limit.getD (cat.limit use))) (raw.getD "") with
  | error e =>
    rw [(Catalog.conditions_of_scan_error hscan).2, List.filterMap_nil]
    have hnone : cat.joining [] = [] := rfl
    rw [hnone, List.append_nil]
    exact h
  | ok segments =>
    rw [Catalog.conditions_of_scan hscan]
    exact (ready_work hcompile hsend segments).after_of_false h

end Work

theorem smooth_sendPredicate {column e : String} {p : Predicate}
    (hp : Predicate.compile column e = some p) :
    Smooth (Q := Q) cat selected (sendPredicate p) := by
  obtain ⟨calls, hc⟩ := calls_ok hp
  unfold sendPredicate
  rw [hc]
  have hrules : Rules (Q := Q) cat (Smooth cat selected) := smooth_rules
  exact hrules.issueAll fun c _ => smooth_issue c

theorem ready_perform (make : Nat → Q) {action : Action} (hr : action ≠ .reset) {d : Desk Q}
    (h : Ready cat (cat.selection rels) d) :
    Ready cat (cat.selection (rels ++ cat.joining (action.applied cat)))
      (after (action.perform cat make) d) := by
  cases action with
  | filter raw limit =>
    rw [Action.perform, after_discard]
    exact ready_workText (fun _ _ => Option.isSome_map) (fun _ _ _ _ => smooth_sendPredicate)
      raw limit h
  | sort raw limit =>
    rw [Action.perform, after_discard]
    exact ready_workText (fun _ _ => Option.isSome_map) (fun _ _ _ _ _ => smooth_issue _)
      raw limit h
  | search term =>
    have hsearch : Smooth cat (cat.selection rels) (search (Q := Q) cat term) :=
      smooth_rules.search fun s c _ => smooth_issue c
    have hnone : rels ++ cat.joining ((Action.search term).applied cat) = rels :=
      List.append_nil rels
    rw [hnone]
    exact hsearch.after_of_false h
  | join ref =>
    by_cases named : ∀ kind, ref ≠ .unnameable kind
    · exact (ready_join ref named).after_of_false h
    · obtain ⟨kind, rfl⟩ : ∃ kind, ref = .unnameable kind := by simpa using named
      have hnone : rels ++ cat.joining [.unnameable kind] = rels := List.append_nil rels
      change Ready cat (cat.selection (rels ++ cat.joining [.unnameable kind])) d
      rw [hnone]
      exact h
  | joins refs => exact (ready_joinAll refs).after_of_false h
  | reset => exact absurd rfl hr

theorem ready_opened {make : Nat → Q} (willing : ∀ n, Willing (make n)) {m : Memory}
    (hm : cat.book.Reaches m) : Ready cat (cat.selection []) (opened make m) :=
  ⟨hm, rfl, willing 0, rfl⟩

theorem ready_reset {make : Nat → Q} (willing : ∀ n, Willing (make n)) {d : Desk Q}
    (h : Ready cat selected d) : Ready cat (cat.selection []) (after (reset make) d) := by
  obtain ⟨⟨phase, query, joins, made⟩, memory, reads, notes⟩ := d
  obtain ⟨hm, ho, -, -⟩ := h
  cases phase with
  | executed => cases ho
  | fresh => exact ⟨hm, rfl, willing _, rfl⟩
  | building => exact ⟨hm, rfl, willing _, rfl⟩

theorem ready_run {make : Nat → Q} (willing : ∀ n, Willing (make n)) (actions : List Action)
    {d : Desk Q} (h : Ready cat (cat.selection rels) d) :
    Ready cat (cat.selection (actions.foldl cat.addApplied rels)) (run cat make actions d) := by
  unfold run
  induction actions generalizing rels d with
  | nil => exact h
  | cons action actions ih =>
    rw [List.foldl_cons, List.foldl_cons]
    refine ih ?_
    cases action with
    | reset => exact ready_reset willing h
    | filter | sort | search | join | joins => exact ready_perform make (by simp) h

end Ready

/-- What a query with a log keeps of the session: the last selection that it got is that of the
session, and while the session is fresh there is nothing to keep. -/
structure Recalls (d : Desk (Logged Q)) : Prop where
  last : (d.log.filterMap (·.call.selected?)).getLast? =
    if d.session.joins.selected.isEmpty then none else some d.session.joins.selected
  fresh : d.session.phase = .fresh → d.session.joins = {} ∧ d.log = []

def selectionless : Asks where
  relation _ := True
  call _ c := c.selected? = none

theorem Action.asks_within_selectionless (action : Action) :
    (action.asks cat).Within selectionless := by
  refine action.asks_within (fun _ => trivial) (fun _ _ _ => selected?_of_tests) (fun _ _ _ => rfl)
    fun _ _ c hc => ?_
  obtain ⟨column, v, rfl | rfl⟩ := of_mem_searchCalls hc <;> rfl

section Recalls

variable [QueryTarget Q] {d d' : Desk (Logged Q)}

theorem Recalls.sends {c : Call} {f : Joins → Joins} (h : Recalls d) (hs : Sends c f d d')
    (hc : c.selected? = none) (hf : ∀ j, (f j).selected = j.selected) : Recalls d' := by
  obtain ⟨taken, hl, hj⟩ := hs.log
  have hsame : d'.session.joins.selected = d.session.joins.selected := by
    rw [hj]
    cases taken with
    | true => exact hf _
    | false => rfl
  refine ⟨?_, fun hp => ?_⟩
  · rw [hsame, hl]
    simpa [hc] using h.last
  · rw [hs.building.2] at hp
    cases hp

theorem Recalls.turn {make : Nat → Q} (ht : Turn cat selectionless (Logged.of make) d d')
    (h : Recalls d) : Recalls d' := by
  cases ht with
  | restart _ hq hj =>
    have hl : d'.log = [] := by
      unfold Desk.log
      rw [hq]
      rfl
    exact ⟨by simp [hl, hj], fun _ => ⟨hj, hl⟩⟩
  | move hm =>
    cases hm with
    | aside hs =>
      have hl : d'.log = d.log := by
        unfold Desk.log
        rw [hs]
      exact ⟨by rw [hl, hs]; exact h.last, by rw [hl, hs]; exact h.fresh⟩
    | enter => exact ⟨h.last, nofun⟩
    | call ha hs => exact h.sends hs ha fun _ => rfl
    | relation _ _ hr =>
      cases hr with
      | @select j hj hn hs =>
        obtain ⟨taken, hl, hsame⟩ := hs.log
        have hkept : d'.session.joins = j := by
          rw [hsame]
          cases taken <;> rfl
        refine ⟨?_, fun hp => ?_⟩
        · rw [hkept, hl]
          simp [Call.selected?, List.isEmpty_eq_false_iff.mpr hn]
        · rw [hs.building.2] at hp
          cases hp
      | join _ hs => exact h.sends hs rfl fun _ => rfl
      | guard _ _ _ _ _ hs => exact h.sends hs rfl fun _ => rfl

end Recalls

/-- As long as the queries of a session take every call, the session selects the visible columns
and the entries of the relations applied since it last started anew, in order and each once. The
last selection that its query got is this one, and there was none while it is empty. A fresh
session has joined nothing, and its query got no call. -/
theorem selected_in_order [QueryTarget Q] {make : Nat → Q} (willing : ∀ n, Willing (make n))
    (actions : List Action) {m : Memory} (hm : cat.book.Reaches m) :
    let d := run cat (Logged.of make) actions (opened (Logged.of make) m)
    let selected := d.session.joins.selected
    selected = cat.selection (cat.appliedSince actions) ∧ selected.Nodup ∧
      (d.log.filterMap (·.call.selected?)).getLast? =
        (if selected.isEmpty then none else some selected) ∧
      (d.session.phase = .fresh → d.session.joins = {} ∧ d.log = []) := by
  intro d selected
  have hready : Ready cat (cat.selection (cat.appliedSince actions)) d :=
    ready_run (fun n => Logged.willing (willing n)) actions
      (ready_opened (fun n => Logged.willing (willing n)) hm)
  have hstart : Recalls (opened (Logged.of make) m) := ⟨rfl, fun _ => ⟨rfl, rfl⟩⟩
  have hrecalls : Recalls d :=
    (run_keeps_of actions (fun action _ => Action.asks_within_selectionless action)
      (fun _ _ ht h => h.turn ht) hm hstart).1
  have hselected : selected = cat.selection (cat.appliedSince actions) := hready.selected
  exact ⟨hselected, hselected ▸ nodup_selection cat _, hrecalls.last, hrecalls.fresh⟩

def photosThenRoles : List Action :=
  [.join (.named (.text "role")), .reset, .filter photoText none,
    .joins [.named (.text "role"), .named (.text "profile"), .named .null]]

theorem selected_in_order_users :
    Willing ({} : Recorder) ∧ Catalog.ofUsers.book.Reaches {} ∧
      ((usersAfter photosThenRoles).log.filterMap (·.call.selected?)).getLast? =
        some ["users.id", "users.name", "user_pictures.path as photo", "roles.title as role"] := by
  have willing : Willing ({} : Recorder) := willing_recorder rfl
  have hm : Catalog.ofUsers.book.Reaches {} := .empty
  obtain ⟨hselected, -, hlast, -⟩ := selected_in_order (fun _ => willing) photosThenRoles hm
  have happlied : Catalog.ofUsers.selection (Catalog.ofUsers.appliedSince photosThenRoles) =
      ["users.id", "users.name", "user_pictures.path as photo", "roles.title as role"] := by
    decide +kernel
  rw [hselected, happlied] at hlast
  exact ⟨willing, hm, hlast⟩

end Desk

end Winnow
