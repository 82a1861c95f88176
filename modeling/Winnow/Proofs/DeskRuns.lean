import Winnow.Proofs.CallLog
import Winnow.Proofs.TextConditions

open Relation (ReflTransGen)

namespace Winnow

variable {Q : Type}

/-- The table that a call joins. -/
def Call.joined? : Call → Option String
  | join table _ _ _ _ => some table
  | _ => none

inductive Action where
  | filter (raw : Option String) (limit : Option Int)
  | sort (raw : Option String) (limit : Option Int)
  | search (term : Option String)
  | join (ref : RelationRef)
  | joins (refs : List RelationRef)
  | reset

/-- What an action does; `make` makes the queries of the session. -/
def Action.perform [QueryTarget Q] (cat : Catalog) (make : Nat → Q) : Action → Build Q Unit
  | filter raw limit => do let _ ← Desk.filter cat raw limit
  | sort raw limit => do let _ ← Desk.sort cat raw limit
  | search term => Desk.search cat term
  | join ref => Desk.join cat ref
  | joins refs => Desk.joinAll cat refs
  | reset => Desk.reset make

/-- Users with their pictures, some of them trashed, with their roles and with those of the
pictures. -/
def Catalog.ofUsers : Catalog where
  book := ⟨"users",
    [("profile", { chain := [("users.pic_id", "user_pictures.id")]
                   entries := ["user_pictures.path AS photo"], filterable := ["photo"] }),
      ("avatar", { chain := [("users.pic_id", "user_pictures.id")]
                   softDelete := ["user_pictures"] }),
      ("role", { chain := [("users.role_id", "roles.id")], entries := ["roles.title AS role"] }),
      ("pictureRole", { chain := [("users.pic_id", "user_pictures.id"),
                          ("user_pictures.role_id", "roles.id")]
                        softDelete := ["user_pictures"] })]⟩
  filterable := ["id"]
  sortable := ["id"]
  visible := ["users.id", "users.name"]

namespace Desk

/-- A desk with a new session and a memory. -/
def opened (make : Nat → Q) (memory : Memory) : Desk Q where
  session := Session.new make
  memory := memory

/-- The desk after some actions. -/
def run [QueryTarget Q] (cat : Catalog) (make : Nat → Q) (actions : List Action) (d : Desk Q) :
    Desk Q :=
  actions.foldl (fun d action => after (action.perform cat make) d) d

def usersAfter (actions : List Action) : Desk (Logged Recorder) :=
  run .ofUsers (Logged.of fun _ => {}) actions (opened (Logged.of fun _ => {}) {})

def anyAsks : Asks where
  relation _ := True
  call _ c := c.joined? = none

theorem joined?_of_tests {column : String} {c : Call} (h : c.Tests column) : c.joined? = none := by
  cases h <;> rfl

theorem of_mem_searchCalls {cat : Catalog} {term : String} {c : Call}
    (h : c ∈ searchCalls cat term) :
    ∃ column v, c = .filter column "like" v ∨ c = .orFilter column "like" v := by
  unfold searchCalls at h
  split at h
  next => simp at h
  next =>
    rcases List.mem_cons.mp h with rfl | h
    · exact ⟨_, _, Or.inl rfl⟩
    · obtain ⟨column, _, rfl⟩ := List.mem_map.mp h
      exact ⟨_, _, Or.inr rfl⟩

theorem joined?_of_mem_search {cat : Catalog} {term : String} {c : Call}
    (h : c ∈ searchCalls cat term) : c.joined? = none := by
  obtain ⟨column, v, rfl | rfl⟩ := of_mem_searchCalls h <;> rfl

theorem after_discard {α β : Type} (step : Build Q α) (b : β) (d : Desk Q) :
    after (do let _ ← step; return b) d = after step d := by
  unfold after
  cases h : step d with
  | ok a d' => rw [bind_of_ok h]; rfl
  | error e d' => rw [bind_of_error h]

end Desk

def Action.asks (cat : Catalog) : Action → Desk.Asks
  | filter raw limit => Desk.filterAsks cat raw limit
  | sort raw limit => Desk.sortAsks cat raw limit
  | search term => ⟨fun _ => False, fun _ c => ∃ s, term = some s ∧ c ∈ Desk.searchCalls cat s⟩
  | join ref => ⟨(· = ref), fun _ _ => False⟩
  | joins refs => ⟨(· ∈ refs), fun _ _ => False⟩
  | reset => ⟨fun _ => False, fun _ _ => False⟩

/-- What an action asks for is within what may be asked of any relation and of the calls that test,
order or search rows. -/
theorem Action.asks_within {cat : Catalog} {asks : Desk.Asks} (relation : ∀ ref, asks.relation ref)
    (tests : ∀ j column c, c.Tests column → asks.call j c)
    (orders : ∀ j column direction, asks.call j (.orderBy column direction))
    (searches : ∀ j term, ∀ c ∈ Desk.searchCalls cat term, asks.call j c) (action : Action) :
    (action.asks cat).Within asks := by
  refine ⟨fun ref _ => relation ref, ?_⟩
  intro j c h
  cases action with
  | filter raw limit =>
    obtain ⟨_, _, _, _, h, _⟩ := h
    exact tests j _ c (Predicate.tests_of_mem_sent h)
  | sort raw limit =>
    obtain ⟨_, _, _, _, h, _⟩ := h
    cases List.mem_singleton.mp h
    exact orders j _ _
  | search term =>
    obtain ⟨s, -, h⟩ := h
    exact searches j s c h
  | join ref => cases h
  | joins refs => cases h
  | reset => cases h

theorem Action.asks_within_any {cat : Catalog} (action : Action) :
    (action.asks cat).Within Desk.anyAsks :=
  action.asks_within (fun _ => trivial) (fun _ _ _ => Desk.joined?_of_tests) (fun _ _ _ => rfl)
    fun _ _ _ => Desk.joined?_of_mem_search

namespace Desk

variable [QueryTarget Q] {cat : Catalog} {make : Nat → Q}

/-- A move that is asked for, or a new start. -/
inductive Turn (cat : Catalog) (asks : Asks) (make : Nat → Q) (d d' : Desk Q) : Prop
  | move : Move cat asks d d' → Turn cat asks make d d'
  | restart : d'.memory = d.memory → d'.session.query = make d.session.made →
      d'.session.joins = {} → Turn cat asks make d d'

theorem moves_after {α : Type} {asks more : Asks} {step : Build Q α} {R : α → Desk Q → Prop}
    (hg : Goes (Move cat asks) (Has cat []) step R) (hw : asks.Within more) {d : Desk Q}
    (hm : cat.book.Reaches d.memory) : ReflTransGen (Turn cat more make) d (after step d) :=
  Relation.ReflTransGen.mono (fun _ _ h => .move (h.mono hw)) _ _
    (hg.after_moves ⟨hm, List.nil_subset _⟩)

theorem turns_reset {asks : Asks} (d : Desk Q) :
    ReflTransGen (Turn cat asks make) d (after (Desk.reset make) d) := by
  obtain ⟨⟨phase, query, joins, made⟩, memory, reads, notes⟩ := d
  cases phase with
  | executed => exact .refl
  | fresh => exact .single (.restart rfl rfl rfl)
  | building => exact .single (.restart rfl rfl rfl)

theorem goes_perform {action : Action} (hr : action ≠ .reset) :
    Goes (Move cat (action.asks cat)) (Has cat []) (action.perform cat make)
      (fun _ => Has cat []) := by
  cases action with
  | filter raw limit => exact (goes_filter raw limit).bind fun _ => Goes.pure fun _ h => h
  | sort raw limit => exact (goes_sort raw limit).bind fun _ => Goes.pure fun _ h => h
  | search term => exact goes_search fun s hs _ c hc => ⟨s, hs, hc⟩
  | join ref =>
    have hjoin : Goes (Move cat ((Action.join ref).asks cat)) (Has cat [])
        (Desk.join (Q := Q) cat ref) _ := goes_join rfl
    exact hjoin.weaken (fun _ h => h) fun _ _ h => h.mono (List.nil_subset _)
  | joins refs => exact goes_joinAll fun _ h => h
  | reset => exact absurd rfl hr

theorem turns_perform (action : Action) {asks : Asks} (hw : (action.asks cat).Within asks)
    {d : Desk Q} (hm : cat.book.Reaches d.memory) :
    ReflTransGen (Turn cat asks make) d (after (action.perform cat make) d) := by
  by_cases hr : action = .reset
  · subst hr
    exact turns_reset d
  · exact moves_after (goes_perform hr) hw hm

theorem moves_run (make : Nat → Q) {actions : List Action} (hr : Action.reset ∉ actions)
    {d : Desk Q}
    (hm : cat.book.Reaches d.memory) :
    ReflTransGen (Move cat anyAsks) d (run cat make actions d) ∧
      cat.book.Reaches (run cat make actions d).memory := by
  unfold run
  induction actions generalizing d with
  | nil => exact ⟨.refl, hm⟩
  | cons action actions ih =>
    have hne : action ≠ .reset := fun h => hr (by simp [h])
    have hown : Goes _ _ (action.perform cat make) _ := goes_perform hne
    have hone : ReflTransGen (Move cat anyAsks) d (after (action.perform cat make) d) :=
      Relation.ReflTransGen.mono (fun _ _ h => h.mono action.asks_within_any) _ _
        (hown.after_moves ⟨hm, List.nil_subset _⟩)
    have hreach : cat.book.Reaches (after (action.perform cat make) d).memory :=
      kept_of_moves (I := fun d => cat.book.Reaches d.memory) (fun _ _ h => h.reaches) hone hm
    obtain ⟨hrest, hlast⟩ := ih (fun h => hr (List.mem_cons_of_mem _ h)) hreach
    exact ⟨hone.trans hrest, hlast⟩

theorem run_keeps_of {asks : Asks} {I : Desk Q → Prop} (actions : List Action)
    (within : ∀ action ∈ actions, (action.asks cat).Within asks)
    (keeps : ∀ d d', Turn cat asks make d d' → I d → I d') {d : Desk Q}
    (hm : cat.book.Reaches d.memory) (hi : I d) :
    I (run cat make actions d) ∧ cat.book.Reaches (run cat make actions d).memory := by
  have hboth : ∀ d d', Turn cat asks make d d' → I d ∧ cat.book.Reaches d.memory →
      I d' ∧ cat.book.Reaches d'.memory := by
    intro d d' h ⟨hi, hm⟩
    refine ⟨keeps d d' h hi, ?_⟩
    cases h with
    | move h => exact h.reaches hm
    | restart h => exact h ▸ hm
  unfold run
  induction actions generalizing d with
  | nil => exact ⟨hi, hm⟩
  | cons action actions ih =>
    have hone : ReflTransGen (Turn cat asks make) d (after (action.perform cat make) d) :=
      turns_perform action (within action (by simp)) hm
    obtain ⟨hi', hm'⟩ := kept_of_moves hboth hone ⟨hi, hm⟩
    exact ih (fun a ha => within a (by simp [ha])) hm' hi'

theorem run_keeps {I : Desk Q → Prop} (keeps : ∀ d d', Turn cat anyAsks make d d' → I d → I d')
    (actions : List Action) {d : Desk Q} (hm : cat.book.Reaches d.memory) (hi : I d) :
    I (run cat make actions d) ∧ cat.book.Reaches (run cat make actions d).memory :=
  run_keeps_of actions (fun action _ => action.asks_within_any) keeps hm hi

theorem Unlogs.workText {α : Type} {use : Use} {compile : String → String → Option α}
    {send : α → Build (Logged Q) Unit} {plainSend : α → Build Q Unit}
    (hsend : ∀ a, Unlogs (send a) (plainSend a)) (raw : Option String) (limit : Option Int) :
    Unlogs (workText cat use compile send raw limit)
      (workText cat use compile plainSend raw limit) :=
  (Unlogs.ofExcept _).bind fun segments => Unlogs.work hsend segments

theorem Unlogs.perform (cat : Catalog) (make : Nat → Logged Q) (action : Action) :
    Unlogs (action.perform cat make) (action.perform cat fun n => (make n).query) := by
  cases action with
  | filter raw limit =>
    have hsend : ∀ p : Predicate,
        Unlogs (sendPredicate p : Build (Logged Q) Unit) (sendPredicate p) :=
      fun p => (Unlogs.ofExcept p.calls).bind Unlogs.issueAll
    exact (Unlogs.workText hsend raw limit).bind fun _ => Unlogs.pure ()
  | sort raw limit =>
    exact (Unlogs.workText (fun o => Unlogs.issue _) raw limit).bind fun _ => Unlogs.pure ()
  | search term =>
    cases term with
    | none => exact Unlogs.pure ()
    | some s => exact Unlogs.ite (Unlogs.pure ()) (Unlogs.enter.bind fun _ => Unlogs.issueAll _)
  | join ref => exact Unlogs.join cat ref
  | joins refs => exact Unlogs.joinAll cat refs
  | reset => exact Unlogs.reset make

theorem unlogged_run (make : Nat → Logged Q) (actions : List Action) (d : Desk (Logged Q)) :
    (run cat make actions d).unlogged =
      run cat (fun n => (make n).query) actions d.unlogged := by
  unfold run
  induction actions generalizing d with
  | nil => rfl
  | cons action actions ih =>
    have hone : (after (action.perform cat make) d).unlogged =
        after (action.perform cat fun n => (make n).query) d.unlogged := by
      unfold after
      rw [Unlogs.perform cat make action d]
      cases action.perform cat make d <;> rfl
    rw [List.foldl_cons, List.foldl_cons, ih, hone]

end Desk

end Winnow
