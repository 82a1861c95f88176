import Winnow.Proofs.PredicateCalls
import Winnow.Proofs.RelationJoin
import Winnow.Proofs.SeparatedText

namespace Winnow

namespace Catalog

/-- The conditions that are read from a text: of its pieces, the first ones that are well-formed.
-/
def conditions (cat : Catalog) (use : Use) (raw : Option String) (limit : Option Int) :
    List Condition :=
  match splitOn? cat.separator (raw.getD "") with
  | some pieces => (pieces.filterMap fun piece => (Segment.read piece).condition?).take
      (limit.getD (cat.limit use)).toNat
  | none => []

theorem conditions_of_scan {cat : Catalog} {use : Use} {raw : Option String} {limit : Option Int}
    {segments : List Segment}
    (h : Segment.scan cat.separator (some (limit.getD (cat.limit use))) (raw.getD "") =
      .ok segments) :
    cat.conditions use raw limit = segments.filterMap Segment.condition? := by
  unfold conditions
  unfold Segment.scan at h
  split at h
  next hskip =>
    cases h
    rw [List.filterMap_nil]
    split
    next pieces hp =>
      rcases Bool.or_eq_true _ _ ▸ hskip with hraw | hlimit
      · rw [decide_eq_true_eq] at hraw
        rw [hraw] at hp
        rw [eq_of_splitOn?_empty hp]
        simp [Segment.read, halves, cutList, Segment.condition?]
      · have hn : limit.getD (cat.limit use) < 1 := by simpa using hlimit
        rw [show (limit.getD (cat.limit use)).toNat = 0 by omega, List.take_zero]
    next => rfl
  next =>
    split at h
    next => cases h
    next pieces hp =>
      cases h
      rw [hp]
      simp only [Segment.within, Segment.conditions_upTo, List.filterMap_map]
      rfl

theorem conditions_of_scan_error {cat : Catalog} {use : Use} {raw : Option String}
    {limit : Option Int} {e : Failure}
    (h : Segment.scan cat.separator (some (limit.getD (cat.limit use))) (raw.getD "") = .error e) :
    e = .emptySeparator ∧ cat.conditions use raw limit = [] := by
  unfold Segment.scan at h
  unfold conditions
  split at h
  next => cases h
  next =>
    split at h
    next hs =>
      cases h
      rw [hs]
      exact ⟨rfl, rfl⟩
    next => cases h

def tablesOf (cat : Catalog) (found : FoundColumn) : List String :=
  match found.relation with
  | some relation => (cat.book.route (.named (.text relation))).hops.map (·.toTable)
  | none => []

end Catalog

/-- The call that an order sends. -/
def Order.sent (o : Order) : List Call := [.orderBy o.column o.direction.name]

namespace Desk

variable {Q α : Type}

/-- A condition of a list that is applied, the column behind it and what its expression says. -/
structure Applied (cat : Catalog) (use : Use) (compile : String → String → Option α)
    (conditions : List Condition) (c : Condition) (found : FoundColumn) (a : α) : Prop where
  read : c ∈ conditions
  resolved : cat.columnOf? use c.column = some found
  compiled : compile found.column c.expression = some a

def textAsks (cat : Catalog) (use : Use) (compile : String → String → Option α)
    (sent : α → List Call) (conditions : List Condition) : Asks where
  relation ref := ∃ c found a relation, Applied cat use compile conditions c found a ∧
    found.relation = some relation ∧ ref = .named (.text relation)
  call j call := ∃ c found a, Applied cat use compile conditions c found a ∧ call ∈ sent a ∧
    cat.tablesOf found ⊆ j.joined

def filterAsks (cat : Catalog) (raw : Option String) (limit : Option Int) : Asks :=
  textAsks cat .filter Predicate.compile Predicate.sent (cat.conditions .filter raw limit)

def sortAsks (cat : Catalog) (raw : Option String) (limit : Option Int) : Asks :=
  textAsks cat .sort Order.compile Order.sent (cat.conditions .sort raw limit)

variable [QueryTarget Q] {cat : Catalog} {asks : Asks} {T : List String}

omit [QueryTarget Q] in
/-- Whatever was asked before, the column behind a reference is the one that it has without a
memory. -/
theorem column_eq {d : Desk Q} (hm : cat.book.Reaches d.memory) (use : Use) (given : String) :
    ∃ m notes, cat.book.Reaches m ∧ column cat use given d =
      .ok (cat.columnOf? use given) { d with memory := m, notes := notes } := by
  obtain ⟨ha, hr⟩ := RelationBook.column_answer hm use (cat.allowed use) given
  exact ⟨_, _, hr, congrArg (EStateM.Result.ok · _) ha⟩

theorem goes_column (use : Use) (given : String) :
    Goes (Move (Q := Q) cat asks) (Has cat T) (column cat use given)
      (fun found d => found = cat.columnOf? use given ∧ Has cat T d) := by
  intro d hd
  obtain ⟨m, notes, hm, he⟩ := column_eq hd.memory use given
  rw [he]
  exact ⟨.single (.aside rfl fun _ => hm), rfl, hm, hd.joined⟩

theorem goes_issueAll {calls : List Call} (h : ∀ j, T ⊆ j.joined → ∀ c ∈ calls, asks.call j c) :
    Goes (Move (Q := Q) cat asks) (Builds cat T) (issueAll calls) (fun _ => Builds cat T) := by
  induction calls with
  | nil => exact Goes.pure fun _ hd => hd
  | cons c calls ih =>
    have hone := goes_issue (Q := Q) (M := Move cat asks) (P := Builds cat T) (c := c)
      (fun d hd => hd.building) (fun d d' hd hs => .call (h _ hd.joined c (by simp)) hs)
      (fun d q hd => ⟨⟨hd.memory, hd.joined⟩, hd.building⟩)
    exact hone.bind fun _ => ih fun j hj c hc => h j hj c (by simp [hc])

theorem goes_sendPredicate {p : Predicate}
    (h : ∀ j, T ⊆ j.joined → ∀ c ∈ p.sent, asks.call j c) :
    Goes (Move (Q := Q) cat asks) (Builds cat T) (sendPredicate p) (fun _ => Has cat []) := by
  unfold sendPredicate
  unfold Predicate.sent at h
  cases hc : p.calls with
  | error e => exact fun d _ => .refl
  | ok calls =>
    simp only [hc] at h
    exact (goes_issueAll h).weaken (fun _ hd => hd) fun _ _ hd => hd.toHas.mono (List.nil_subset _)

theorem goes_sendOrder {o : Order} (h : ∀ j, T ⊆ j.joined → ∀ c ∈ o.sent, asks.call j c) :
    Goes (Move (Q := Q) cat asks) (Builds cat T) (sendOrder o) (fun _ => Has cat []) :=
  (goes_issue (fun _ hd => hd.building)
    (fun _ _ hd hs => .call (h _ hd.joined _ (by simp [Order.sent])) hs)
    (fun _ _ hd => ⟨⟨hd.memory, hd.joined⟩, hd.building⟩)).weaken (fun _ hd => hd)
      fun _ _ hd => hd.toHas.mono (List.nil_subset _)

section Work

variable {use : Use} {compile : String → String → Option α} {sent : α → List Call}
variable {send : α → Build Q Unit} {conditions : List Condition}

theorem goes_work
    (hsend : ∀ a T, (∀ j, T ⊆ j.joined → ∀ c ∈ sent a,
        (textAsks cat use compile sent conditions).call j c) →
      Goes (Move cat (textAsks cat use compile sent conditions)) (Builds cat T) (send a)
        (fun _ => Has cat []))
    {segments : List Segment} (hread : ∀ c, .condition c ∈ segments → c ∈ conditions) :
    Goes (Move cat (textAsks cat use compile sent conditions)) (Has cat [])
      (work cat use compile send segments) (fun _ => Has cat []) := by
  induction segments with
  | nil => exact Goes.pure fun _ hd => hd
  | cons s rest ih =>
    have hrest := ih fun c hc => hread c (by simp [hc])
    cases s with
    | malformed text => exact (goes_note_has _).bind fun _ => hrest
    | condition c =>
      refine (goes_column use c.column).bindValue ?_
      cases hf : cat.columnOf? use c.column with
      | none => exact (goes_note_has _).bind fun _ => hrest
      | some found =>
        cases hc : compile found.column c.expression with
        | none =>
          simp only [hc]
          exact (goes_note_has _).bind fun _ => hrest
        | some a =>
          simp only [hc]
          have happlied : Applied cat use compile conditions c found a :=
            ⟨hread c (by simp), hf, hc⟩
          have hsent := hsend a (cat.tablesOf found)
            fun j hj call hcall => ⟨c, found, a, happlied, hcall, hj⟩
          have htail := goes_enter.bind fun _ => hsent.bind fun _ => hrest.bind fun applied =>
            Goes.pure (a := a :: applied) (R := fun _ => Has cat []) fun _ hd => hd
          refine (goes_note_has _).bind fun _ => ?_
          cases hr : found.relation with
          | none => simpa only [Catalog.tablesOf, hr] using htail
          | some relation =>
            simp only [Catalog.tablesOf, hr] at htail
            have hjoin : Goes (Move (Q := Q) cat (textAsks cat use compile sent conditions))
                (Has cat []) (join cat (.named (.text relation))) _ :=
              goes_join ⟨c, found, a, relation, happlied, hr, rfl⟩
            exact hjoin.bind fun _ => htail.weaken (fun _ hd => hd.mono (by simp)) fun _ _ hd => hd

theorem goes_workText {raw : Option String} {limit : Option Int}
    (hsend : ∀ a T, (∀ j, T ⊆ j.joined → ∀ c ∈ sent a,
        (textAsks cat use compile sent (cat.conditions use raw limit)).call j c) →
      Goes (Move cat (textAsks cat use compile sent (cat.conditions use raw limit))) (Builds cat T)
        (send a) (fun _ => Has cat [])) :
    Goes (Move cat (textAsks cat use compile sent (cat.conditions use raw limit))) (Has cat [])
      (workText cat use compile send raw limit) (fun _ => Has cat []) := by
  unfold workText
  cases hs : Segment.scan cat.separator (some (limit.getD (cat.limit use))) (raw.getD "") with
  | error e => exact fun d _ => .refl
  | ok segments =>
    refine goes_work hsend fun c hc => ?_
    rw [Catalog.conditions_of_scan hs]
    exact List.mem_filterMap.mpr ⟨.condition c, hc, rfl⟩

end Work

theorem goes_filter (raw : Option String) (limit : Option Int) :
    Goes (Move (Q := Q) cat (filterAsks cat raw limit)) (Has cat []) (filter cat raw limit)
      (fun _ => Has cat []) :=
  goes_workText fun _ _ h => goes_sendPredicate h

theorem goes_sort (raw : Option String) (limit : Option Int) :
    Goes (Move (Q := Q) cat (sortAsks cat raw limit)) (Has cat []) (sort cat raw limit)
      (fun _ => Has cat []) :=
  goes_workText fun _ _ h => goes_sendOrder h

theorem goes_search {term : Option String}
    (h : ∀ s, term = some s → ∀ j, ∀ c ∈ searchCalls cat s, asks.call j c) :
    Goes (Move (Q := Q) cat asks) (Has cat []) (search cat term) (fun _ => Has cat []) := by
  unfold search
  cases term with
  | none => exact Goes.pure fun _ hd => hd
  | some s =>
    simp only
    split
    next => exact Goes.pure fun _ hd => hd
    next =>
      exact (goes_enter.bind fun _ => goes_issueAll fun j _ c hc => h s rfl j c hc).weaken
        (fun _ hd => hd) fun _ _ hd => hd.toHas

end Desk

end Winnow
