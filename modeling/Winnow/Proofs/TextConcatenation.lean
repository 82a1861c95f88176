import Winnow.Proofs.TextOutcome
import Winnow.Proofs.PairedRuns
import Winnow.Proofs.TextRoundTrip

namespace Winnow

variable {Q α : Type}

namespace Catalog

variable {cat : Catalog} {mark : Char} {use : Use} {a b : String} {limit : Option Int}

theorem conditions_of_mark (hmark : cat.separator = String.singleton mark) (text : String) :
    cat.conditions use (some text) limit =
      ((splitAt mark text).filterMap fun piece => (Segment.read piece).condition?).take
        (limit.getD (cat.limit use)).toNat := by
  unfold conditions
  rw [hmark, Option.getD_some, splitOn?_singleton]

theorem parse_of_mark (hmark : cat.separator = String.singleton mark) (text : String) :
    Condition.parse cat.separator none (some text) =
      .ok ((splitAt mark text).filterMap fun piece => (Segment.read piece).condition?) := by
  have hsplit : splitOn? cat.separator text = some (splitAt mark text) := by
    rw [hmark, splitOn?_singleton]
  rw [Condition.parse_of_splitOn? hsplit]
  simp only [Condition.granted, List.take_length, List.filterMap_map]
  rfl

theorem conditions_append (hmark : cat.separator = String.singleton mark)
    {conditions : List Condition}
    (hread : Condition.parse cat.separator none (some (a ++ cat.separator ++ b)) = .ok conditions)
    (hlimit : conditions.length ≤ limit.getD (cat.limit use)) :
    cat.conditions use (some (a ++ cat.separator ++ b)) limit =
      cat.conditions use (some a) limit ++ cat.conditions use (some b) limit := by
  rw [parse_of_mark hmark] at hread
  cases hread
  rw [hmark, splitAt_append, List.filterMap_append, List.length_append] at hlimit
  rw [conditions_of_mark hmark, conditions_of_mark hmark, conditions_of_mark hmark, hmark,
    splitAt_append, List.filterMap_append, List.take_of_length_le, List.take_of_length_le,
    List.take_of_length_le]
  · omega
  · omega
  · rw [List.length_append]
    omega

theorem compiled_append (hmark : cat.separator = String.singleton mark)
    {conditions : List Condition}
    (hread : Condition.parse cat.separator none (some (a ++ cat.separator ++ b)) = .ok conditions)
    (hlimit : conditions.length ≤ limit.getD (cat.limit use))
    (compile : String → String → Option α) :
    cat.compiled use compile (some (a ++ cat.separator ++ b)) limit =
      cat.compiled use compile (some a) limit ++ cat.compiled use compile (some b) limit := by
  unfold compiled
  rw [conditions_append hmark hread hlimit, List.filterMap_append]

end Catalog

namespace Desk

variable [QueryTarget Q]

def applyAll (cat : Catalog) (send : α → Build Q Unit) :
    List (FoundColumn × α) → Build Q (List α)
  | [] => pure []
  | (found, a) :: rest => do
    match found.relation with
    | some relation => join cat (.named (.text relation))
    | none => pure ()
    enter
    send a
    let applied ← applyAll cat send rest
    return a :: applied

variable {cat : Catalog} {use : Use} {compile : String → String → Option α}
variable {send : α → Build Q Unit}

theorem applyAll_append (xs ys : List (FoundColumn × α)) :
    applyAll cat send (xs ++ ys) = do
      let first ← applyAll cat send xs
      let second ← applyAll cat send ys
      return first ++ second := by
  induction xs with
  | nil => simp [applyAll]
  | cons x xs ih =>
    obtain ⟨found, a⟩ := x
    simp only [List.cons_append, applyAll, ih]
    cases found.relation with
    | none => simp
    | some relation => simp

/-- Two open desks with the same session, whose query takes every call. The books remember what
they were asked. -/
structure Beside (cat : Catalog) (d e : Desk Q) : Prop where
  session : e.session = d.session
  isOpen : d.session.isOpen = true
  willing : Willing d.session.query
  memory : cat.book.Reaches d.memory
  memory' : cat.book.Reaches e.memory

theorem beside_note (n : Note) {d e : Desk Q} (h : Beside cat d e) :
    ∃ d', note n d = .ok () d' ∧ Beside cat d' e :=
  ⟨_, rfl, h.session, h.isOpen, h.willing, h.memory, h.memory'⟩

theorem beside_column (use : Use) (given : String) {d e : Desk Q} (h : Beside cat d e) :
    ∃ d', column cat use given d = .ok (cat.columnOf? use given) d' ∧ Beside cat d' e := by
  obtain ⟨m, notes, hm, hok⟩ := column_eq h.memory use given
  exact ⟨_, hok, h.session, h.isOpen, h.willing, hm, h.memory'⟩

theorem beside_issue (c : Call) : Together (Beside (Q := Q) cat) (issue c) (issue c) Eq := by
  intro d e h
  obtain ⟨q, hq, hw⟩ := h.willing.call c
  have hq' : QueryTarget.call c e.session.query = .ok () q := by rw [h.session, hq]
  refine ⟨(), (), d.withQuery q, e.withQuery q, issue_of_ok hq, issue_of_ok hq', rfl, ?_,
    h.isOpen, hw, h.memory, h.memory'⟩
  simp only [withQuery, h.session]

theorem beside_route (name : RelationName) : Together (Beside (Q := Q) cat)
    (route cat (.named name)) (route cat (.named name)) Eq := by
  intro d e h
  refine ⟨_, _, _, _, rfl, rfl, ?_, h.session, h.isOpen, h.willing, h.memory.consultName name,
    h.memory'.consultName name⟩
  rw [RelationBook.consultName_answer h.memory.faithful,
    RelationBook.consultName_answer h.memory'.faithful]

theorem beside_pairs : Pairs (Q := Q) cat (Beside cat) where
  aside h hds hdm hes hem := by
    refine ⟨?_, hds ▸ h.isOpen, hds ▸ h.willing, hdm ▸ h.memory, hem ▸ h.memory'⟩
    rw [hes, hds, h.session]
  joins h := by rw [h.session]
  withJoins j h := by
    refine ⟨?_, h.isOpen, h.willing, h.memory, h.memory'⟩
    simp only [withJoins, h.session]
  enter := by
    intro d e h
    refine ⟨(), (), d.entered, e.entered, enter_of_open h.isOpen,
      enter_of_open (h.session ▸ h.isOpen), rfl, ?_, rfl, h.willing, h.memory, h.memory'⟩
    simp only [entered, h.session]
  issue := beside_issue
  route := beside_route

theorem beside_sendPredicate {column expression : String} {p : Predicate}
    (h : Predicate.compile column expression = some p) :
    Together (Beside (Q := Q) cat) (sendPredicate p) (sendPredicate p) Eq := by
  obtain ⟨calls, hcalls⟩ := calls_ok h
  unfold sendPredicate
  rw [hcalls]
  exact beside_pairs.issueAll calls

theorem beside_work (hsend : ∀ column expression a, compile column expression = some a →
      Together (Beside cat) (send a) (send a) Eq) (segments : List Segment) :
    Together (Beside cat) (work cat use compile send segments) (applyAll cat send
      ((segments.filterMap Segment.condition?).filterMap (cat.compiled? use compile))) Eq := by
  have pairs : Pairs (Q := Q) cat (Beside cat) := beside_pairs
  -- `applyAll` has no counterpart of a dropped segment: the desk of `work` takes that step alone
  induction segments with
  | nil => exact .pure rfl
  | cons segment rest ih =>
    cases segment with
    | malformed text => exact .skip (fun _ _ => beside_note _) ih
    | condition c =>
      refine .skip (fun _ _ => beside_column use c.column) ?_
      change Together _ _ (applyAll cat send
        ((c :: rest.filterMap Segment.condition?).filterMap (cat.compiled? use compile))) _
      cases hf : cat.columnOf? use c.column with
      | none =>
        rw [List.filterMap_cons_none (by simp [Catalog.compiled?, hf])]
        exact .skip (fun _ _ => beside_note _) ih
      | some found =>
        cases hc : compile found.column c.expression with
        | none =>
          rw [List.filterMap_cons_none (by simp [Catalog.compiled?, hf, hc])]
          simp only [hc]
          exact .skip (fun _ _ => beside_note _) ih
        | some a =>
          rw [List.filterMap_cons_some (b := (found, a)) (by simp [Catalog.compiled?, hf, hc])]
          simp only [hc]
          refine .skip (fun _ _ => beside_note _) ?_
          have hrest := pairs.enter.bind_eq fun _ => (hsend _ _ a hc).bind_eq fun _ =>
            ih.bind_eq fun applied => Together.pure (R := Eq) (a := a :: applied) rfl
          unfold applyAll
          cases found.relation with
          | none => exact hrest
          | some relation => exact (pairs.join _).bind_eq fun _ => hrest

theorem beside_workText (hs : cat.separator ≠ "")
    (hsend : ∀ column expression a, compile column expression = some a →
      Together (Beside cat) (send a) (send a) Eq) (raw : Option String) (limit : Option Int) :
    Together (Beside cat) (workText cat use compile send raw limit)
      (applyAll cat send (cat.compiled use compile raw limit)) Eq := by
  obtain ⟨segments, hscan⟩ := Segment.scan_ok hs (some (limit.getD (cat.limit use)))
    (raw.getD "")
  unfold workText Catalog.compiled
  rw [hscan, Catalog.conditions_of_scan hscan]
  exact beside_work hsend segments

/-- Both steps succeed at the desk, with the same answer, and leave the same session. -/
def Agree (d : Desk Q) (step step' : Build Q α) : Prop :=
  ∃ a e e', step d = .ok a e ∧ step' d = .ok a e' ∧ e'.session = e.session

theorem agree_of_together {d : Desk Q} {step step' common : Build Q α} (hd : Beside cat d d)
    (h : Together (Beside cat) step common Eq) (h' : Together (Beside cat) step' common Eq) :
    Agree d step step' := by
  obtain ⟨a, _, e, f, hstep, hcommon, rfl, hef⟩ := h d d hd
  obtain ⟨b, _, e', f', hstep', hcommon', rfl, hef'⟩ := h' d d hd
  -- both runs of `common` start at `d`, so `f` and `f'` are one desk
  cases hcommon.symm.trans hcommon'
  exact ⟨a, e, e', hstep, hstep', hef'.session.symm.trans hef.session⟩

section Texts

variable {d : Desk Q} {mark : Char} {a b : String} {conditions : List Condition}
variable {limit : Option Int}

theorem workText_compiled (hs : cat.separator ≠ "") (hd : Beside cat d d)
    (hsend : ∀ column expression a, compile column expression = some a →
      Together (Beside cat) (send a) (send a) Eq) {raw raw' : Option String}
    {limit' : Option Int}
    (h : cat.compiled use compile raw limit = cat.compiled use compile raw' limit') :
    Agree d (workText cat use compile send raw limit)
      (workText cat use compile send raw' limit') :=
  agree_of_together hd (beside_workText hs hsend raw limit)
    (h ▸ beside_workText hs hsend raw' limit')

theorem workText_append (hmark : cat.separator = String.singleton mark) (hd : Beside cat d d)
    (hsend : ∀ column expression a, compile column expression = some a →
      Together (Beside cat) (send a) (send a) Eq)
    (hread : Condition.parse cat.separator none (some (a ++ cat.separator ++ b)) = .ok conditions)
    (hlimit : conditions.length ≤ limit.getD (cat.limit use)) :
    Agree d (workText cat use compile send (some (a ++ cat.separator ++ b)) limit) (do
      let first ← workText cat use compile send (some a) limit
      let second ← workText cat use compile send (some b) limit
      return first ++ second) := by
  have hs : cat.separator ≠ "" := by simp [hmark]
  have hwhole : Together (Beside cat)
      (workText cat use compile send (some (a ++ cat.separator ++ b)) limit)
      (applyAll cat send (cat.compiled use compile (some (a ++ cat.separator ++ b)) limit)) Eq :=
    beside_workText hs hsend _ limit
  rw [Catalog.compiled_append hmark hread hlimit, applyAll_append] at hwhole
  refine agree_of_together hd hwhole ?_
  refine (beside_workText hs hsend (some a) limit).bind_eq fun first => ?_
  exact (beside_workText hs hsend (some b) limit).bind_eq fun second => .pure rfl

/-- Filtering by two texts with a separator between them is filtering by the one and then by the
other, as long as the limit lets all their conditions through. So is sorting. Texts whose
conditions come to the same have the same effect, whatever else stands in them. -/
theorem texts_concatenate (hmark : cat.separator = String.singleton mark)
    (hm : cat.book.Reaches d.memory) (ho : d.session.isOpen = true)
    (hw : Willing d.session.query) :
    (∀ (a b : String) (conditions : List Condition) (limit : Option Int),
      Condition.parse cat.separator none (some (a ++ cat.separator ++ b)) = .ok conditions →
      (conditions.length ≤ limit.getD cat.filterLimit →
        Agree d (filter cat (some (a ++ cat.separator ++ b)) limit) (do
          let first ← filter cat (some a) limit
          let second ← filter cat (some b) limit
          return first ++ second)) ∧
      (conditions.length ≤ limit.getD cat.sortLimit →
        Agree d (sort cat (some (a ++ cat.separator ++ b)) limit) (do
          let first ← sort cat (some a) limit
          let second ← sort cat (some b) limit
          return first ++ second))) ∧
    ∀ (raw raw' : Option String) (limit limit' : Option Int),
      (cat.compiled .filter Predicate.compile raw limit =
        cat.compiled .filter Predicate.compile raw' limit' →
          Agree d (filter cat raw limit) (filter cat raw' limit')) ∧
      (cat.compiled .sort Order.compile raw limit =
        cat.compiled .sort Order.compile raw' limit' →
          Agree d (sort cat raw limit) (sort cat raw' limit')) := by
  have hd : Beside cat d d := ⟨rfl, ho, hw, hm, hm⟩
  have hs : cat.separator ≠ "" := by simp [hmark]
  refine ⟨fun a b conditions limit hread => ⟨fun hlimit => ?_, fun hlimit => ?_⟩,
    fun raw raw' limit limit' => ⟨fun h => ?_, fun h => ?_⟩⟩
  · exact workText_append hmark hd (fun _ _ _ => beside_sendPredicate) hread hlimit
  · exact workText_append hmark hd (fun _ _ o _ => beside_issue _) hread hlimit
  · exact workText_compiled hs hd (fun _ _ _ => beside_sendPredicate) h
  · exact workText_compiled hs hd (fun _ _ o _ => beside_issue _) h

/-- Two filters, and two orders, are worked off one after the other, also where roles were joined
before; a condition that may not be used is as good as none. -/
theorem texts_concatenate_users :
    let d := usersAfter [.join (.named (.text "role"))]
    Catalog.ofUsers.separator = String.singleton '@' ∧ Catalog.ofUsers.book.Reaches d.memory ∧
      d.session.isOpen = true ∧ Willing d.session.query ∧
      Agree d (filter .ofUsers (some "junk@id:equal_5@profile.photo:like_x") none) (do
        let first ← filter .ofUsers (some "junk@id:equal_5") none
        let second ← filter .ofUsers (some "profile.photo:like_x") none
        return first ++ second) ∧
      Agree d (sort .ofUsers (some "id:asc@id:desc") (some 2)) (do
        let first ← sort .ofUsers (some "id:asc") (some 2)
        let second ← sort .ofUsers (some "id:desc") (some 2)
        return first ++ second) ∧
      Agree d (filter .ofUsers (some "junk@id:equal_5@profile.photo:like_x") none)
        (filter .ofUsers (some "id:equal_5@secret:is_null@profile.photo:like_x") none) := by
  have hm : Catalog.ofUsers.book.Reaches (usersAfter [.join (.named (.text "role"))]).memory :=
    (moves_run _ (by simp) .empty).2
  have ho : (usersAfter [.join (.named (.text "role"))]).session.isOpen = true := by
    decide +kernel
  have hw : Willing (usersAfter [.join (.named (.text "role"))]).session.query :=
    Logged.willing (willing_recorder (by decide +kernel))
  have hmark : Catalog.ofUsers.separator = String.singleton '@' := rfl
  obtain ⟨hconcatenate, hsame⟩ := texts_concatenate hmark hm ho hw
  have hfilters := Catalog.parse_of_mark hmark "junk@id:equal_5@profile.photo:like_x"
  have horders := Catalog.parse_of_mark hmark "id:asc@id:desc"
  refine ⟨hmark, hm, ho, hw, ?_, ?_, ?_⟩
  · exact (hconcatenate "junk@id:equal_5" "profile.photo:like_x" _ none hfilters).1
      (by decide +kernel)
  · exact (hconcatenate "id:asc" "id:desc" _ (some 2) horders).2 (by decide +kernel)
  · exact (hsame _ _ none none).1 (by decide +kernel)

end Texts

end Desk

end Winnow
