import Winnow.Proofs.OperandShapes
import Winnow.Proofs.CallLog
import Winnow.Proofs.PairedRuns

open List (Forall₂)

namespace Winnow

/-- A call of a log without its values. -/
def Sent.blank (s : Sent) : Sent := { s with call := s.call.blank }

namespace Desk

variable {Q : Type} [QueryTarget Q] {cat : Catalog} {before : List Sent}

/-- Two open desks that differ, since their logs were `before`, in the values of calls alone. -/
structure Twins (before : List Sent) (d e : Desk (Logged Q)) : Prop where
  isOpen : d.session.isOpen = true
  phase : d.session.phase = e.session.phase
  joins : d.session.joins = e.session.joins
  memory : d.memory = e.memory
  willing : Willing d.session.query
  willing' : Willing e.session.query
  log : ∃ sent sent', d.log = before ++ sent ∧ e.log = before ++ sent' ∧
    sent.map Sent.blank = sent'.map Sent.blank

theorem Twins.isOpen' {d e : Desk (Logged Q)} (h : Twins before d e) :
    e.session.isOpen = true := by
  have ho := h.isOpen
  unfold Session.isOpen at ho ⊢
  rwa [← h.phase]

theorem twins_issue {c c' : Call} (h : c.blank = c'.blank) :
    Together (Twins (Q := Q) before) (issue c) (issue c') Eq := by
  intro d e hde
  obtain ⟨q, hq, hw, hlog⟩ := issue_of_willing hde.willing c
  obtain ⟨q', hq', hw', hlog'⟩ := issue_of_willing hde.willing' c'
  obtain ⟨sent, sent', hsent, hsent', hblank⟩ := hde.log
  refine ⟨(), (), _, _, hq, hq', rfl, hde.isOpen, hde.phase, hde.joins, hde.memory, hw, hw',
    sent ++ [⟨c, true⟩], sent' ++ [⟨c', true⟩], ?_, ?_, ?_⟩
  · rw [hlog, hsent, List.append_assoc]
  · rw [hlog', hsent', List.append_assoc]
  · simp [hblank, Sent.blank, h]

theorem twins_issueAll {calls calls' : List Call}
    (h : calls.map Call.blank = calls'.map Call.blank) :
    Together (Twins (Q := Q) before) (issueAll calls) (issueAll calls') Eq := by
  induction calls generalizing calls' with
  | nil =>
    obtain rfl := List.map_eq_nil_iff.mp h.symm
    exact .pure rfl
  | cons c calls ih =>
    cases calls' with
    | nil => cases h
    | cons c' calls' =>
      obtain ⟨hc, hcalls⟩ := List.cons.inj h
      exact (twins_issue hc).bind_eq fun _ => ih hcalls

theorem twins_route (name : RelationName) : Together (Twins (Q := Q) before)
    (route cat (.named name)) (route cat (.named name)) Eq := by
  intro d e h
  have he : route cat (.named name) e = .ok (cat.book.consultName name d.memory).answer.value
      { e with memory := (cat.book.consultName name d.memory).memory,
               notes := e.notes ++ (cat.book.consultName name d.memory).notes } := by
    unfold route
    rw [← h.memory]
    rfl
  exact ⟨_, _, _, _, rfl, he, rfl, h.isOpen, h.phase, h.joins, rfl, h.willing, h.willing', h.log⟩

theorem twins_pairs : Pairs (Q := Logged Q) cat (Twins before) where
  aside := by
    rintro ⟨_, _, _, _⟩ ⟨_, _, _, _⟩ ⟨_, _, _, _⟩ ⟨_, _, _, _⟩ h hds hdm hes hem
    cases hds
    cases hdm
    cases hes
    cases hem
    exact ⟨h.isOpen, h.phase, h.joins, h.memory, h.willing, h.willing', h.log⟩
  joins h := h.joins
  withJoins _ h := ⟨h.isOpen, h.phase, rfl, h.memory, h.willing, h.willing', h.log⟩
  enter := fun d e h => ⟨(), (), d.entered, e.entered, enter_of_open h.isOpen,
    enter_of_open h.isOpen', rfl, rfl, rfl, h.joins, h.memory, h.willing, h.willing', h.log⟩
  issue _ := twins_issue rfl
  route := twins_route

theorem twins_column (use : Use) (given : String) : Together (Twins (Q := Q) before)
    (column cat use given) (column cat use given) Eq := by
  intro d e h
  have he : column cat use given e =
      let found := cat.book.column use (cat.allowed use) given d.memory
      .ok found.answer { e with memory := found.memory, notes := e.notes ++ found.notes } := by
    rw [h.memory]
    rfl
  exact ⟨_, _, _, _, rfl, he, rfl, h.isOpen, h.phase, h.joins, rfl, h.willing, h.willing', h.log⟩

theorem twins_sendPredicate {column expression expression' : String} {p p' : Predicate}
    (hp : Predicate.compile column expression = some p)
    (hp' : Predicate.compile column expression' = some p') (h : p.Likened p') :
    Together (Twins (Q := Q) before) (sendPredicate p) (sendPredicate p') Eq := by
  obtain ⟨calls, hc⟩ := calls_ok hp
  obtain ⟨calls', hc'⟩ := calls_ok hp'
  have hblank : calls'.map Call.blank = calls.map Call.blank := by
    have hcalls := h.calls
    rw [hc, hc'] at hcalls
    exact Except.ok.inj hcalls
  unfold sendPredicate
  rw [hc, hc']
  exact twins_issueAll hblank.symm

theorem twins_work {segments segments' : List Segment}
    (h : Forall₂ Segment.Likened segments segments') :
    Together (Twins (Q := Q) before) (work cat .filter Predicate.compile sendPredicate segments)
      (work cat .filter Predicate.compile sendPredicate segments') fun _ _ => True := by
  have pairs : Pairs (Q := Logged Q) cat (Twins before) := twins_pairs
  induction h with
  | nil => exact .pure trivial
  | cons hs _ ih =>
    cases hs with
    | malformed => exact (pairs.note _ _).bind fun _ _ _ => ih
    | @condition c c' hc =>
      obtain ⟨column, expression⟩ := c
      obtain ⟨_, expression'⟩ := c'
      obtain ⟨rfl, hcompile⟩ := hc
      refine (twins_column .filter column).bind_eq fun found => ?_
      cases found with
      | none => exact (pairs.note _ _).bind fun _ _ _ => ih
      | some found =>
        -- both expressions are compiled for the column that was found
        have hfound := hcompile found.column
        simp only at hfound ⊢
        generalize hp : Predicate.compile found.column expression = compiled at hfound
        generalize hp' : Predicate.compile found.column expression' = compiled' at hfound
        cases hfound with
        | none => exact (pairs.note _ _).bind fun _ _ _ => ih
        | @some p p' hl =>
          have hsend := pairs.enter.bind_eq fun _ =>
            (twins_sendPredicate (Q := Q) hp hp' hl).bind_eq fun _ =>
              ih.bind fun applied applied' _ => Together.pure
                (R := fun _ _ : List Predicate => True) (a := p :: applied) (b := p' :: applied')
                trivial
          refine (pairs.note _ _).bind_eq fun _ => ?_
          cases found.relation with
          | none => exact hsend
          | some relation => exact (pairs.join _).bind_eq fun _ => hsend

/-- Operands do not change the structure of a query: two texts of conditions that differ in their
values alone, with the same ones empty, lead to the same calls but for the values, and leave the
same joins in the same phase. -/
theorem filter_of_likened {mark : Char} (hmark : cat.separator = String.singleton mark)
    {d : Desk (Logged Q)} (ho : d.session.isOpen = true) (hw : Willing d.session.query.query)
    {pieces pieces' : List String} (h : Forall₂ (PieceLikened mark) pieces pieces')
    (limit : Option Int) : ∃ found found' e e' sent sent',
      filter cat (some ((String.singleton mark).intercalate pieces)) limit d = .ok found e ∧
      filter cat (some ((String.singleton mark).intercalate pieces')) limit d = .ok found' e' ∧
      e.log = d.log ++ sent ∧ e'.log = d.log ++ sent' ∧
      sent.map Sent.blank = sent'.map Sent.blank ∧
      e.session.joins = e'.session.joins ∧ e.session.phase = e'.session.phase := by
  obtain ⟨segments, segments', hs, hs', hsegments⟩ :=
    PieceLikened.scan h (some (limit.getD (cat.limit .filter)))
  have hstart : Twins d.log d d :=
    ⟨ho, rfl, rfl, rfl, Logged.willing hw, Logged.willing hw, [], [], by simp, by simp, rfl⟩
  obtain ⟨found, found', e, e', hwork, hwork', -, htwins⟩ := twins_work hsegments d d hstart
  obtain ⟨sent, sent', hlog, hlog', hblank⟩ := htwins.log
  refine ⟨found, found', e, e', sent, sent', ?_, ?_, hlog, hlog', hblank, htwins.joins,
    htwins.phase⟩
  · unfold filter workText
    rw [hmark, Option.getD_some, hs]
    exact hwork
  · unfold filter workText
    rw [hmark, Option.getD_some, hs']
    exact hwork'

/-- Filters on users and their photos; some operands look like numbers, some like words. -/
def someOperands : List String := ["id:in_1,2", "profile.photo:like_x", "id:not_between_,3"]

def otherOperands : List String := ["id:in_null,0", "profile.photo:like_is", "id:not_between_,not"]

theorem likened_operands : Forall₂ (PieceLikened '@') someOperands otherOperands := by
  have hin : PieceLikened '@' "id:in_1,2" "id:in_null,0" :=
    @PieceLikened.phrase '@' ⟨"id", ["in"], ["1", "2"], []⟩ ⟨"id", ["in"], ["null", "0"], []⟩
      (by decide +kernel) (by decide +kernel)
      ⟨rfl, rfl, .cons (by decide) (.cons (by decide) .nil), rfl⟩
  have hlike : PieceLikened '@' "profile.photo:like_x" "profile.photo:like_is" :=
    @PieceLikened.phrase '@' ⟨"profile.photo", ["like"], ["x"], []⟩
      ⟨"profile.photo", ["like"], ["is"], []⟩ (by decide +kernel) (by decide +kernel)
      ⟨rfl, rfl, .cons (by decide) .nil, rfl⟩
  have hrange : PieceLikened '@' "id:not_between_,3" "id:not_between_,not" :=
    @PieceLikened.phrase '@' ⟨"id", ["not", "between"], ["", "3"], []⟩
      ⟨"id", ["not", "between"], ["", "not"], []⟩ (by decide +kernel) (by decide +kernel)
      ⟨rfl, rfl, .cons (by decide) (.cons (by decide) .nil), rfl⟩
  exact .cons hin (.cons hlike (.cons hrange .nil))

theorem filter_of_likened_operands : Catalog.ofUsers.separator = String.singleton '@' ∧
    (usersAfter []).session.isOpen = true ∧ Willing (usersAfter []).session.query.query ∧
    Forall₂ (PieceLikened '@') someOperands otherOperands ∧
    ∃ found found' e e' sent sent',
      filter .ofUsers (some ("@".intercalate someOperands)) none (usersAfter []) = .ok found e ∧
      filter .ofUsers (some ("@".intercalate otherOperands)) none (usersAfter []) =
        .ok found' e' ∧
      e.log = (usersAfter []).log ++ sent ∧ e'.log = (usersAfter []).log ++ sent' ∧
      sent.map Sent.blank = sent'.map Sent.blank ∧
      e.session.joins = e'.session.joins ∧ e.session.phase = e'.session.phase := by
  have hmark : Catalog.ofUsers.separator = String.singleton '@' := rfl
  have hw : Willing (usersAfter []).session.query.query := willing_recorder rfl
  exact ⟨hmark, rfl, hw, likened_operands, filter_of_likened hmark rfl hw likened_operands none⟩

end Desk

end Winnow
