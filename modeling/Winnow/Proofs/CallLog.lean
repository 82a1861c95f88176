import Winnow.Proofs.DeskCalls

namespace Winnow

/-- A call that a query got, and whether it took it. -/
structure Sent where
  call : Call
  taken : Bool

structure Logged (Q : Type) where
  query : Q
  log : List Sent := []

variable {Q α β : Type}

/-- The same queries, each with an empty log. -/
def Logged.of (make : Nat → Q) (n : Nat) : Logged Q := ⟨make n, []⟩

instance [QueryTarget Q] : QueryTarget (Logged Q) where
  call c := fun l =>
    match QueryTarget.call c l.query with
    | .ok u q => .ok u ⟨q, l.log ++ [⟨c, true⟩]⟩
    | .error e q => .error e ⟨q, l.log ++ [⟨c, false⟩]⟩

theorem Logged.log_of_ok [QueryTarget Q] {c : Call} {l l' : Logged Q} {u : Unit}
    (h : QueryTarget.call c l = .ok u l') : l'.log = l.log ++ [⟨c, true⟩] := by
  simp only [QueryTarget.call] at h
  split at h
  next =>
    cases h
    rfl
  next => cases h

theorem Logged.log_of_error [QueryTarget Q] {c : Call} {l l' : Logged Q} {e : Failure}
    (h : QueryTarget.call c l = .error e l') : l'.log = l.log ++ [⟨c, false⟩] := by
  simp only [QueryTarget.call] at h
  split at h
  next => cases h
  next =>
    cases h
    rfl

theorem Logged.willing [QueryTarget Q] {l : Logged Q} (h : Desk.Willing l.query) :
    Desk.Willing l := by
  refine Desk.Willing.of_step (S := fun l : Logged Q => Desk.Willing l.query) ?_ h
  intro l hl c
  obtain ⟨q', hq, h'⟩ := hl.call c
  exact ⟨⟨q', l.log ++ [⟨c, true⟩]⟩, by simp only [QueryTarget.call, hq], h'⟩

namespace Desk

def log (d : Desk (Logged Q)) : List Sent := d.session.query.log

def unlogged (d : Desk (Logged Q)) : Desk Q where
  session := ⟨d.session.phase, d.session.query.query, d.session.joins, d.session.made⟩
  memory := d.memory
  defaultReads := d.defaultReads
  notes := d.notes

section Sends

variable [QueryTarget Q] {c : Call} {f : Joins → Joins} {d d' : Desk (Logged Q)}

theorem Sends.log (h : Sends c f d d') : ∃ taken, d'.log = d.log ++ [⟨c, taken⟩] ∧
    d'.session.joins = (if taken then f d.session.joins else d.session.joins) := by
  cases h with
  | taken _ hc => exact ⟨true, Logged.log_of_ok hc, rfl⟩
  | refused _ hc => exact ⟨false, Logged.log_of_error hc, rfl⟩

theorem issue_of_willing (h : Willing d.session.query) (c : Call) :
    ∃ q, issue c d = .ok () (d.withQuery q) ∧ Willing q ∧
      (d.withQuery q).log = d.log ++ [⟨c, true⟩] := by
  obtain ⟨q, hq, hw⟩ := h.call c
  exact ⟨q, issue_of_ok hq, hw, Logged.log_of_ok hq⟩

theorem issueAll_of_willing (h : Willing d.session.query) (calls : List Call) :
    ∃ q, issueAll calls d = .ok () (d.withQuery q) ∧ Willing q ∧
      (d.withQuery q).log = d.log ++ calls.map (⟨·, true⟩) := by
  induction calls generalizing d with
  | nil => exact ⟨d.session.query, rfl, h, (List.append_nil _).symm⟩
  | cons c calls ih =>
    obtain ⟨q, hq, hw, hlog⟩ := issue_of_willing h c
    obtain ⟨q', hq', hw', hlog'⟩ := ih (d := d.withQuery q) hw
    refine ⟨q', (bind_of_ok hq).trans hq', hw', hlog'.trans ?_⟩
    rw [hlog, List.append_assoc]
    rfl

end Sends

def Unlogs (step : Build (Logged Q) α) (plain : Build Q α) : Prop :=
  ∀ d : Desk (Logged Q), plain d.unlogged = match step d with
    | .ok a d' => .ok a d'.unlogged
    | .error e d' => .error e d'.unlogged

namespace Unlogs

variable {step : Build (Logged Q) α} {plain : Build Q α}

theorem pure (a : α) : Unlogs (Q := Q) (pure a) (pure a) := fun _ => rfl

theorem bind {next : α → Build (Logged Q) β} {plainNext : α → Build Q β} (hs : Unlogs step plain)
    (hn : ∀ a, Unlogs (next a) (plainNext a)) : Unlogs (step >>= next) (plain >>= plainNext) := by
  intro d
  have hfirst := hs d
  cases hr : step d with
  | ok a d' =>
    simp only [hr] at hfirst
    rw [bind_of_ok hr, bind_of_ok hfirst]
    exact hn a d'
  | error e d' =>
    simp only [hr] at hfirst
    rw [bind_of_error hr, bind_of_error hfirst]

theorem get {next : Desk (Logged Q) → Build (Logged Q) β} {plainNext : Desk Q → Build Q β}
    (h : ∀ d, Unlogs (next d) (plainNext d.unlogged)) :
    Unlogs (get >>= next) (get >>= plainNext) :=
  fun d => h d d

theorem ite {p : Prop} [Decidable p] {other : Build (Logged Q) α} {plainOther : Build Q α}
    (hs : Unlogs step plain) (ho : Unlogs other plainOther) :
    Unlogs (if p then step else other) (if p then plain else plainOther) := by
  split
  · exact hs
  · exact ho

theorem joins : Unlogs (Q := Q) joins joins := fun _ => rfl

theorem setJoins (j : Joins) : Unlogs (Q := Q) (setJoins j) (setJoins j) := fun _ => rfl

theorem note (n : Note) : Unlogs (Q := Q) (note n) (note n) := fun _ => rfl

theorem enter : Unlogs (Q := Q) enter enter := by
  intro ⟨⟨phase, query, joins, made⟩, memory, reads, notes⟩
  cases phase <;> rfl

theorem ofExcept (r : Except Failure α) : Unlogs (Q := Q) (ofExcept r) (ofExcept r) := by
  intro d
  cases r <;> rfl

theorem reset (make : Nat → Logged Q) :
    Unlogs (reset make) (Desk.reset fun n => (make n).query) := by
  refine bind ?_ fun _ => note _
  intro ⟨⟨phase, query, joins, made⟩, memory, reads, notes⟩
  cases phase <;> rfl

theorem route (cat : Catalog) (ref : RelationRef) :
    Unlogs (Q := Q) (route cat ref) (route cat ref) := by
  intro d
  simp only [Desk.route, unlogged]
  cases cat.book.consult ref d.memory <;> rfl

theorem column [QueryTarget Q] (cat : Catalog) (use : Use) (given : String) :
    Unlogs (Q := Q) (column cat use given) (column cat use given) := fun _ => rfl

variable [QueryTarget Q]

theorem issue (c : Call) : Unlogs (Q := Q) (issue c) (issue c) := by
  intro d
  simp only [Desk.issue, onSession, unlogged, QueryTarget.call]
  cases QueryTarget.call c d.session.query.query <;> rfl

theorem issueAll (calls : List Call) : Unlogs (Q := Q) (issueAll calls) (issueAll calls) := by
  induction calls with
  | nil => exact pure ()
  | cons c calls ih => exact (issue c).bind fun _ => ih

theorem selectEntries (cat : Catalog) (entries : List String) :
    Unlogs (Q := Q) (selectEntries cat entries) (selectEntries cat entries) := by
  have hrest : Unlogs (Q := Q) (do
      Desk.setJoins (addEntries entries (← Desk.joins))
      let selected := (← Desk.joins).selected
      if !selected.isEmpty then Desk.issue (.select selected)) (do
      Desk.setJoins (addEntries entries (← Desk.joins))
      let selected := (← Desk.joins).selected
      if !selected.isEmpty then Desk.issue (.select selected)) := by
    exact joins.bind fun _ => (setJoins _).bind fun _ => joins.bind fun _ => ite (issue _) (pure ())
  refine get fun d => ite ?_ hrest
  have hset : Unlogs (Q := Q) (set { d with defaultReads := d.defaultReads + 1 })
      (set { d.unlogged with defaultReads := d.defaultReads + 1 }) := fun _ => rfl
  exact hset.bind fun _ => (setJoins _).bind fun _ => hrest

theorem guardAll (cat : Catalog) (tables : List String) :
    Unlogs (Q := Q) (guardAll cat tables) (guardAll cat tables) := by
  induction tables with
  | nil => exact pure ()
  | cons table tables ih =>
    have hguard : Unlogs (Q := Q) (guard cat table) (guard cat table) := joins.bind fun _ =>
      ite (enter.bind fun _ => (issue _).bind fun _ => joins.bind fun _ => setJoins _) (pure ())
    exact hguard.bind fun _ => ih

theorem joinHops (cat : Catalog) (rel : Relation) (joinKind : JoinKind) (first : Bool)
    (hops : List Hop) : Unlogs (Q := Q) (joinHops cat rel joinKind first hops)
      (joinHops cat rel joinKind first hops) := by
  induction hops generalizing first with
  | nil => exact pure ()
  | cons hop hops ih =>
    have hhop : Unlogs (Q := Q) (joinHop cat rel joinKind first hop)
        (joinHop cat rel joinKind first hop) := joins.bind fun _ =>
      ite ((issue _).bind fun _ => joins.bind fun _ => (setJoins _).bind fun _ =>
        (note _).bind fun _ => guardAll cat _) (pure ())
    exact hhop.bind fun _ => ih false

theorem applyRelation (cat : Catalog) (ref : RelationRef) :
    Unlogs (Q := Q) (applyRelation cat ref) (applyRelation cat ref) := by
  refine (route cat ref).bind fun r => ?_
  split
  · exact pure r
  · exact joins.bind fun _ => ite (pure r) (enter.bind fun _ => (selectEntries cat _).bind fun _ =>
      (joinHops cat _ _ true r.hops).bind fun _ => pure r)

theorem join (cat : Catalog) (ref : RelationRef) :
    Unlogs (Q := Q) (join cat ref) (join cat ref) :=
  (applyRelation cat ref).bind fun _ => pure ()

theorem joinAll (cat : Catalog) (refs : List RelationRef) :
    Unlogs (Q := Q) (joinAll cat refs) (joinAll cat refs) := by
  induction refs with
  | nil => exact pure ()
  | cons ref refs ih =>
    cases ref with
    | named name =>
      cases name with
      | text s => exact (join cat _).bind fun _ => ih
      | _ => exact ih
    | inline rel => exact (join cat _).bind fun _ => ih
    | unnameable kind => exact ih

theorem work {cat : Catalog} {use : Use} {compile : String → String → Option α}
    {send : α → Build (Logged Q) Unit} {plainSend : α → Build Q Unit}
    (hsend : ∀ a, Unlogs (send a) (plainSend a)) (segments : List Segment) :
    Unlogs (work cat use compile send segments) (work cat use compile plainSend segments) := by
  induction segments with
  | nil => exact pure []
  | cons s rest ih =>
    cases s with
    | malformed text => exact (note _).bind fun _ => ih
    | condition c =>
      refine (column cat use c.column).bind fun found => ?_
      cases found with
      | none => exact (note _).bind fun _ => ih
      | some found =>
        simp only
        split
        · exact (note _).bind fun _ => ih
        · refine (note _).bind fun _ => ?_
          have hrest := enter (Q := Q) |>.bind fun _ => (hsend ‹_›).bind fun _ =>
            ih.bind fun applied => pure (‹_› :: applied)
          split
          · exact (join cat _).bind fun _ => hrest
          · exact hrest

end Unlogs

end Desk

end Winnow
