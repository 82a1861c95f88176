import Winnow.Proofs.TextOutcome

namespace Winnow

variable {Q α β : Type}

/-- What becomes of a segment that is read. -/
inductive Fate where
  | malformed
  | dropped
  | ignored
  | applied
  deriving DecidableEq, Repr

/-- The fate of a segment that a note tells, if it is on a segment. -/
def Note.fate? : Note → Option Fate
  | malformedSegment _ => some .malformed
  | columnRefused .. => some .dropped
  | expressionRefused .. => some .ignored
  | columnUsed .. => some .applied
  | _ => none

def Note.isOnSegment (n : Note) : Bool := n.fate?.isSome

/-- The fates that are told, in the order in which they are. -/
def Note.fates (notes : List Note) : List Fate := notes.filterMap fate?

/-- The note that a segment leaves. -/
def Catalog.noteOn (cat : Catalog) (use : Use) (compile : String → String → Option α) :
    Segment → Note
  | .malformed text => .malformedSegment text
  | .condition c =>
    match cat.columnOf? use c.column with
    | none => .columnRefused use c.column
    | some found =>
      match compile found.column c.expression with
      | none => .expressionRefused use c.expression found.column
      | some _ => .columnUsed use c.column found.source found.column

namespace Segment

variable {n : Nat} {segments : List Segment}

def conditions (segments : List Segment) : List Condition := segments.filterMap condition?

/-- The segments that are read where `n` conditions may be: those up to the last of them, with it,
or all of them if there are fewer. -/
structure IsRead (n : Nat) (segments read : List Segment) : Prop where
  isPrefix : read <+: segments
  atMost : (conditions read).length ≤ n
  all : (conditions read).length < n → read = segments
  last : (conditions read).length = n → ∀ s ∈ read.getLast?, ∃ c, s = .condition c

theorem IsRead.malformed {read : List Segment} (h : IsRead (n + 1) segments read) (text : String) :
    IsRead (n + 1) (malformed text :: segments) (malformed text :: read) where
  isPrefix := List.cons_prefix_cons.mpr ⟨rfl, h.isPrefix⟩
  atMost := h.atMost
  all hlt := congrArg _ (h.all hlt)
  last hfull := by
    intro s hs
    cases read with
    | nil => cases hfull
    | cons first rest => exact h.last hfull s hs

theorem IsRead.condition {read : List Segment} (h : IsRead n segments read) (c : Condition) :
    IsRead (n + 1) (condition c :: segments) (condition c :: read) where
  isPrefix := List.cons_prefix_cons.mpr ⟨rfl, h.isPrefix⟩
  atMost := Nat.succ_le_succ h.atMost
  all hlt := congrArg _ (h.all (Nat.lt_of_succ_lt_succ hlt))
  last hfull := by
    intro s hs
    cases read with
    | nil =>
      cases hs
      exact ⟨c, rfl⟩
    | cons first rest => exact h.last (Nat.succ.inj hfull) s hs

theorem isRead_upTo (n : Nat) (segments : List Segment) :
    IsRead n segments (upTo n segments) := by
  induction segments generalizing n with
  | nil =>
    have hnone : upTo n [] = [] := by cases n <;> rfl
    rw [hnone]
    exact ⟨List.prefix_rfl, Nat.zero_le n, fun _ => rfl, fun _ s hs => nomatch hs⟩
  | cons s rest ih =>
    cases n with
    | zero =>
      exact ⟨List.nil_prefix, Nat.le_refl 0, fun h => absurd h (Nat.not_lt_zero 0),
        fun _ s hs => nomatch hs⟩
    | succ n =>
      cases s with
      | malformed text => exact (ih (n + 1)).malformed text
      | condition c => exact (ih n).condition c

theorem scan_eq {separator raw : String} (hs : separator ≠ "") (hraw : raw ≠ "") (limit : Int) :
    ∃ pieces, splitOn? separator raw = some pieces ∧
      scan separator (some limit) raw = .ok (upTo limit.toNat (pieces.map read)) := by
  obtain ⟨pieces, hpieces⟩ := Option.ne_none_iff_exists'.mp (splitOn?_ne_none hs raw)
  refine ⟨pieces, hpieces, ?_⟩
  unfold scan
  by_cases hl : limit < 1
  · have hzero : limit.toNat = 0 := by omega
    simp [hl, hzero, upTo]
  · simp only [hraw, hl, hpieces, Option.any_some, decide_false, Bool.or_self,
      Bool.false_eq_true, ↓reduceIte, within]

end Segment

theorem Fate.length_eq (fates : List Fate) : fates.length = fates.count .malformed +
    fates.count .dropped + fates.count .ignored + fates.count .applied := by
  induction fates with
  | nil => rfl
  | cons fate fates ih => cases fate <;> simp [ih] <;> omega

theorem Note.fates_filter (notes : List Note) :
    fates (notes.filter isOnSegment) = fates notes := by
  unfold fates
  rw [List.filterMap_filter]
  congr 1
  funext n
  unfold isOnSegment
  cases n.fate? <;> rfl

theorem Note.length_fates {notes : List Note} (h : ∀ n ∈ notes, n.isOnSegment = true) :
    (fates notes).length = notes.length := by
  induction notes with
  | nil => rfl
  | cons n notes ih =>
    obtain ⟨hn, hrest⟩ := List.forall_mem_cons.mp h
    obtain ⟨fate, hf⟩ := Option.isSome_iff_exists.mp hn
    rw [fates, List.filterMap_cons_some hf, List.length_cons, List.length_cons]
    exact congrArg _ (ih hrest)

theorem RelationBook.consultName_notes (book : RelationBook) (name : RelationName) (m : Memory) :
    ∀ n ∈ (book.consultName name m).notes, n.isOnSegment = false := by
  intro n hn
  cases name with
  | text s =>
    unfold consultName at hn
    simp only at hn
    split at hn
    · cases hn
    · split at hn
      · cases List.mem_singleton.mp hn
        rfl
      · obtain ⟨pair, -, rfl⟩ := List.mem_map.mp hn
        rfl
  | null | bool _ | int _ | real _ =>
    cases List.mem_singleton.mp hn
    rfl

theorem RelationBook.column_notes (book : RelationBook) (use : Use) (allowed : List String)
    (given : String) (m : Memory) :
    ∀ n ∈ (book.column use allowed given m).notes, n.isOnSegment = false := by
  unfold column
  split
  · exact nofun
  · split
    · exact nofun
    · unfold field
      simp only
      split
      · exact book.consultName_notes _ m
      · have hnone : ∀ name m, (book.consultAliasesOfName name m).notes = [] := by
          intro name m
          unfold consultAliasesOfName
          split <;> rfl
        rw [hnone, List.append_nil]
        exact book.consultName_notes _ m

/-- What is noted while a text is worked off. Of the segments that are read each leaves one note,
in their order, and no other does; their number is that of the fates told, where those whose
conditions are applied are returned. Nothing asks for attention. -/
def Catalog.AccountsFor (cat : Catalog) (use : Use) (compile : String → String → Option α)
    (raw : String) (limit : Option Int) (applied : List α) (new : List Note) : Prop :=
  ∃ pieces read, splitOn? cat.separator raw = some pieces ∧
    Segment.IsRead (limit.getD (cat.limit use)).toNat (pieces.map Segment.read) read ∧
    new.filter Note.isOnSegment = read.map (cat.noteOn use compile) ∧
    read.length = (Note.fates new).count .malformed + (Note.fates new).count .dropped +
      (Note.fates new).count .ignored + applied.length ∧
    ∀ n ∈ new, n.level = .debug

namespace Desk

variable [QueryTarget Q] {cat : Catalog} {use : Use}

/-- An open session with a query that takes every call, at a desk with a memory of the book. -/
structure Able (cat : Catalog) (d : Desk Q) : Prop where
  isOpen : d.session.isOpen = true
  willing : Willing d.session.query
  memory : cat.book.Reaches d.memory

def Tells (cat : Catalog) (step : Build Q α) (R : α → List Note → Prop) : Prop :=
  ∀ d, Able cat d → ∃ a e new, step d = .ok a e ∧ Able cat e ∧ e.notes = d.notes ++ new ∧
    R a (new.filter Note.isOnSegment)

def Quiet (cat : Catalog) (step : Build Q α) : Prop := Tells cat step fun _ told => told = []

namespace Tells

variable {R : α → List Note → Prop} {S : β → List Note → Prop} {step : Build Q α}

theorem pure {a : α} (h : R a []) : Tells cat (pure a : Build Q α) R :=
  fun d hd => ⟨a, d, [], rfl, hd, (List.append_nil _).symm, h⟩

theorem bind {next : α → Build Q β} (hs : Tells cat step R)
    (hn : ∀ a first, R a first → Tells cat (next a) fun b second => S b (first ++ second)) :
    Tells cat (step >>= next) S := by
  intro d hd
  obtain ⟨a, e, first, hok, he, hnotes, hr⟩ := hs d hd
  obtain ⟨b, f, second, hok', hf, hnotes', hs⟩ := hn a _ hr e he
  refine ⟨b, f, first ++ second, (bind_of_ok hok).trans hok', hf, ?_, ?_⟩
  · rw [hnotes', hnotes, List.append_assoc]
  · rw [List.filter_append]
    exact hs

theorem mono {R' : α → List Note → Prop} (hs : Tells cat step R)
    (h : ∀ a told, R a told → R' a told) : Tells cat step R' := by
  intro d hd
  obtain ⟨a, e, new, hok, he, hnotes, hr⟩ := hs d hd
  exact ⟨a, e, new, hok, he, hnotes, h a _ hr⟩

end Tells

theorem Quiet.bind {S : β → List Note → Prop} {step : Build Q α} {next : α → Build Q β}
    (hs : Quiet cat step) (hn : ∀ a, Tells cat (next a) S) : Tells cat (step >>= next) S := by
  refine Tells.bind hs fun a first hfirst => ?_
  subst hfirst
  exact hn a

theorem quiet_of_ok {step : Build Q α} (h : ∀ d : Desk Q, Able cat d → ∃ a s,
    step d = .ok a { d with session := s } ∧ s.isOpen = true ∧ Willing s.query) :
    Quiet cat step := by
  intro d hd
  obtain ⟨a, s, hok, ho, hw⟩ := h d hd
  exact ⟨a, _, [], hok, ⟨ho, hw, hd.memory⟩, (List.append_nil _).symm, rfl⟩

theorem quiet_enter : Quiet (Q := Q) cat enter :=
  quiet_of_ok fun _ hd => ⟨(), _, enter_of_open hd.isOpen, rfl, hd.willing⟩

theorem quiet_issue (c : Call) : Quiet (Q := Q) cat (issue c) := by
  refine quiet_of_ok fun d hd => ?_
  obtain ⟨q, hq, hw⟩ := hd.willing.call c
  exact ⟨(), _, issue_of_ok hq, hd.isOpen, hw⟩

theorem quiet_issueAll (calls : List Call) : Quiet (Q := Q) cat (issueAll calls) := by
  induction calls with
  | nil => exact .pure rfl
  | cons c calls ih => exact (quiet_issue c).bind fun _ => ih

theorem quiet_setJoins (j : Joins) : Quiet (Q := Q) cat (setJoins j) :=
  quiet_of_ok fun _ hd => ⟨(), _, rfl, hd.isOpen, hd.willing⟩

theorem tells_joins {R : α → List Note → Prop} {next : Joins → Build Q α}
    (h : ∀ j, Tells cat (next j) R) : Tells cat (joins >>= next) R :=
  fun d hd => h d.session.joins d hd

theorem tells_note (n : Note) :
    Tells (Q := Q) cat (note n) fun _ told => told = [n].filter Note.isOnSegment :=
  fun _ hd => ⟨(), _, [n], rfl, ⟨hd.isOpen, hd.willing, hd.memory⟩, rfl, rfl⟩

theorem quiet_note {n : Note} (h : n.isOnSegment = false) : Quiet (Q := Q) cat (note n) := by
  have hnone : [n].filter Note.isOnSegment = [] := by simp [h]
  rw [Quiet, ← hnone]
  exact tells_note n

theorem tells_column (use : Use) (given : String) :
    Tells (Q := Q) cat (column cat use given)
      fun found told => found = cat.columnOf? use given ∧ told = [] := by
  intro d hd
  obtain ⟨ha, hm⟩ := RelationBook.column_answer hd.memory use (cat.allowed use) given
  have hnotes := cat.book.column_notes use (cat.allowed use) given d.memory
  refine ⟨_, _, _, rfl, ⟨hd.isOpen, hd.willing, hm⟩, rfl, ha, ?_⟩
  exact List.filter_eq_nil_iff.mpr fun n hn => by simp [hnotes n hn]

theorem quiet_route (name : RelationName) : Quiet (Q := Q) cat (route cat (.named name)) := by
  intro d hd
  have hnotes := cat.book.consultName_notes name d.memory
  refine ⟨_, _, _, rfl, ⟨hd.isOpen, hd.willing, hd.memory.consultName name⟩, rfl, ?_⟩
  exact List.filter_eq_nil_iff.mpr fun n hn => by simp [hnotes n hn]

theorem quiet_pure (a : α) : Quiet (Q := Q) cat (pure a) := .pure rfl

theorem quiet_selectEntries (entries : List String) :
    Quiet (Q := Q) cat (selectEntries cat entries) := by
  have hrest : Quiet (Q := Q) cat (do
      setJoins (addEntries entries (← joins))
      let selected := (← joins).selected
      if !selected.isEmpty then issue (.select selected)) := by
    refine tells_joins fun j => (quiet_setJoins _).bind fun _ => tells_joins fun j => ?_
    dsimp only
    split
    · exact quiet_issue _
    · exact quiet_pure ()
  intro d hd
  by_cases hs : d.session.joins.selected.isEmpty
  · -- the visible columns are asked for, which is counted and not noted
    have hvisible := hrest (Desk.withJoins { d with defaultReads := d.defaultReads + 1 }
      (addEntries cat.visible d.session.joins)) ⟨hd.isOpen, hd.willing, hd.memory⟩
    unfold selectEntries
    rw [get_bind, if_pos hs]
    exact hvisible
  · unfold selectEntries
    rw [get_bind, if_neg hs]
    exact hrest d hd

theorem quiet_guardAll (tables : List String) : Quiet (Q := Q) cat (guardAll cat tables) := by
  induction tables with
  | nil => exact quiet_pure ()
  | cons table tables ih =>
    have hone : Quiet (Q := Q) cat (guard cat table) := by
      refine tells_joins fun j => ?_
      split
      · exact quiet_enter.bind fun _ => (quiet_issue _).bind fun _ =>
          tells_joins fun j => quiet_setJoins _
      · exact quiet_pure ()
    exact hone.bind fun _ => ih

theorem quiet_joinHops (rel : Relation) (kind : JoinKind) (first : Bool) (hops : List Hop) :
    Quiet (Q := Q) cat (joinHops cat rel kind first hops) := by
  induction hops generalizing first with
  | nil => exact quiet_pure ()
  | cons hop hops ih =>
    have hone : Quiet (Q := Q) cat (joinHop cat rel kind first hop) := by
      refine tells_joins fun j => ?_
      split
      · exact (quiet_issue _).bind fun _ => tells_joins fun j => (quiet_setJoins _).bind
          fun _ => (quiet_note rfl).bind fun _ => quiet_guardAll _
      · exact quiet_pure ()
    exact hone.bind fun _ => ih false

theorem quiet_join (name : RelationName) : Quiet (Q := Q) cat (join cat (.named name)) := by
  have happly : Quiet (Q := Q) cat (applyRelation cat (.named name)) := by
    refine (quiet_route name).bind fun r => ?_
    split
    · exact quiet_pure r
    · refine tells_joins fun j => ?_
      split
      · exact quiet_pure r
      · exact quiet_enter.bind fun _ => (quiet_selectEntries _).bind fun _ =>
          (quiet_joinHops _ _ _ _).bind fun _ => quiet_pure r
  exact happly.bind fun _ => quiet_pure ()

section Work

variable {compile : String → String → Option α} {send : α → Build Q Unit}

def Reports (cat : Catalog) (use : Use) (compile : String → String → Option α)
    (segments : List Segment) (applied : List α) (told : List Note) : Prop :=
  told = segments.map (cat.noteOn use compile) ∧
    applied.length = (Note.fates told).count .applied

namespace Reports

variable {segment : Segment} {segments : List Segment} {applied : List α} {told : List Note}

theorem passed (h : Reports cat use compile segments applied told) {n : Note} {fate : Fate}
    (hn : cat.noteOn use compile segment = n) (hf : n.fate? = some fate) (hne : fate ≠ .applied) :
    Reports cat use compile (segment :: segments) applied
      ([n].filter Note.isOnSegment ++ told) := by
  have hone : [n].filter Note.isOnSegment = [n] := by simp [Note.isOnSegment, hf]
  rw [hone, List.singleton_append]
  refine ⟨by rw [List.map_cons, hn, h.1], ?_⟩
  rw [Note.fates, List.filterMap_cons_some hf, List.count_cons_of_ne hne, h.2]
  rfl

theorem used (h : Reports cat use compile segments applied told) {n : Note}
    (hn : cat.noteOn use compile segment = n) (hf : n.fate? = some .applied) (a : α) :
    Reports cat use compile (segment :: segments) (a :: applied)
      ([n].filter Note.isOnSegment ++ told) := by
  have hone : [n].filter Note.isOnSegment = [n] := by simp [Note.isOnSegment, hf]
  rw [hone, List.singleton_append]
  refine ⟨by rw [List.map_cons, hn, h.1], ?_⟩
  rw [Note.fates, List.filterMap_cons_some hf, List.count_cons_self, List.length_cons, h.2]
  rfl

end Reports

/-- Segment after segment. What an applied condition joins, selects, guards and sends is noted
elsewhere or not at all. -/
theorem tells_work (hsend : ∀ column expression a, compile column expression = some a →
      Quiet cat (send a)) (segments : List Segment) :
    Tells cat (work cat use compile send segments) (Reports cat use compile segments) := by
  induction segments with
  | nil => exact .pure ⟨rfl, rfl⟩
  | cons segment rest ih =>
    have hpassed : ∀ {n : Note} {fate : Fate}, cat.noteOn use compile segment = n →
        n.fate? = some fate → fate ≠ .applied →
        Tells cat (do note n; work cat use compile send rest)
          (Reports cat use compile (segment :: rest)) := by
      intro n fate hn hf hne
      refine (tells_note n).bind fun _ first hfirst => ?_
      subst hfirst
      exact ih.mono fun applied told h => h.passed hn hf hne
    cases segment with
    | malformed text => exact hpassed rfl rfl (by decide)
    | condition c =>
      refine (tells_column use c.column).bind ?_
      rintro _ _ ⟨rfl, rfl⟩
      cases hf : cat.columnOf? use c.column with
      | none => exact hpassed (by simp only [Catalog.noteOn, hf]) rfl (by decide)
      | some found =>
        cases hc : compile found.column c.expression with
        | none =>
          simp only [hc]
          exact hpassed (by simp only [Catalog.noteOn, hf, hc]) rfl (by decide)
        | some a =>
          simp only [hc]
          have hn : cat.noteOn use compile (.condition c) =
              .columnUsed use c.column found.source found.column := by
            simp only [Catalog.noteOn, hf, hc]
          have hrest : Tells cat (do
              enter
              send a
              let applied ← work cat use compile send rest
              return a :: applied) fun applied told => Reports cat use compile
                (.condition c :: rest) applied
                ([.columnUsed use c.column found.source found.column].filter Note.isOnSegment ++
                  told) := by
            refine quiet_enter.bind fun _ => (hsend _ _ a hc).bind fun _ => ?_
            refine ih.bind fun applied told h => .pure ?_
            rw [List.append_nil]
            exact h.used hn rfl a
          refine (tells_note _).bind fun _ first hfirst => ?_
          subst hfirst
          cases found.relation with
          | none => exact hrest
          | some relation => exact (quiet_join _).bind fun _ => hrest

theorem tells_workText (hs : cat.separator ≠ "") {raw : String} (hraw : raw ≠ "")
    (hsend : ∀ column expression a, compile column expression = some a →
      Quiet cat (send a)) (limit : Option Int) {d : Desk Q} (hd : Able cat d) :
    ∃ applied e new, workText cat use compile send (some raw) limit d = .ok applied e ∧
      e.notes = d.notes ++ new ∧ cat.AccountsFor use compile raw limit applied new := by
  obtain ⟨pieces, hpieces, hscan⟩ :=
    Segment.scan_eq hs hraw (limit.getD (cat.limit use))
  obtain ⟨applied, e, new, hok, -, hnotes, htold, hcount⟩ := tells_work hsend _ d hd
  refine ⟨applied, e, new, ?_, hnotes, pieces, _, hpieces, Segment.isRead_upTo _ _, htold, ?_,
    fun _ _ => rfl⟩
  · unfold workText
    rw [Option.getD_some, hscan]
    exact hok
  · have hnotes : ∀ n ∈ new.filter Note.isOnSegment, n.isOnSegment = true :=
      fun n hn => (List.mem_filter.mp hn).2
    have hlength := Note.length_fates hnotes
    rw [Note.fates_filter] at hlength hcount
    rw [hcount, ← Fate.length_eq, hlength, htold, List.length_map]

end Work

/-- On an open session whose query takes every call, no segment of a text is dropped in silence,
whatever was done before: each one that is read leaves one note, which tells its fate, and no other
segment leaves any. So the segments that are read are those that are malformed, dropped for their
column or ignored for their expression, and those whose conditions are returned. -/
theorem segments_noted (hs : cat.separator ≠ "") {d : Desk Q} (hm : cat.book.Reaches d.memory)
    (ho : d.session.isOpen = true) (hw : Willing d.session.query) {raw : String} (hraw : raw ≠ "")
    (limit : Option Int) :
    (∃ applied e new, filter cat (some raw) limit d = .ok applied e ∧
      e.notes = d.notes ++ new ∧
      cat.AccountsFor .filter Predicate.compile raw limit applied new) ∧
    ∃ applied e new, sort cat (some raw) limit d = .ok applied e ∧
      e.notes = d.notes ++ new ∧ cat.AccountsFor .sort Order.compile raw limit applied new := by
  have hd : Able cat d := ⟨ho, hw, hm⟩
  constructor
  · refine tells_workText hs hraw (fun column expression p hp => ?_) limit hd
    obtain ⟨calls, hcalls⟩ := calls_ok hp
    unfold sendPredicate
    rw [hcalls]
    exact quiet_issueAll calls
  · exact tells_workText hs hraw (fun _ _ o _ => quiet_issue _) limit hd

theorem segments_noted_users :
    let d := usersAfter [.join (.named (.text "role"))]
    let raw := "junk@profile.photo:equal_x@secret:equal_1@id:equals_2@id:equal_5"
    Catalog.ofUsers.separator ≠ "" ∧ Catalog.ofUsers.book.Reaches d.memory ∧
      d.session.isOpen = true ∧ Willing d.session.query ∧ raw ≠ "" ∧
      ∃ applied e new, filter .ofUsers (some raw) (some 3) d = .ok applied e ∧
        Catalog.ofUsers.AccountsFor .filter Predicate.compile raw (some 3) applied new := by
  have hs : Catalog.ofUsers.separator ≠ "" := by decide
  have hm : Catalog.ofUsers.book.Reaches (usersAfter [.join (.named (.text "role"))]).memory :=
    (moves_run _ (by simp) .empty).2
  have ho : (usersAfter [.join (.named (.text "role"))]).session.isOpen = true := by
    decide +kernel
  have hw : Willing (usersAfter [.join (.named (.text "role"))]).session.query :=
    Logged.willing (willing_recorder (by decide +kernel))
  have hraw : "junk@profile.photo:equal_x@secret:equal_1@id:equals_2@id:equal_5" ≠ "" := by decide
  obtain ⟨⟨applied, e, new, hok, -, haccounts⟩, -⟩ := segments_noted hs hm ho hw hraw (some 3)
  exact ⟨hs, hm, ho, hw, hraw, applied, e, new, hok, haccounts⟩

/-- What is noted there, up to the third condition: the picture is joined in between. -/
example : Note.fates (after (filter .ofUsers mixedText (some 3))
      (usersAfter [.join (.named (.text "role"))])).notes =
    [.malformed, .applied, .dropped, .ignored] := by
  decide +kernel

end Desk

end Winnow
