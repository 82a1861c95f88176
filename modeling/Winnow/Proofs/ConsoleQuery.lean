import Winnow.Console.Run
import Winnow.Proofs.TextOutcome
import Winnow.Proofs.ClosedSessions
import Winnow.Proofs.RenewedRepository

namespace Winnow

def Answers {α : Type} (x : Except Failure α) : Prop := ∃ a, x = .ok a

namespace Answers

variable {α β : Type}

theorem pure (a : α) : Answers (pure a) := ⟨a, rfl⟩

theorem bind {x : Except Failure α} {f : α → Except Failure β} (hx : Answers x)
    (hf : ∀ a, Answers (f a)) : Answers (x >>= f) := by
  obtain ⟨a, rfl⟩ := hx
  exact hf a

end Answers

section Text

variable (schema : Schema) (numbers : Numbering)

theorem answers_test (test : Test) : Answers (test.sql .placeholders schema numbers) := by
  cases test with
  | compare column comparison value => cases value <;> exact .pure _
  | null column negated => exact .pure _
  | between column low high negated => exact .pure _
  | member column values negated => exact .pure _

theorem answers_tests (tests : List Test) :
    Answers (testsSql .placeholders schema numbers tests) := by
  induction tests generalizing numbers with
  | nil => exact .pure _
  | cons test tests ih =>
    exact (answers_test schema numbers test).bind fun written =>
      (ih written.2).bind fun _ => .pure _

theorem answers_clauses (grouped : Bool) (clauses : List Clause) :
    Answers (clausesSql .placeholders schema grouped numbers clauses) := by
  induction clauses generalizing numbers with
  | nil => exact .pure _
  | cons clause clauses ih =>
    exact (answers_tests schema numbers clause.tests).bind fun written =>
      (ih written.2).bind fun _ => .pure _

theorem Select.answers_sql (q : Select) : Answers (q.sql .placeholders) := by
  have hrest : Answers (q.restSql .placeholders) :=
    (answers_clauses q.schema q.named.2 _ q.clauses).bind fun _ => .pure _
  exact hrest.bind fun _ => .pure _

end Text

theorem mem_lower {line : String} (h : ' ' ∈ line.toList) : ' ' ∈ (lower line).toList := by
  have hlist : ∀ before cs, ' ' ∈ cs → ' ' ∈ lowerList before cs := by
    intro before cs hc
    induction cs generalizing before with
    | nil => cases hc
    | cons c cs ih =>
      unfold lowerList
      refine List.mem_append.mpr ?_
      rcases List.mem_cons.mp hc with rfl | hc
      · refine Or.inl ?_
        rw [if_neg (by decide)]
        decide
      · exact Or.inr (ih _ hc)
  unfold lower
  rw [String.toList_ofList]
  exact hlist [] _ h

namespace Desk

variable {Q α : Type} [QueryTarget Q] {cat : Catalog} {use : Use}
variable {compile : String → String → Option α}

theorem compiled?_of_unapplied (hcompile : ∀ column e, (compile column e).isSome = use.compiles e)
    {c : Condition} (h : cat.applied? use c = none) : cat.compiled? use compile c = none := by
  unfold Catalog.compiled?
  cases hf : cat.columnOf? use c.column with
  | none => rfl
  | some found =>
    have hnone : compile found.column c.expression = none := by
      rw [← Option.isNone_iff_eq_none, ← Option.not_isSome, hcompile]
      simpa [Catalog.applied?, hf] using h
    simp [hnone]

theorem filter_of_unapplied {raw : Option String} {limit : Option Int}
    (hnone : ∀ c ∈ cat.conditions .filter raw limit, cat.applied? .filter c = none) {d : Desk Q}
    (hm : cat.book.Reaches d.memory) :
    ∃ d', d'.session = d.session ∧ ((∃ a, filter cat raw limit d = .ok a d') ∨
      filter cat raw limit d = .error .emptySeparator d') :=
  workText_of_uncompiled _
    (fun c hc => compiled?_of_unapplied (fun _ _ => Option.isSome_map) (hnone c hc)) hm

theorem sort_of_unapplied {raw : Option String} {limit : Option Int}
    (hnone : ∀ c ∈ cat.conditions .sort raw limit, cat.applied? .sort c = none) {d : Desk Q}
    (hm : cat.book.Reaches d.memory) :
    ∃ d', d'.session = d.session ∧ ((∃ a, sort cat raw limit d = .ok a d') ∨
      sort cat raw limit d = .error .emptySeparator d') :=
  workText_of_uncompiled _
    (fun c hc => compiled?_of_unapplied (fun _ _ => Option.isSome_map) (hnone c hc)) hm

theorem join_of_nowhere {name : RelationName} (hn : (cat.book.route (.named name)).hops = [])
    {d : Desk Q} (hm : cat.book.Reaches d.memory) :
    ∃ d', d'.session = d.session ∧ join cat (.named name) d = .ok () d' := by
  obtain ⟨r, d', hr⟩ : ∃ r d', route cat (.named name) d = .ok r d' := ⟨_, _, rfl⟩
  obtain ⟨rfl, hs, -⟩ := route_of_ok hm hr
  have happly : applyRelation cat (.named name) d =
      .ok (cat.book.route (.named name)) d' := by
    rw [applyRelation_eq hr]
    cases cat.book.relationOf? (.named name) with
    | none => rfl
    | some rel => simp [hn]
  exact ⟨d', hs, bind_of_ok happly⟩

end Desk

namespace Console

/-- What a line does to the query of the console. -/
inductive Line where
  | applies (op : Repository.Operation)
  | shows
  | runs
  | resets
  /-- Nothing: there is no such command, or the line is empty. -/
  | idle

namespace Line

def ofCommand (name argument : String) : Line :=
  match name with
  | "filter" => applies (.filter (some argument) none)
  | "sort" => applies (.sort (some argument) none)
  | "search" => applies (.search (some argument))
  | "join" => applies (.join (.named (.text argument)))
  | "sql" => shows
  | "run" => runs
  | "reset" => resets
  | _ => idle

def names : List String := ["filter", "sort", "search", "join", "sql", "run", "reset"]

theorem ofCommand_of_unknown {name : String} (h : name ∉ names) (argument : String) :
    ofCommand name argument = .idle := by
  unfold ofCommand
  split
  next => exact absurd (by decide) h
  next => exact absurd (by decide) h
  next => exact absurd (by decide) h
  next => exact absurd (by decide) h
  next => exact absurd (by decide) h
  next => exact absurd (by decide) h
  next => exact absurd (by decide) h
  next => rfl

/-- The command word stands before the first blank, in any letter case, and its argument after. -/
def read (typed : String) : Line :=
  ofCommand (splitLine (stripped typed)).1 (splitLine (stripped typed)).2

/-- The operations that a line applies to the query. -/
def applied : Line → List Repository.Operation
  | applies op => [op]
  | _ => []

end Line

/-- The session after a line. -/
def Session.next (d : Drawing) (s : Session) (typed : String) : Session := (turn d s typed).session

def sessionAfter (d : Drawing) (s : Session) (lines : List String) : Session :=
  lines.foldl (Session.next d) s

/-- Whether the console breaks off at one of some lines. -/
def breaksOff (d : Drawing) (s : Session) : List String → Bool
  | [] => false
  | typed :: lines => (turn d s typed).broken || breaksOff d (s.next d typed) lines

/-- What is shown for lines that are no farewell. -/
def shownBy (d : Drawing) (s : Session) : List String → List Event
  | [] => []
  | typed :: lines =>
    (turn d s typed).events ++
      if (turn d s typed).broken then [] else shownBy d (s.next d typed) lines

/-- Whether a step fails because a query was put together wrongly. -/
def raises {α : Type} (step : Repository.Step α) (s : Repository.State) : Bool :=
  match step s with
  | .ok _ _ => false
  | .error e _ => isConfigurationFailure e

/-- Whether the query is given up with a line: it is run or reset, or the line puts it together
wrongly. -/
def Line.givesUp (s : Session) : Line → Bool
  | runs | resets => true
  | applies op => raises (op.perform s.repository) s.state
  | _ => false

/-- The operations that were applied since the query was last given up; `ops` were before. -/
def pending (d : Drawing) (s : Session) (ops : List Repository.Operation) :
    List String → List Repository.Operation
  | [] => ops
  | typed :: lines =>
    let line := Line.read typed
    pending d (s.next d typed) (if line.givesUp s then [] else ops ++ line.applied) lines

/-- The state that a new repository of the console starts with. -/
def opening (settings : Settings) (db : Database) : Repository.State where
  desk := { session := Winnow.Session.new (users settings).scopedQuery }
  database := db

theorem start_users (settings : Settings) (db : Database) :
    (users settings).start db = .ok (opening settings db) := rfl

variable {typed word argument : String}

theorem splitLine_append (hw : ' ' ∉ word.toList) :
    splitLine (word ++ " " ++ argument) = (lower word, argument) := by
  have hcut : cut ' ' (word ++ " " ++ argument) = some (word, argument) := by
    have hlist : (word ++ " " ++ argument).toList = word.toList ++ ' ' :: argument.toList := by
      simp [String.toList_append]
    unfold cut
    rw [hlist, cutList_append hw]
    simp
  unfold splitLine
  rw [hcut]
  rfl

theorem splitLine_word (hw : ' ' ∉ word.toList) : splitLine word = (lower word, "") := by
  have hcut : cut ' ' word = none := by
    unfold cut
    rw [cutList_eq_none hw]
    rfl
  unfold splitLine
  rw [hcut]
  rfl

theorem read_of_lower (h : lower (stripped typed) = word) (hw : ' ' ∉ word.toList) :
    Line.read typed = Line.ofCommand word "" := by
  have hline : ' ' ∉ (stripped typed).toList := fun hm => hw (h ▸ mem_lower hm)
  unfold Line.read
  rw [splitLine_word hline, h]

theorem read_of_farewell (h : isFarewell (stripped typed) = true) : Line.read typed = .idle := by
  unfold isFarewell at h
  rw [List.contains_iff_mem] at h
  simp only [List.mem_cons, List.not_mem_nil, or_false] at h
  rcases h with h | h | h
  · exact read_of_lower h (by decide)
  · exact read_of_lower h (by decide)
  · exact read_of_lower h (by decide)

variable {d : Drawing}

theorem turn_of_command (d : Drawing) (s : Session) (h : Line.read typed ≠ .idle) :
    turn d s typed = command d s (stripped typed) := by
  have hempty : stripped typed ≠ "" := by
    intro he
    have hlower : lower (stripped typed) = "" := by
      rw [he]
      rfl
    exact h (read_of_lower hlower (by decide))
  have hhelp : lower (stripped typed) ≠ "help" := fun hh => h (read_of_lower hh (by decide))
  unfold turn
  rw [if_neg hempty, if_neg hhelp]

theorem command_eq (d : Drawing) (s : Session) (line : String) :
    command d s line = match Line.ofCommand (splitLine line).1 (splitLine line).2 with
      | .applies op => act d s (do
          let _ ← op.perform s.repository
          return [Event.done ((splitLine line).1 ++ " applied")])
      | .shows => act d s (do return [← showQuery])
      | .runs => runQuery d s
      | .resets => act d s (do s.repository.reset; return [Event.done "Query reset"])
      | .idle => present d s [Event.error "Unknown Command"
          ("'" ++ (splitLine line).1 ++ "' - type 'help' for commands")] := by
  unfold command
  generalize splitLine line = parts
  obtain ⟨name, argument⟩ := parts
  simp only
  split
  next => simp only [Line.ofCommand, Repository.Operation.perform, bind_assoc, pure_bind]
  next => simp only [Line.ofCommand, Repository.Operation.perform, bind_assoc, pure_bind]
  next => simp only [Line.ofCommand, Repository.Operation.perform, bind_assoc, pure_bind]
  next => simp only [Line.ofCommand, Repository.Operation.perform, bind_assoc, pure_bind]
  next => rfl
  next => rfl
  next => rfl
  next h₁ h₂ h₃ h₄ h₅ h₆ h₇ =>
    have hunknown : name ∉ Line.names := by
      simp only [Line.names, List.mem_cons, List.not_mem_nil, or_false]
      rintro (h | h | h | h | h | h | h)
      · exact h₁ h
      · exact h₂ h
      · exact h₃ h
      · exact h₄ h
      · exact h₅ h
      · exact h₆ h
      · exact h₇ h
    rw [Line.ofCommand_of_unknown hunknown]

theorem of_complain_broken {s : Session} {title message : String}
    (h : (complain d s title message).broken = true) :
    (d.refusal (Event.error title message)).isSome = true := by
  unfold complain at h
  split at h
  next => cases h
  next hrefused => rw [hrefused]; rfl

theorem session_complain (s : Session) (title message : String) :
    (complain d s title message).session = s := by
  unfold complain
  split <;> rfl

theorem session_present (s : Session) (events : List Event) :
    (present d s events).session = s := by
  unfold present
  split
  next => rfl
  next => exact session_complain s _ _

theorem session_recover (s : Session) (e : Failure) (state : Repository.State) :
    (recover d s e state).session =
      if isConfigurationFailure e = true then
        { s with state := match s.repository.start state.database with
          | .ok state => state
          | .error _ => state }
      else { s with state } := by
  unfold recover
  split <;> exact session_complain _ _ _

theorem session_act {step : Repository.Step (List Event)} (s : Session) :
    (act d s step).session = match step s.state with
      | .ok _ state => { s with state }
      | .error e state => (recover d s e state).session := by
  unfold act
  cases step s.state with
  | ok events state => exact session_present _ _
  | error e state => rfl

theorem next_of_idle (d : Drawing) (s : Session) (h : Line.read typed = .idle) :
    s.next d typed = s := by
  have hcommand : (command d s (stripped typed)).session = s := by
    unfold Line.read at h
    rw [command_eq, h]
    exact session_present s _
  unfold Session.next turn
  simp only
  split
  next => rfl
  next =>
    split
    next => exact session_present s _
    next => exact hcommand

theorem next_of_command (s : Session) (h : Line.read typed ≠ .idle) :
    s.next d typed = (command d s (stripped typed)).session := by
  unfold Session.next
  rw [turn_of_command d s h]

variable {settings : Settings} {db : Database} {ops target : List Repository.Operation}
variable {s : Session}

/-- The console works on its users, and what shows of them is what shows of a new repository after
these operations. -/
structure Follows (settings : Settings) (db : Database) (ops : List Repository.Operation)
    (s : Session) : Prop where
  repository : s.repository = users settings
  state : s.state.Alike (users settings) db ((users settings).run ops (opening settings db))

theorem follows_opening (settings : Settings) (db : Database) (ops : List Repository.Operation) :
    Follows settings db ops ⟨users settings, (users settings).run ops (opening settings db)⟩ :=
  ⟨rfl, Repository.alike_run (start_users settings db) ops⟩

/-- After a step that leaves what the operations of `target` leave, the console follows these, or
begins anew. -/
theorem Follows.acted {step : Repository.Step (List Event)} (h : Follows settings db ops s)
    (hafter : (after step s.state).Alike (users settings) db
      ((users settings).run target (opening settings db))) :
    Follows settings db (if raises step s.state then [] else target) (act d s step).session := by
  rw [session_act]
  unfold raises
  unfold after at hafter
  cases hr : step s.state with
  | ok events state =>
    simp only [hr] at hafter
    exact ⟨h.repository, hafter⟩
  | error e state =>
    simp only [hr] at hafter
    simp only [session_recover]
    split
    next =>
      rw [h.repository, hafter.database, start_users]
      exact follows_opening settings db []
    next => exact ⟨h.repository, hafter⟩

theorem showQuery_eq (state : Repository.State) :
    ∃ code, state.desk.session.query.sql .placeholders = .ok code ∧
      showQuery state = .ok (Event.query code) state := by
  obtain ⟨code, hcode⟩ := state.desk.session.query.answers_sql
  refine ⟨code, hcode, ?_⟩
  unfold showQuery
  rw [get_bind, hcode]
  rfl

theorem raises_map {α β : Type} (step : Repository.Step α) (f : α → β) (state : Repository.State) :
    raises (do return f (← step)) state = raises step state := by
  unfold raises
  cases h : step state with
  | ok a s' => rw [bind_of_ok h]; rfl
  | error e s' => rw [bind_of_error h]

theorem Follows.left (h : Follows settings db ops s) :
    s.state.Alike (users settings) db s.state :=
  ⟨⟨h.state.desk.isOpen, rfl, rfl, rfl, h.state.desk.memory, h.state.desk.memory⟩, rfl,
    h.state.database, h.state.database⟩

theorem Follows.applied (h : Follows settings db ops s) (op : Repository.Operation)
    (events : List Event) :
    Follows settings db (if raises (op.perform s.repository) s.state then [] else ops ++ [op])
      (act d s (do let _ ← op.perform s.repository; return events)).session := by
  have hafter : (after (op.perform s.repository) s.state).Alike (users settings) db
      ((users settings).run (ops ++ [op]) (opening settings db)) := by
    rw [h.repository, Repository.run_append]
    exact (Repository.respects_perform op _ _ h.state).after
  rw [← after_map _ fun _ => events] at hafter
  rw [← raises_map _ fun _ => events]
  exact h.acted hafter

theorem Follows.ran (h : Follows settings db ops s) :
    Follows settings db [] (runQuery d s).session := by
  obtain ⟨code, -, hshow⟩ := showQuery_eq s.state
  have hafter : (after (do return [results (← s.repository.all)]) s.state).Alike (users settings) db
      ((users settings).run [] (opening settings db)) := by
    rw [after_map s.repository.all fun rows => [results rows], h.repository]
    unfold Repository.all
    rw [Repository.after_execute h.state.desk.isOpen]
    exact Repository.alike_renewed h.left (start_users settings db)
  unfold runQuery
  simp only [hshow, d.own (Event.query code) rfl]
  have hacted := h.acted (d := d) hafter
  rwa [ite_self] at hacted

theorem Follows.dropped (h : Follows settings db ops s) (events : List Event) :
    Follows settings db [] (act d s (do s.repository.reset; return events)).session := by
  have hafter : (after (do s.repository.reset; return events) s.state).Alike (users settings) db
      ((users settings).run [] (opening settings db)) := by
    rw [after_map s.repository.reset fun _ => events, h.repository]
    exact Repository.alike_reset h.left (start_users settings db)
  simpa only [ite_self] using h.acted hafter

theorem Follows.shown (h : Follows settings db ops s) :
    Follows settings db ops (act d s (do return [← showQuery])).session := by
  obtain ⟨code, -, hshow⟩ := showQuery_eq s.state
  have hstep : (do return [← showQuery] : Repository.Step (List Event)) s.state =
      .ok [Event.query code] s.state := bind_of_ok hshow
  rw [session_act, hstep]
  exact h

theorem Follows.next (h : Follows settings db ops s) (typed : String) :
    Follows settings db
      (if (Line.read typed).givesUp s then [] else ops ++ (Line.read typed).applied)
      (s.next d typed) := by
  have hcommand : Line.read typed ≠ .idle →
      s.next d typed = (command d s (stripped typed)).session := next_of_command s
  have heq := command_eq d s (stripped typed)
  rw [show Line.ofCommand (splitLine (stripped typed)).1 (splitLine (stripped typed)).2 =
    Line.read typed from rfl] at heq
  cases hline : Line.read typed with
  | idle =>
    rw [next_of_idle d s hline]
    simpa [Line.givesUp, Line.applied] using h
  | shows =>
    rw [hcommand (by simp [hline]), heq, hline]
    simpa [Line.givesUp, Line.applied] using h.shown
  | applies op =>
    rw [hcommand (by simp [hline]), heq, hline]
    exact h.applied op _
  | runs =>
    rw [hcommand (by simp [hline]), heq, hline]
    exact h.ran
  | resets =>
    rw [hcommand (by simp [hline]), heq, hline]
    exact h.dropped _

theorem follows_lines (lines : List String) (h : Follows settings db ops s) :
    Follows settings db (pending d s ops lines) (sessionAfter d s lines) := by
  unfold sessionAfter
  induction lines generalizing s ops with
  | nil => exact h
  | cons typed lines ih => exact ih (h.next typed)

theorem answerAll_of_broken (hgoes : isFarewell (stripped typed) = false)
    (h : (turn d s typed).broken = true) (later : List String) :
    answerAll d s (typed :: later) = ((turn d s typed).events, some 1) := by
  rw [answerAll, answer, hgoes]
  simp only [h, Bool.false_eq_true, ↓reduceIte]

theorem answerAll_of_going (hgoes : isFarewell (stripped typed) = false)
    (h : (turn d s typed).broken = false) (later : List String) :
    answerAll d s (typed :: later) =
      ((turn d s typed).events ++ (answerAll d (s.next d typed) later).1,
        (answerAll d (s.next d typed) later).2) := by
  rw [answerAll, answer, hgoes]
  simp only [h, Bool.false_eq_true, ↓reduceIte]
  rfl

/-- What lines show that are no farewell, up to the one at which the console breaks off, stands
before what later lines show. -/
theorem answerAll_append {lines : List String}
    (hstay : ∀ line ∈ lines, isFarewell (stripped line) = false) (later : List String) :
    answerAll d s (lines ++ later) =
      if breaksOff d s lines = true then (shownBy d s lines, some 1)
      else (shownBy d s lines ++ (answerAll d (sessionAfter d s lines) later).1,
        (answerAll d (sessionAfter d s lines) later).2) := by
  induction lines generalizing s with
  | nil => rfl
  | cons line lines ih =>
    have hrest := ih (s := s.next d line) fun l hl => hstay l (by simp [hl])
    have hgoes := hstay line (by simp)
    rw [List.cons_append, breaksOff, shownBy]
    cases hbroken : (turn d s line).broken with
    | true =>
      rw [answerAll_of_broken hgoes hbroken]
      simp
    | false =>
      rw [answerAll_of_going hgoes hbroken, hrest]
      simp only [Bool.false_eq_true, ↓reduceIte, Bool.false_or]
      split
      · rfl
      · rw [List.append_assoc]
        rfl

theorem turn_of_shows (hshow : Line.read typed = .shows ∨ Line.read typed = .runs) :
    ∃ code rest, s.state.desk.session.query.sql .placeholders = .ok code ∧
      (turn d s typed).events = Event.query code :: rest := by
  obtain ⟨code, hcode, hquery⟩ := showQuery_eq s.state
  have hne : Line.read typed ≠ .idle := by
    rcases hshow with hline | hline <;> simp [hline]
  have heq := command_eq d s (stripped typed)
  rw [show Line.ofCommand (splitLine (stripped typed)).1 (splitLine (stripped typed)).2 =
    Line.read typed from rfl] at heq
  have hown := d.own (Event.query code) rfl
  rw [turn_of_command d s hne, heq]
  rcases hshow with hline | hline
  · have hstep : (do return [← showQuery] : Repository.Step (List Event)) s.state =
        .ok [Event.query code] s.state := bind_of_ok hquery
    rw [hline]
    simp only [act, hstep, present, Drawing.draw, hown]
    exact ⟨code, [], hcode, rfl⟩
  · rw [hline]
    simp only [runQuery, hquery, hown, Turn.behind, List.singleton_append]
    exact ⟨code, _, hcode, rfl⟩

theorem answerAll_of_shows (later : List String)
    (hshow : Line.read typed = .shows ∨ Line.read typed = .runs) :
    ∃ code rest, s.state.desk.session.query.sql .placeholders = .ok code ∧
      (answerAll d s (typed :: later)).1 = Event.query code :: rest := by
  obtain ⟨code, rest, hcode, hevents⟩ := turn_of_shows (d := d) (s := s) hshow
  have hgoes : isFarewell (stripped typed) = false := by
    rw [← Bool.not_eq_true]
    intro hf
    rcases hshow with hline | hline <;> exact absurd (read_of_farewell hf) (by simp [hline])
  cases hbroken : (turn d s typed).broken with
  | true => exact ⟨code, rest, hcode, by rw [answerAll_of_broken hgoes hbroken, hevents]⟩
  | false =>
    refine ⟨code, rest ++ (answerAll d (s.next d typed) later).1, hcode, ?_⟩
    rw [answerAll_of_going hgoes hbroken, hevents, List.cons_append]

theorem of_present_broken {s : Session} {events : List Event}
    (h : (present d s events).broken = true) :
    ∃ title message, (d.refusal (Event.error title message)).isSome = true := by
  unfold present at h
  split at h
  next => cases h
  next => exact ⟨_, _, of_complain_broken h⟩

theorem of_recover_broken {s : Session} {e : Failure} {state : Repository.State}
    (h : (recover d s e state).broken = true) :
    ∃ title message, (d.refusal (Event.error title message)).isSome = true := by
  unfold recover at h
  split at h <;> exact ⟨_, _, of_complain_broken h⟩

theorem of_act_broken {s : Session} {step : Repository.Step (List Event)}
    (h : (act d s step).broken = true) :
    ∃ title message, (d.refusal (Event.error title message)).isSome = true := by
  unfold act at h
  split at h
  next => exact of_present_broken h
  next => exact of_recover_broken h

theorem of_turn_broken (h : (turn d s typed).broken = true) :
    ∃ title message, (d.refusal (Event.error title message)).isSome = true := by
  have hcommand : (command d s (stripped typed)).broken = true →
      ∃ title message, (d.refusal (Event.error title message)).isSome = true := by
    intro hb
    rw [command_eq] at hb
    split at hb
    next => exact of_act_broken hb
    next => exact of_act_broken hb
    next =>
      unfold runQuery at hb
      split at hb
      next => exact of_recover_broken hb
      next =>
        split at hb
        next => exact ⟨_, _, of_complain_broken hb⟩
        next => exact of_act_broken hb
    next => exact of_act_broken hb
    next => exact of_present_broken hb
  unfold turn at h
  simp only at h
  split at h
  next => cases h
  next =>
    split at h
    next => exact of_present_broken h
    next => exact hcommand h

theorem of_breaksOff {lines : List String} (h : breaksOff d s lines = true) :
    ∃ title message, (d.refusal (Event.error title message)).isSome = true := by
  induction lines generalizing s with
  | nil => cases h
  | cons typed lines ih =>
    rcases Bool.or_eq_true_iff.mp h with hturn | hlater
    · exact of_turn_broken hturn
    · exact ih hlater

/-- Operations of which nothing can be used: the text has no condition that is applied, the term is
empty, or the name leads nowhere. -/
def Unusable (cat : Catalog) : Repository.Operation → Prop
  | .filter raw limit => ∀ c ∈ cat.conditions .filter raw limit, cat.applied? .filter c = none
  | .sort raw limit => ∀ c ∈ cat.conditions .sort raw limit, cat.applied? .sort c = none
  | .search term => Repository.filled? term = none ∨ cat.searchable = []
  | .join (.named name) => (cat.book.route (.named name)).hops = []
  | _ => False

/-- A step that leaves the session of a repository as it is; a text may have no separator. -/
def PassesOver {α : Type} (step : Repository.Step α) (state : Repository.State) : Prop :=
  ∃ state', state'.desk.session = state.desk.session ∧
    ((∃ a, step state = .ok a state') ∨ step state = .error .emptySeparator state')

theorem PassesOver.map {α β : Type} {step : Repository.Step α} {state : Repository.State}
    (h : PassesOver step state) (f : α → β) :
    PassesOver (do return f (← step)) state := by
  obtain ⟨state', hs, ⟨a, hok⟩ | he⟩ := h
  · exact ⟨state', hs, Or.inl ⟨f a, bind_of_ok hok⟩⟩
  · exact ⟨state', hs, Or.inr (bind_of_error he)⟩

theorem passesOver_text {raw : Option String} {f : String → Repository.Step Unit}
    {state : Repository.State}
    (h : ∀ text, raw = some text → PassesOver (f text) state) :
    PassesOver (Repository.withText raw f) state := by
  unfold Repository.withText
  split
  next text hfilled =>
    exact h text (Option.filter_eq_some_iff.mp hfilled).1
  next => exact ⟨state, rfl, Or.inl ⟨(), rfl⟩⟩

theorem passesOver_atDesk {α : Type} {step : Build Select α} {state : Repository.State}
    (h : ∃ d', d'.session = state.desk.session ∧ ((∃ a, step state.desk = .ok a d') ∨
      step state.desk = .error .emptySeparator d')) :
    PassesOver (Repository.atDesk step) state := by
  obtain ⟨d', hs, ⟨a, hok⟩ | he⟩ := h
  · refine ⟨{ state with desk := d' }, hs, Or.inl ⟨a, ?_⟩⟩
    unfold Repository.atDesk
    rw [hok]
  · refine ⟨{ state with desk := d' }, hs, Or.inr ?_⟩
    unfold Repository.atDesk
    rw [he]

theorem passesOver_remember {f : PageTexts → PageTexts} {step : Repository.Step Unit}
    {state : Repository.State}
    (h : PassesOver step { state with strings := f state.strings }) :
    PassesOver (do Repository.remember f; step) state := h

theorem perform_of_unusable {r : Repository} {op : Repository.Operation}
    (hu : Unusable r.catalog op) {state : Repository.State}
    (hm : r.catalog.book.Reaches state.desk.memory) : PassesOver (op.perform r) state := by
  cases op with
  | filter raw limit =>
    refine PassesOver.map (passesOver_text fun text hraw => passesOver_remember ?_) _
    subst hraw
    refine PassesOver.map (passesOver_atDesk ?_) fun _ => ()
    exact Desk.filter_of_unapplied hu hm
  | sort raw limit =>
    refine PassesOver.map (passesOver_text fun text hraw => passesOver_remember ?_) _
    subst hraw
    refine PassesOver.map (passesOver_atDesk ?_) fun _ => ()
    exact Desk.sort_of_unapplied hu hm
  | search term =>
    refine PassesOver.map ?_ _
    -- no term is not searched for at all; one without columns to search makes no call
    rcases hu with hempty | hnone
    · unfold Repository.search Repository.withText
      rw [hempty]
      exact ⟨state, rfl, Or.inl ⟨(), rfl⟩⟩
    · refine passesOver_text fun text _ => passesOver_remember (passesOver_atDesk ?_)
      refine ⟨state.desk, rfl, Or.inl ⟨(), ?_⟩⟩
      unfold Desk.search
      simp only [hnone, List.isEmpty_nil, Bool.or_true, ↓reduceIte]
      rfl
  | join ref =>
    cases ref with
    | named name =>
      obtain ⟨d', hs, hok⟩ := Desk.join_of_nowhere hu hm
      exact (passesOver_atDesk ⟨d', hs, Or.inl ⟨(), hok⟩⟩).map _
    | inline rel => exact hu.elim
    | unnameable kind => exact hu.elim
  | _ => exact hu.elim

theorem Follows.session_of_unusable (h : Follows settings db ops s) {op : Repository.Operation}
    (hline : Line.read typed = .applies op) (hu : Unusable (users settings).catalog op) :
    (s.next d typed).state.desk.session = s.state.desk.session := by
  have heq := command_eq d s (stripped typed)
  rw [show Line.ofCommand (splitLine (stripped typed)).1 (splitLine (stripped typed)).2 =
    Line.read typed from rfl, hline] at heq
  rw [next_of_command s (by simp [hline]), heq, session_act]
  rw [← h.repository] at hu
  have hm : s.repository.catalog.book.Reaches s.state.desk.memory := by
    rw [h.repository]
    exact h.state.desk.memory
  obtain ⟨state', hs, ⟨events, hok⟩ | he⟩ := (perform_of_unusable hu hm).map fun _ =>
    [Event.done ((splitLine (stripped typed)).1 ++ " applied")]
  · rw [hok]
    exact hs
  · rw [he]
    simp only [session_recover]
    exact hs

/-- Whatever lines were typed and however events are drawn, the query that is shown or run next is
the one that a new repository builds from the filters, sorts, searches and joins typed since the
query was last given up: since the start, a run, a reset or a line that put it together wrongly.
Only where a message of a failure is refused does the console break off, and then it shows nothing
more. Lines that are no command, and commands of which nothing can be used, leave the query as it
is. The command word is read in any letter case, and its argument is what follows the first blank.
-/
theorem shows_pending (d : Drawing) (settings : Settings) (db : Database) {before : List String}
    (hstay : ∀ line ∈ before, isFarewell (stripped line) = false) :
    let r := users settings
    let start : Session := ⟨r, opening settings db⟩
    let s := sessionAfter d start before
    let built := r.run (pending d start [] before) (opening settings db)
    r.start db = .ok (opening settings db) ∧
      (breaksOff d start before = false →
        ∀ typed later, Line.read typed = .shows ∨ Line.read typed = .runs → ∃ code rest,
          built.desk.session.query.sql .placeholders = .ok code ∧
            (answerAll d start (before ++ typed :: later)).1 =
              shownBy d start before ++ Event.query code :: rest) ∧
      (breaksOff d start before = true →
        (∀ later, answerAll d start (before ++ later) = (shownBy d start before, some 1)) ∧
          ∃ title message, (d.refusal (Event.error title message)).isSome = true) ∧
      (∀ typed, Line.read typed = .idle → s.next d typed = s) ∧
      (∀ typed op, Line.read typed = .applies op → Unusable r.catalog op →
        (s.next d typed).state.desk.session = s.state.desk.session) ∧
      ∀ typed word argument, ' ' ∉ word.toList →
        (stripped typed = word ++ " " ++ argument →
          Line.read typed = .ofCommand (lower word) argument) ∧
        (stripped typed = word → Line.read typed = .ofCommand (lower word) "") := by
  intro r start s built
  have hfollows : Follows settings db (pending d start [] before) s :=
    follows_lines before (follows_opening settings db [])
  have hquery : s.state.desk.session.query = built.desk.session.query :=
    hfollows.state.desk.query.symm
  refine ⟨rfl, fun hgoes typed later hshow => ?_, fun hbreaks => ⟨fun later => ?_, ?_⟩,
    fun _ => next_of_idle d s, fun _ _ => hfollows.session_of_unusable,
    fun typed word argument hw => ⟨fun h => ?_, fun h => ?_⟩⟩
  · obtain ⟨code, rest, hcode, hshown⟩ := answerAll_of_shows (d := d) (s := s) later hshow
    refine ⟨code, rest, hquery ▸ hcode, ?_⟩
    rw [answerAll_append hstay, if_neg (by simp [hgoes]), ← hshown]
  · rw [answerAll_append hstay, if_pos hbreaks]
  · exact of_breaksOff hbreaks
  · unfold Line.read
    rw [h, splitLine_append hw]
  · unfold Line.read
    rw [h, splitLine_word hw]

def placeOf (piece : String) (text : String) : Option Nat :=
  (List.range text.length).find? fun n => piece.toList.isPrefixOf (text.toList.drop n)

def strict : Drawing where
  refusal
    | .panel _ (.text marked) => (placeOf "[/x]" marked).map fun n =>
        "closing tag '[/x]' at position " ++ toString n ++ " doesn't match any open tag"
    | _ => none
  own e he := by
    cases e with
    | panel title content => cases content <;> first | rfl | cases he
    | blank | text marked | table title headers rows => rfl

def typedLines : List String :=
  ["filter id:equal_1", " Run", "FILTER name:like_a@photo:x", "", "nonsense", "join nowhere",
    "Sort name:desc"]

def typedQuery : String :=
  "SELECT users.id, users.name, users.email, users.status, users.password, users.pic_id, " ++
    "users.role_id \nFROM users \nWHERE users.name LIKE :name_1 ORDER BY users.name DESC"

theorem shows_pending_lines :
    (∀ line ∈ typedLines ++ ["[/x]"], isFarewell (stripped line) = false) ∧
      ∃ db start rest, db = Database.ofTables Demo.tables ∧
        start = Session.mk (users {}) (opening {} db) ∧
        (answerAll strict start (typedLines ++ ["sql"])).1 =
          shownBy strict start typedLines ++ Event.query typedQuery :: rest ∧
        ∀ later, answerAll strict start (typedLines ++ ["[/x]"] ++ later) =
          (shownBy strict start (typedLines ++ ["[/x]"]), some 1) := by
  have hstay : ∀ line ∈ typedLines, isFarewell (stripped line) = false := by decide +kernel
  have hstay' : ∀ line ∈ typedLines ++ ["[/x]"], isFarewell (stripped line) = false := by
    decide +kernel
  obtain ⟨-, hshows, -⟩ := shows_pending strict {} (.ofTables Demo.tables) hstay
  obtain ⟨-, -, hbroken, -⟩ := shows_pending strict {} (.ofTables Demo.tables) hstay'
  have hgoes : breaksOff strict ⟨users {}, opening {} (.ofTables Demo.tables)⟩ typedLines =
      false := by
    decide +kernel
  have hbreaks : breaksOff strict ⟨users {}, opening {} (.ofTables Demo.tables)⟩
      (typedLines ++ ["[/x]"]) = true := by
    decide +kernel
  obtain ⟨code, rest, hcode, hshown⟩ := hshows hgoes "sql" [] (Or.inl rfl)
  have hbuilt : (((users {}).run (pending strict ⟨users {}, opening {} (.ofTables Demo.tables)⟩ []
      typedLines) (opening {} (.ofTables Demo.tables))).desk.session.query.sql
        .placeholders).toOption = some typedQuery := by
    decide +kernel
  rw [hcode] at hbuilt
  obtain rfl := Option.some.inj hbuilt
  exact ⟨hstay', _, _, rest, rfl, rfl, hshown, (hbroken hbreaks).1⟩

end Console

end Winnow
