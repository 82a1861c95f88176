import Winnow.Proofs.IndistinguishableDesks
import Winnow.Proofs.FilteredRows
import Winnow.Proofs.RepositoryOperations

namespace Winnow.Repository

variable {r : Repository} {db : Database} {α : Type}

/-- Two states of a repository over a database that differ in nothing that shows. -/
structure State.Alike (r : Repository) (db : Database) (s t : State) : Prop where
  desk : Desk.Alike r.catalog s.desk t.desk
  strings : t.strings = s.strings
  database : s.database = db
  database' : t.database = db

theorem respects_atDesk {step : Build Select α} (h : Respects (Desk.Alike r.catalog) step) :
    Respects (State.Alike r db) (atDesk step) := by
  intro s t hst
  have hdesk := h _ _ hst.desk
  unfold atDesk
  cases hs : step s.desk with
  | ok a d =>
    cases ht : step t.desk with
    | ok b e =>
      rw [hs, ht] at hdesk
      cases hdesk with
      | ok he => exact .ok ⟨he, hst.strings, hst.database, hst.database'⟩
    | error f e =>
      rw [hs, ht] at hdesk
      cases hdesk
  | error f d =>
    cases ht : step t.desk with
    | ok b e =>
      rw [hs, ht] at hdesk
      cases hdesk
    | error g e =>
      rw [hs, ht] at hdesk
      cases hdesk with
      | error hf he => exact .error hf ⟨he, hst.strings, hst.database, hst.database'⟩

theorem respects_remember (f : PageTexts → PageTexts) :
    Respects (State.Alike r db) (remember f) := fun _ _ h =>
  .ok ⟨h.desk, congrArg f h.strings, h.database, h.database'⟩

theorem respects_reset : Respects (State.Alike r db) r.reset := by
  refine (respects_atDesk ?_).bind fun _ => respects_remember _
  refine Respects.bind (fun d e h => ?_) fun _ => Desk.respects_note _
  have he : e.session.isOpen = true := by
    have ho := h.isOpen
    unfold Session.isOpen at ho ⊢
    rwa [h.phase]
  simp only [Desk.onSession, Session.reset, h.isOpen, he, ↓reduceIte]
  exact .ok ⟨rfl, rfl, rfl, rfl, h.memory, h.memory'⟩

/-- A state with a new session, no texts and the same tables. -/
def State.renewed (r : Repository) (s : State) : State :=
  { s with
    desk := { s.desk with
      session := Session.new r.scopedQuery
      notes := s.desk.notes ++ [.executing] }
    strings := {} }

theorem execute_open {run : Tables → Select → Except Failure α} {s : State}
    (ho : s.desk.session.isOpen = true) :
    r.execute run s = match run s.database.current s.desk.session.query with
      | .ok a => .ok a (s.renewed r)
      | .error e => .error e (s.renewed r) := by
  simp only [execute, Desk.execute, ho, ↓reduceIte, Desk.onSession, Session.execute]
  cases run s.database.current s.desk.session.query <;> rfl

theorem ok_of_execute {run : Tables → Select → Except Failure α} {s s' : State} {a : α}
    (h : r.execute run s = .ok a s') : run s.database.current s.desk.session.query = .ok a := by
  unfold execute Desk.execute Desk.onSession Session.execute at h
  obtain ⟨⟨⟨phase, query, joins, made⟩, memory, reads, notes⟩, strings, database⟩ := s
  cases hr : run database.current query with
  | ok b => cases phase <;> simp [Session.isOpen, hr] at h ⊢ <;> exact h.1
  | error e => cases phase <;> simp [Session.isOpen, hr] at h

/-- The rows of a page, given the number of rows on a page and how many more are asked for. -/
def pageWindow (size page more : Int) : Window :=
  { limit := some (size + more), offset := (max page 1 - 1) * size }

theorem of_page {perPage : Option Int} {number : Int} {s s' : State} {p : Page}
    (h : r.page perPage number s = .ok p s') : ∃ total items size,
      s.desk.session.query.count s.database.current = .ok total ∧
      r.fetch (pageWindow (r.pageSize perPage) number 0) s.database.current
        s.desk.session.query = .ok items ∧
      checkSize (r.pageSize perPage) = .ok size ∧
      p = { items, total, perPage := size, currentPage := (max number 1).toNat,
            query := s.strings } := by
  unfold Repository.page at h
  rw [get_bind] at h
  obtain ⟨total, htotal, h⟩ := ok_of_bind (ok_of_execute h)
  obtain ⟨items, hitems, h⟩ := ok_of_bind h
  obtain ⟨size, hsize, h⟩ := ok_of_bind h
  cases h
  unfold pageWindow
  rw [Int.add_zero]
  exact ⟨total, items, size, htotal, hitems, hsize, rfl⟩

theorem of_openPage {perPage : Option Int} {number : Int} {s s' : State} {p : OpenPage}
    (h : r.openPage perPage number s = .ok p s') : ∃ rows size,
      r.fetch (pageWindow (r.pageSize perPage) number 1) s.database.current
        s.desk.session.query = .ok rows ∧
      checkSize (r.pageSize perPage) = .ok size ∧
      p = { items := rows.take size, perPage := size, currentPage := (max number 1).toNat,
            hasMore := size < rows.length, query := s.strings } := by
  unfold openPage at h
  rw [get_bind] at h
  obtain ⟨rows, hrows, h⟩ := ok_of_bind (ok_of_execute h)
  obtain ⟨size, hsize, h⟩ := ok_of_bind h
  cases h
  exact ⟨rows, size, hrows, hsize, rfl⟩

theorem State.Alike.isOpen_right {s t : State} (h : s.Alike r db t) :
    t.desk.session.isOpen = true := by
  have ho := h.desk.isOpen
  unfold Session.isOpen at ho ⊢
  rwa [h.desk.phase]

theorem State.Alike.renewed {s t : State} (h : s.Alike r db t) :
    (s.renewed r).Alike r db (t.renewed r) :=
  ⟨⟨rfl, rfl, rfl, rfl, h.desk.memory, h.desk.memory'⟩, rfl, h.database, h.database'⟩

theorem respects_execute {run : Tables → Select → Except Failure α}
    (hf : ∀ ts q, Failing (run ts q)) : Respects (State.Alike r db) (r.execute run) := by
  intro s t h
  rw [execute_open h.desk.isOpen, execute_open h.isOpen_right, h.database, h.database',
    h.desk.query]
  cases hr : run db.current s.desk.session.query with
  | ok a => exact .ok h.renewed
  | error e => exact .error (hf _ _ e hr) h.renewed

theorem respects_rules :
    r.OperationRules (Respects (Desk.Alike r.catalog)) (Respects (State.Alike r db)) where
  pure := .pure
  bind := .bind
  desk := Desk.respects_rules
  filterText := Desk.respects_rules.filter (Desk.respects_permits _ _)
  sortText := Desk.respects_rules.sort (Desk.respects_permits _ _)
  searchTerm _ := Desk.respects_rules.search fun _ _ _ => Desk.respects_issue _
  joinOne := Desk.respects_join
  test _ _ _ := Desk.respects_issue _
  atDesk := respects_atDesk
  remember := respects_remember
  get := by
    intro α next hs h s t hst
    change Same _ (next s s) (next t t)
    rw [hs t s hst.strings]
    exact h s s t hst
  reset := respects_reset
  execute := respects_execute

theorem respects_perform (op : Operation) : Respects (State.Alike r db) (op.perform r) :=
  respects_rules.perform op

theorem State.Alike.view {s t : State} (h : s.Alike r db t) : s.view = t.view := by
  simp only [State.view, h.desk.phase, h.desk.query, h.desk.joins, h.strings]

theorem seen_of_same {x y : EStateM.Result Failure State Answer}
    (h : Same (State.Alike r db) x y) :
    seen x = seen y ∧ ∀ action, (seen x).1 ≠ .error (.closedSession action) := by
  cases h with
  | ok h => exact ⟨by simp only [seen, h.view], by simp [seen]⟩
  | error he h =>
    refine ⟨by simp only [seen, h.view], fun action hs => ?_⟩
    cases Except.error.inj hs
    cases he

theorem history_of_alike (ops : List Operation) {s t : State} (h : s.Alike r db t) :
    r.history ops s = r.history ops t ∧
      (∀ entry ∈ r.history ops s, ∀ action, entry.1 ≠ .error (.closedSession action)) ∧
      (r.run ops s).Alike r db (r.run ops t) := by
  induction ops generalizing s t with
  | nil => exact ⟨rfl, by simp [history], h⟩
  | cons op ops ih =>
    have hsame := respects_perform op s t h
    obtain ⟨hseen, hclosed⟩ := seen_of_same hsame
    obtain ⟨hrest, hrestClosed, hrun⟩ := ih hsame.after
    exact ⟨by rw [history, history, hseen, hrest], List.forall_mem_cons.mpr ⟨hclosed, hrestClosed⟩,
      hrun⟩

theorem start_eq {s : State} (h : r.start db = .ok s) :
    s = { desk := { session := Session.new r.scopedQuery }, database := db } := by
  unfold start at h
  split at h
  · exact (Except.ok.inj h).symm
  · cases h

theorem alike_start {s t : State} (h : s.Alike r db s) (ht : r.start db = .ok t)
    (hs : s.desk.session = { Session.new r.scopedQuery with made := s.desk.session.made })
    (hstrings : s.strings = {}) : s.Alike r db t := by
  rw [start_eq ht]
  refine ⟨⟨h.desk.isOpen, ?_, ?_, ?_, h.desk.memory, .empty⟩, hstrings.symm, h.database, rfl⟩
  · rw [hs]
  · rw [hs]
  · rw [hs]

/-- After any operations a repository that was started is over its tables, with an open session. -/
theorem alike_run {t : State} (ht : r.start db = .ok t) (before : List Operation) :
    (r.run before t).Alike r db (r.run before t) := by
  have hstart : t.Alike r db t := by
    rw [start_eq ht]
    exact ⟨⟨rfl, rfl, rfl, rfl, .empty, .empty⟩, rfl, rfl, rfl⟩
  exact (history_of_alike before hstart).2.2

/-- Whether an operation ends what was built: a reset and every result do, a listing where it
succeeds. -/
def Operation.Ends (r : Repository) (s : State) : Operation → Prop
  | .reset | .all | .first | .count | .page _ _ | .openPage _ _ => True
  | .listing asked => succeeds (r.listing asked) s = true
  | _ => False

theorem after_execute {run : Tables → Select → Except Failure α} {s : State}
    (ho : s.desk.session.isOpen = true) : after (r.execute run) s = s.renewed r := by
  unfold after
  rw [execute_open ho]
  cases run s.database.current s.desk.session.query <;> rfl

theorem after_page {perPage : Option Int} {page : Int} {s : State}
    (ho : s.desk.session.isOpen = true) : after (r.page perPage page) s = s.renewed r := by
  unfold after Repository.page
  rw [get_bind]
  exact after_execute ho

theorem after_openPage {perPage : Option Int} {page : Int} {s : State}
    (ho : s.desk.session.isOpen = true) : after (r.openPage perPage page) s = s.renewed r := by
  unfold after openPage
  rw [get_bind]
  exact after_execute ho

theorem alike_renewed {s t : State} (h : s.Alike r db s) (ht : r.start db = .ok t) :
    (s.renewed r).Alike r db t :=
  alike_start h.renewed ht rfl rfl

theorem alike_reset {s t : State} (h : s.Alike r db s) (ht : r.start db = .ok t) :
    (after r.reset s).Alike r db t := by
  have hkept := (respects_reset s s h).after
  have hreset : r.reset s = .ok () { s with
      desk := { s.desk with
        session := { Session.new r.scopedQuery with made := s.desk.session.made + 1 }
        notes := s.desk.notes ++ [.discarded] }
      strings := {} } := by
    have ho := h.desk.isOpen
    obtain ⟨⟨⟨phase, query, joins, made⟩, memory, reads, notes⟩, strings, database⟩ := s
    cases phase with
    | executed => cases ho
    | fresh => rfl
    | building => rfl
  unfold after at hkept ⊢
  rw [hreset] at hkept ⊢
  exact alike_start hkept ht rfl rfl

theorem alike_of_ends {op : Operation} {s t : State} (h : s.Alike r db s) (he : op.Ends r s)
    (ht : r.start db = .ok t) : (after (op.perform r) s).Alike r db t := by
  have ho := h.desk.isOpen
  cases op with
  | reset =>
    unfold Operation.perform
    rw [after_map r.reset fun _ => Answer.done]
    exact alike_reset h ht
  | all =>
    unfold Operation.perform all
    rw [after_map, after_execute ho]
    exact alike_renewed h ht
  | first =>
    unfold Operation.perform first
    rw [after_map, after_map, after_execute ho]
    exact alike_renewed h ht
  | count =>
    unfold Operation.perform count
    rw [after_map, after_execute ho]
    exact alike_renewed h ht
  | page perPage number =>
    unfold Operation.perform
    rw [after_map, after_page ho]
    exact alike_renewed h ht
  | openPage perPage number =>
    unfold Operation.perform
    rw [after_map, after_openPage ho]
    exact alike_renewed h ht
  | listing asked =>
    -- a listing that succeeds gets as far as its page, which is what ends it
    obtain ⟨_, s₁, h₁, hs₁, ha₁⟩ := of_succeeds_bind he
    obtain ⟨_, s₂, h₂, hs₂, ha₂⟩ := of_succeeds_bind hs₁
    obtain ⟨_, s₃, h₃, hs₃, ha₃⟩ := of_succeeds_bind hs₂
    have hlast := (respects_rules.sort _ _).of_ok
      ((respects_rules.filter _ _).of_ok ((respects_rules.search _).of_ok h h₁) h₂) h₃
    unfold Operation.perform listing
    rw [after_map, ha₁, ha₂, ha₃, after_openPage hlast.desk.isOpen]
    exact alike_renewed hlast ht
  | _ => exact he.elim

theorem run_append (before later : List Operation) (s : State) :
    r.run (before ++ later) s = r.run later (r.run before s) := List.foldl_append

/-- Whatever was done before, after an operation that ends what was built a repository shows what
it shows when it is started, over the same tables, and goes on like one that was just started. No
operation ever meets a closed session. -/
theorem history_renewed {t : State} (ht : r.start db = .ok t) (before : List Operation)
    {ending : Operation} (he : ending.Ends r (r.run before t)) (later : List Operation) :
    let s := r.run (before ++ [ending]) t
    s.database = db ∧ s.view = t.view ∧ r.history later s = r.history later t ∧
      ∀ entry ∈ r.history (before ++ ending :: later) t, ∀ action,
        entry.1 ≠ .error (.closedSession action) := by
  intro s
  have hs : s.Alike r db t := by
    change (r.run (before ++ [ending]) t).Alike r db t
    rw [run_append]
    exact alike_of_ends (alike_run ht before) he ht
  exact ⟨hs.database, hs.view, (history_of_alike later hs).1,
    (history_of_alike (before ++ ending :: later) (alike_run ht [])).2.1⟩

def articlesBuilt : List Operation :=
  [.filter shortArticles none, .restrict "elsewhere.id" "=" .null]

theorem history_renewed_articles :
    ∃ t, articles.start (.ofTables Demo.tables) = .ok t ∧
      Operation.Ends articles (articles.run articlesBuilt t) (.listing { filter := shortArticles }) ∧
      articles.history [.all]
        (articles.run (articlesBuilt ++ [.listing { filter := shortArticles }]) t) =
          articles.history [.all] t := by
  have hok : (articles.start (.ofTables Demo.tables)).isOk = true := by decide +kernel
  cases ht : articles.start (.ofTables Demo.tables) with
  | error e => simp [ht, Except.isOk, Except.toBool] at hok
  | ok t =>
    have he : Operation.Ends articles (articles.run articlesBuilt t)
        (.listing { filter := shortArticles }) := by
      change succeeds (articles.listing { filter := shortArticles }) _ = true
      rw [start_eq ht]
      decide +kernel
    exact ⟨t, rfl, he, (history_renewed ht _ he [.all]).2.2.1⟩

end Winnow.Repository
