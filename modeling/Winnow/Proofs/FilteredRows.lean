import Winnow.Demo.Models
import Winnow.Proofs.SingleTableFetch
import Winnow.Proofs.SoundRepositories

namespace Winnow.Repository

variable {r : Repository} {s : State}

def columnRef (r : Repository) (listed : String) : ColumnRef :=
  ⟨r.model.table.name, bareName listed⟩

theorem filter_of_filled {raw : Option String} {text : String} {limit : Option Int}
    {found : List Predicate} {d : Desk Select} (hf : filled? raw = some text)
    (hd : Desk.filter r.catalog (some text) limit s.desk = .ok found d) :
    r.filter raw limit s =
      .ok () { s with desk := d, strings := { s.strings with filter := some text } } := by
  unfold Repository.filter withText
  rw [hf]
  change (atDesk (Desk.filter r.catalog (some text) limit) >>= fun _ => pure ())
    { s with strings := { s.strings with filter := some text } } = _
  have hat : atDesk (Desk.filter r.catalog (some text) limit)
      { s with strings := { s.strings with filter := some text } } =
        .ok found { s with desk := d, strings := { s.strings with filter := some text } } := by
    simp only [atDesk, hd]
  rw [bind_of_ok hat]
  rfl

theorem filter_of_unfilled {raw : Option String} {limit : Option Int} (hf : filled? raw = none) :
    r.filter raw limit s = .ok () s := by
  unfold Repository.filter withText
  rw [hf]
  rfl

theorem conditions_of_unfilled {raw : Option String} {limit : Option Int} (h : r.Sound)
    (hf : filled? raw = none) : r.catalog.conditions .filter raw limit = [] := by
  obtain ⟨segments, hscan⟩ := Segment.scan_ok h.separator
    (some (limit.getD (r.catalog.limit .filter))) (raw.getD "")
  rw [Catalog.conditions_of_scan hscan]
  have hempty : raw.getD "" = "" := by
    cases raw with
    | none => rfl
    | some text => simpa [filled?, Option.filter] using hf
  rw [hempty] at hscan
  obtain rfl : segments = [] := by simpa [Segment.scan] using hscan.symm
  rfl

theorem filter_ok (h : r.Sound) (hs : r.Ready s) (raw : Option String) (limit : Option Int)
    (hdirect : ∀ c ∈ r.catalog.conditions .filter raw limit,
      r.catalog.columnOf? .filter c.column ≠ none → c.column ∈ r.catalog.filterable) :
    ∃ s', r.filter raw limit s = .ok () s' ∧ s'.database = s.database ∧
      Desk.Serves r.catalog (r.bareQuery.addTests (r.scopeTests ++ Desk.directTests r.catalog
        r.columnRef (r.catalog.conditions .filter raw limit))) s'.desk := by
  have hserves := serves_of_ready h hs
  rw [Select.addTests_append]
  cases hf : filled? raw with
  | none =>
    refine ⟨s, filter_of_unfilled hf, rfl, ?_⟩
    rw [conditions_of_unfilled h hf, Desk.directTests, List.flatMap_nil, Select.addTests_nil]
    exact hserves
  | some text =>
    obtain rfl : raw = some text := (Option.filter_eq_some_iff.mp hf).1
    have hlisted : ∀ c ∈ r.catalog.filterable, (r.bareQuery.addTests r.scopeTests).findColumn
        (r.catalog.book.qualify c) = .ok (r.columnRef c) := h.listed
    obtain ⟨found, d, hd, hserves'⟩ :=
      Desk.filter_of_direct h.separator hlisted hdirect hserves
    exact ⟨_, filter_of_filled hf hd, rfl, hserves'⟩

/-- Running an accepted query gives its rows without the hidden columns, and starts a new
session. -/
theorem all_ok {q : Select} {rows : List Row} (hs : Desk.Serves r.catalog q s.desk)
    (hq : q.fetch s.database.current {} = .ok rows) :
    ∃ s', r.all s =
        .ok (rows.map fun row => row.filter fun entry => entry.1 ∉ r.concealedKeys q) s' ∧
      r.Ready s' ∧ s'.database = s.database := by
  have hfetch : r.fetch {} s.database.current s.desk.session.query =
      .ok (rows.map fun row => row.filter fun entry => entry.1 ∉ r.concealedKeys q) := by
    unfold Repository.fetch
    rw [hs.query, hq]
    rfl
  have ho := hs.isOpen
  have hrun : Desk.execute (r.fetch {} s.database.current) s.desk =
      .ok (rows.map fun row => row.filter fun entry => entry.1 ∉ r.concealedKeys q)
        { s.desk with
          notes := s.desk.notes ++ [.executing]
          session := { s.desk.session with phase := .executed } } := by
    simp only [Desk.execute, Desk.onSession, Session.execute, ho, ↓reduceIte, hfetch]
  unfold all execute
  simp only [hrun]
  exact ⟨_, rfl, ⟨rfl, hs.memory⟩, rfl⟩

/-- Whether a row is marked as trashed. -/
def isTrashed (r : Repository) (row : List Cell) : Bool :=
  r.softDeletes && r.model.table.cell r.catalog.softDeleteColumn row != .null

/-- Whether a condition on a listed column says something true of a row. Other conditions, and
those that cannot be understood, leave every row. -/
def admits (r : Repository) (row : List Cell) (c : Condition) : Bool :=
  if c.column ∈ r.catalog.filterable then
    match meaning? (r.schema.columnType r.model.table.name (bareName c.column))
        (r.model.table.cell (bareName c.column) row) c.expression with
    | some truth => truth.isTrue
    | none => true
  else true

/-- A row as clients get it. -/
def shownRow (r : Repository) (row : List Cell) : Row :=
  (Select.readRow r.model.table row).filter fun entry => entry.1 ∉ r.model.hidden

theorem concealed_iff (tests : List Test) {name : String} (hn : name ∈ r.model.table.columnNames) :
    name ∈ r.concealedKeys (r.bareQuery.addTests tests) ↔ name ∈ r.model.hidden := by
  unfold concealedKeys
  simp only [Select.selected, Select.addTests, bareQuery, Select.new, List.isEmpty_nil, ↓reduceIte,
    List.filterMap_map, List.mem_filterMap, Function.comp_apply, true_and]
  constructor
  · rintro ⟨c, -, hc⟩
    split at hc
    next hh =>
      cases hc
      exact hh
    next => cases hc
  · intro hh
    exact ⟨name, hn, by simp [hh]⟩

theorem shownRow_eq (tests : List Test) (row : List Cell) :
    (Select.readRow r.model.table row).filter
      (fun entry => entry.1 ∉ r.concealedKeys (r.bareQuery.addTests tests)) = r.shownRow row := by
  unfold shownRow
  apply List.filter_congr
  intro entry he
  obtain ⟨c, hc, rfl⟩ := List.mem_map.mp he
  have hn : c.name ∈ r.model.table.columnNames := List.mem_map_of_mem hc
  simp only [concealed_iff tests hn]

theorem testsBase (h : r.Sound) (conditions : List Condition) :
    Select.TestsBase r.model.table
      (r.scopeTests ++ Desk.directTests r.catalog r.columnRef conditions) := by
  intro t ht
  rcases List.mem_append.mp ht with ht | ht
  · unfold scopeTests at ht
    split at ht
    next hs =>
      cases List.mem_singleton.mp ht
      exact ⟨_, mem_of_findColumn h (h.trashMark hs), .null⟩
    next => cases ht
  · obtain ⟨c, -, ht⟩ := List.mem_flatMap.mp ht
    split at ht
    next hl =>
      split at ht
      next p hp =>
        exact ⟨_, mem_of_findColumn h (h.listed _ hl), Predicate.tests_ofTexts hp t ht⟩
      next => cases ht
    next => cases ht

theorem eval_base (h : r.Sound) {t : Test} {column : String} (row : List Cell)
    (ht : t.column = ⟨r.model.table.name, column⟩) :
    t.eval [⟨r.model.table, row⟩] = t.truth (r.schema.columnType r.model.table.name column)
      (r.model.table.cell column row) := by
  have htype : Env.type [⟨r.model.table, row⟩] ⟨r.model.table.name, column⟩ =
      r.schema.columnType r.model.table.name column := by
    have hfind : Env.find? [⟨r.model.table, row⟩] ⟨r.model.table.name, column⟩ =
        some ⟨r.model.table, row⟩ := by simp [Env.find?]
    unfold Env.type Schema.columnType
    rw [hfind, h.registered]
    rfl
  unfold Test.eval
  rw [ht, htype, Select.cell_base]

theorem keeps_scopeTests (h : r.Sound) (row : List Cell) :
    Select.keeps r.model.table r.scopeTests row = !r.isTrashed row := by
  unfold scopeTests isTrashed
  cases r.softDeletes with
  | false => rfl
  | true =>
    simp only [↓reduceIte, Select.keeps, List.all_cons, List.all_nil, Bool.and_true, Bool.true_and]
    rw [eval_base h row rfl]
    by_cases hn : r.model.table.cell r.catalog.softDeleteColumn row = .null
    · simp [Test.truth, Truth.isTrue, hn]
    · simp [Test.truth, Truth.isTrue, hn]

theorem keeps_directTests (h : r.Sound) (conditions : List Condition) (row : List Cell) :
    Select.keeps r.model.table (Desk.directTests r.catalog r.columnRef conditions) row =
      conditions.all (r.admits row) := by
  unfold Select.keeps Desk.directTests
  rw [List.all_flatMap]
  congr 1
  funext c
  unfold admits
  by_cases hl : c.column ∈ r.catalog.filterable
  · simp only [hl, ↓reduceIte]
    have hmeaning := tests_eq_meaning
      (t := r.schema.columnType r.model.table.name (bareName c.column))
      (a := r.model.table.cell (bareName c.column) row) (c := r.columnRef c.column)
      (r.catalog.book.qualify c.column) c.expression
    cases hp : Predicate.compile (r.catalog.book.qualify c.column) c.expression with
    | none =>
      rw [hp] at hmeaning
      rw [Option.map_eq_none_iff.mp hmeaning.symm]
      rfl
    | some p =>
      rw [hp] at hmeaning
      obtain ⟨truth, ht, he⟩ := Option.map_eq_some_iff.mp hmeaning.symm
      rw [ht]
      simp only
      rw [he]
      unfold allTrue
      rw [Bool.eq_iff_iff, List.all_eq_true, List.all_eq_true]
      refine forall₂_congr fun test htest => ?_
      rw [eval_base h row (Predicate.tests_ofTexts hp test htest).column]
  · simp only [hl, ↓reduceIte, List.all_nil]

/-- A sound repository can be started, and where the conditions that are read from a text and may
be used all name listed columns, filtering by it gives exactly the rows that are not trashed and of
which each condition says something true, in the order of the table. -/
theorem rows_of_filter (h : r.Sound) (raw : Option String) (limit : Option Int)
    (hdirect : ∀ c ∈ r.catalog.conditions .filter raw limit,
      r.catalog.columnOf? .filter c.column ≠ none → c.column ∈ r.catalog.filterable) :
    (∀ db, ∃ s, r.start db = .ok s ∧ r.Ready s ∧ s.database = db) ∧
      ∀ s, r.Ready s → ∃ s', (do r.filter raw limit; r.all : Step (List Row)) s = .ok
          (((s.database.current.rowsOf r.model.table.name).filter fun row =>
            !r.isTrashed row && (r.catalog.conditions .filter raw limit).all (r.admits row)).map
              r.shownRow) s' ∧
        r.Ready s' ∧ s'.database = s.database := by
  refine ⟨start_ready h, fun s hs => ?_⟩
  obtain ⟨s₁, hfilter, hdb, hserves⟩ := filter_ok h hs raw limit hdirect
  rw [bind_of_ok hfilter]
  have hfetch := Select.fetch_new r.schema s₁.database.current h.distinct
    (testsBase h (r.catalog.conditions .filter raw limit))
  obtain ⟨s₂, hall, hready, hdb'⟩ := all_ok hserves hfetch
  refine ⟨s₂, ?_, hready, hdb'.trans hdb⟩
  rw [hall, hdb, List.map_map]
  have hkeeps : Select.keeps r.model.table (r.scopeTests ++ Desk.directTests r.catalog r.columnRef
      (r.catalog.conditions .filter raw limit)) = fun row => !r.isTrashed row &&
        (r.catalog.conditions .filter raw limit).all (r.admits row) := by
    funext row
    rw [← keeps_scopeTests h, ← keeps_directTests h]
    exact List.all_append
  rw [hkeeps]
  congr 2
  funext row
  exact shownRow_eq _ row

def articles : Repository :=
  define Demo.article Demo.schema {} [] ["id", "content"] [] [] true

def shortArticles : Option String := some "id:lower_9@content:is_not-null"

theorem rows_of_filter_articles :
    articles.Sound ∧
      (∀ c ∈ articles.catalog.conditions .filter shortArticles none,
        articles.catalog.columnOf? .filter c.column ≠ none →
          c.column ∈ articles.catalog.filterable) ∧
      ∃ s s', articles.start (.ofTables Demo.tables) = .ok s ∧
        (do articles.filter shortArticles none; articles.all : Step (List Row)) s =
          .ok ((Demo.articleRows.take 1).map articles.shownRow) s' := by
  have hsound : articles.Sound := sound_define {} [] [] [] true (by decide +kernel)
    (by decide +kernel) (by decide +kernel) (by decide +kernel) (by decide +kernel)
    (by decide +kernel)
  have hdirect : ∀ c ∈ articles.catalog.conditions .filter shortArticles none,
      articles.catalog.columnOf? .filter c.column ≠ none →
        c.column ∈ articles.catalog.filterable := by decide +kernel
  obtain ⟨hstart, hrows⟩ := rows_of_filter hsound shortArticles none hdirect
  obtain ⟨s, hs, hready, hdb⟩ := hstart (.ofTables Demo.tables)
  obtain ⟨s', hall, -⟩ := hrows s hready
  have hkept : ((Database.ofTables Demo.tables).current.rowsOf articles.model.table.name).filter
      (fun row => !articles.isTrashed row &&
        (articles.catalog.conditions .filter shortArticles none).all (articles.admits row)) =
      Demo.articleRows.take 1 := by decide +kernel
  rw [hdb, hkept] at hall
  exact ⟨hsound, hdirect, s, s', hs, hall⟩

end Winnow.Repository
