import Winnow.Proofs.RowOrigin
import Winnow.Proofs.RenewedRepository
import Winnow.Proofs.TrashScope

namespace Winnow.Repository

variable {r : Repository} {db : Database}

/-- What a listing builds before it asks for a page. -/
def buildListing (r : Repository) (asked : Listing) : Step Unit := do
  r.search asked.search
  r.filter asked.filter none
  r.sort asked.sort none

theorem listing_eq (asked : Listing) : r.listing asked =
    (do r.buildListing asked; r.openPage asked.perPage asked.page) := by
  simp only [listing, buildListing, bind_assoc]

/-- The query that an operation runs, if it comes so far. -/
def Operation.query? (r : Repository) (s : State) : Operation → Option Select
  | all | first | count | page _ _ | openPage _ _ => some s.desk.session.query
  | listing asked =>
    match r.buildListing asked s with
    | .ok _ s => some s.desk.session.query
    | .error _ _ => none
  | _ => none

/-- What an operation asks the database for. -/
def Operation.requests (r : Repository) : Operation → List Request
  | all => [.rows {}]
  | first => [.rows { limit := some 1 }]
  | count => [.number]
  | page perPage number => [.number, .rows (pageWindow (r.pageSize perPage) number 0)]
  | openPage perPage number => [.rows (pageWindow (r.pageSize perPage) number 1)]
  | listing asked => [.rows (pageWindow (r.pageSize asked.perPage) asked.page 1)]
  | _ => []

/-- The rows that an answer shows, up to what `hide` leaves out, and those that it counts all
have `P`. -/
inductive Answer.Shows (hide : Row → Row) (P : Row → Prop) : Answer → Prop
  | rows {rows : List Row} : (∀ row ∈ rows, P row) → Shows hide P (.rows (rows.map hide))
  | row {row : Option Row} : (∀ x, row = some x → P x) → Shows hide P (.row (row.map hide))
  | number {rows : List Row} : (∀ row ∈ rows, P row) → Shows hide P (.number rows.length)
  | page {p : Page} {counted rows : List Row} : (∀ row ∈ counted, P row) →
      (∀ row ∈ rows, P row) → p.total = counted.length → p.items = rows.map hide →
      Shows hide P (.page p)
  | openPage {p : OpenPage} {rows : List Row} : (∀ row ∈ rows, P row) →
      p.items = (rows.take p.perPage).map hide → p.hasMore = decide (p.perPage < rows.length) →
      Shows hide P (.openPage p)

/-- A row without the hidden columns of a query. -/
def conceal (r : Repository) (q : Select) (row : Row) : Row :=
  row.filter fun entry => entry.1 ∉ r.concealedKeys q

/-- None of the rows that stand side by side is a trashed one of the repository's table. -/
def Untrashed (r : Repository) (env : Env) : Prop :=
  ∀ b ∈ env, b.table.name = r.model.table.name →
    b.table.cell r.catalog.softDeleteColumn b.row = .null

theorem preserves_buildListing (hnew : ∀ n, (r.scopedQuery n).ScopedBy r.scopeColumn 0)
    (asked : Listing) : Preserves (r.InScope db) (r.buildListing asked) :=
  ((preserves_rules hnew).search _).bind fun _ => ((preserves_rules hnew).filter _ _).bind fun _ =>
    (preserves_rules hnew).sort _ _

theorem scopeColumn_eq (h : '.' ∉ r.model.table.name.toList) :
    r.scopeColumn = ⟨r.model.table.name, r.catalog.softDeleteColumn⟩ := by
  unfold scopeColumn Select.tableAndColumn TableDef.qualified
  rw [cut_qualified h]
  rfl

theorem cell_of_null {env : Env} {c : ColumnRef}
    (h : (Clause.eval env ⟨.null c false, []⟩).isTrue = true) : env.cell c = .null := by
  by_contra hcell
  change Truth.isTrue (some (decide (env.cell c = .null) != false)) = true at h
  rw [decide_eq_false hcell] at h
  cases h

theorem untrashed_of_matched {q : Select} {rest : List Clause} {ts : Tables} {env : Env}
    (hq : q.clauses =
      ⟨.null ⟨r.model.table.name, r.catalog.softDeleteColumn⟩ false, []⟩ :: rest)
    (ht : ∀ clause ∈ q.clauses, ∀ test ∈ clause.tests, test.column.checkIn q.tables = .ok ())
    (h : env ∈ q.matched ts) : r.Untrashed env := by
  intro b hb hn
  have hfirst : (⟨.null ⟨r.model.table.name, r.catalog.softDeleteColumn⟩ false, []⟩ : Clause) ∈
      q.clauses := by simp [hq]
  have hscope := ht _ hfirst _ List.mem_cons_self
  rw [← Select.tables_of_mem_matched h] at hscope
  have htrue := List.all_eq_true.mp (List.mem_filter.mp h).2 _ hfirst
  exact (Select.cell_of_checkIn hscope hb hn).symm.trans (cell_of_null htrue)

theorem yields_fetched {q : Select} {w : Window} {ts : Tables} {found : List Row}
    (hread : q.ReadsAsList (.rows w)) (h : r.fetch w ts q = .ok found) :
    ∃ rows, found = rows.map (r.conceal q) ∧ q.Yields ts rows := by
  obtain ⟨rows, hrows, rfl⟩ := ok_of_map h
  exact ⟨rows, rfl, Select.yields_fetch hread hrows⟩

theorem shows_openPage {s s' : State} {perPage : Option Int} {number : Int} {p : OpenPage}
    (hread : s.desk.session.query.ReadsAsList
      (.rows (pageWindow (r.pageSize perPage) number 1)))
    (h : r.openPage perPage number s = .ok p s') :
    ∃ rows, s.desk.session.query.Yields s.database.current rows ∧
      p.items = (rows.take p.perPage).map (r.conceal s.desk.session.query) ∧
      p.hasMore = decide (p.perPage < rows.length) := by
  obtain ⟨found, size, hfound, -, rfl⟩ := of_openPage h
  obtain ⟨rows, rfl, hyields⟩ := yields_fetched hread hfound
  exact ⟨rows, hyields, by rw [List.map_take], by rw [List.length_map]⟩

theorem shows_of_perform (hnew : ∀ n, (r.scopedQuery n).ScopedBy r.scopeColumn 0)
    {op : Operation} {s s' : State} {q : Select} {a : Answer} (hs : r.InScope db s)
    (hq : op.query? r s = some q) (hread : ∀ request ∈ op.requests r, q.ReadsAsList request)
    (h : op.perform r s = .ok a s') :
    (∃ rows, q.Yields db.current rows) ∧
      a.Shows (r.conceal q) (q.MadeOf db.current (q.matched db.current)) := by
  cases op with
  | all =>
    cases hq
    obtain ⟨found, hfound, rfl⟩ := of_map_ok h
    obtain ⟨rows, rfl, hyields⟩ := yields_fetched (hread _ (by simp [Operation.requests]))
      (ok_of_execute hfound)
    rw [hs.database] at hyields
    exact ⟨⟨rows, hyields⟩, .rows hyields.madeOf⟩
  | first =>
    cases hq
    obtain ⟨found, hfound, rfl⟩ := of_map_ok h
    obtain ⟨many, hmany, rfl⟩ := of_map_ok hfound
    obtain ⟨rows, rfl, hyields⟩ := yields_fetched (hread _ (by simp [Operation.requests]))
      (ok_of_execute hmany)
    rw [hs.database] at hyields
    rw [List.head?_map]
    exact ⟨⟨rows, hyields⟩, .row fun x hx => hyields.madeOf x (List.mem_of_mem_head? hx)⟩
  | count =>
    cases hq
    obtain ⟨n, hn, rfl⟩ := of_map_ok h
    obtain ⟨rows, rfl, hyields⟩ := Select.yields_count (hread _ (by simp [Operation.requests]))
      (ok_of_execute hn)
    rw [hs.database] at hyields
    exact ⟨⟨rows, hyields⟩, .number hyields.madeOf⟩
  | page perPage number =>
    cases hq
    obtain ⟨p, hp, rfl⟩ := of_map_ok h
    obtain ⟨total, found, size, htotal, hfound, -, rfl⟩ := of_page hp
    obtain ⟨counted, rfl, hcounted⟩ :=
      Select.yields_count (hread _ (by simp [Operation.requests])) htotal
    obtain ⟨rows, rfl, hyields⟩ := yields_fetched
      (hread _ (by simp [Operation.requests])) hfound
    rw [hs.database] at hcounted hyields
    exact ⟨⟨rows, hyields⟩, .page hcounted.madeOf hyields.madeOf rfl rfl⟩
  | openPage perPage number =>
    cases hq
    obtain ⟨p, hp, rfl⟩ := of_map_ok h
    obtain ⟨rows, hyields, hitems, hmore⟩ :=
      shows_openPage (hread _ (by simp [Operation.requests])) hp
    rw [hs.database] at hyields
    exact ⟨⟨rows, hyields⟩, .openPage hyields.madeOf hitems hmore⟩
  | listing asked =>
    obtain ⟨p, hp, rfl⟩ := of_map_ok h
    rw [listing_eq] at hp
    cases hb : r.buildListing asked s with
    | error e t =>
      simp only [Operation.query?, hb] at hq
      cases hq
    | ok u t =>
      simp only [Operation.query?, hb, Option.some.injEq] at hq
      subst hq
      rw [bind_of_ok hb] at hp
      have ht := (preserves_buildListing hnew asked).of_ok hs hb
      obtain ⟨rows, hyields, hitems, hmore⟩ :=
        shows_openPage (hread _ (by simp [Operation.requests])) hp
      rw [ht.database] at hyields
      exact ⟨⟨rows, hyields⟩, .openPage hyields.madeOf hitems hmore⟩
  | _ => cases hq

theorem scopedBy_of_query? (hnew : ∀ n, (r.scopedQuery n).ScopedBy r.scopeColumn 0)
    {op : Operation} {s : State} {q : Select} (hs : r.InScope db s)
    (hq : op.query? r s = some q) : q.ScopedBy r.scopeColumn 0 := by
  cases op with
  | all | first | count | page | openPage =>
    cases hq
    exact hs.desk.query
  | listing asked =>
    cases hb : r.buildListing asked s with
    | error e t =>
      simp only [Operation.query?, hb] at hq
      cases hq
    | ok u t =>
      simp only [Operation.query?, hb, Option.some.injEq] at hq
      subst hq
      exact ((preserves_buildListing hnew asked).of_ok hs hb).desk.query
  | _ => cases hq

/-- Whatever was done before, every query that a repository with trashed rows runs begins with the
test of its scope, alone. Where the name of the table has no dot and the database reads the
statements as lists of outputs before the rest of the query, no row that a result shows or counts
is made of a trashed row. -/
theorem scope_kept {t : State} (hsoft : r.softDeletes = true) (ht : r.start db = .ok t)
    (before : List Operation) {op : Operation} {q : Select}
    (hq : op.query? r (r.run before t) = some q) :
    (∃ rest, q.clauses = ⟨.null r.scopeColumn false, []⟩ :: rest) ∧
      ('.' ∉ r.model.table.name.toList →
        r.scopeColumn = ⟨r.model.table.name, r.catalog.softDeleteColumn⟩ ∧
        ((∀ request ∈ op.requests r, q.ReadsAsList request) →
          ∀ a s', op.perform r (r.run before t) = .ok a s' →
            (∀ env ∈ q.matched db.current, r.Untrashed env) ∧
              a.Shows (r.conceal q) (q.MadeOf db.current (q.matched db.current)))) := by
  have hnew := scopedQuery_scopedBy hsoft ht
  have hstart : r.InScope db t := by
    rw [start_eq ht]
    exact ⟨⟨.empty, hnew 0⟩, rfl⟩
  have hrun := inScope_run hnew before hstart
  obtain ⟨rest, hclauses, -⟩ := scopedBy_of_query? hnew hrun hq
  refine ⟨⟨rest, hclauses⟩, fun hdot => ⟨scopeColumn_eq hdot, fun hread a s' h => ?_⟩⟩
  obtain ⟨⟨rows, hyields⟩, hshows⟩ := shows_of_perform hnew hrun hq hread h
  rw [scopeColumn_eq hdot] at hclauses
  exact ⟨fun env henv => untrashed_of_matched hclauses hyields.tested henv, hshows⟩

def shortListing : Operation := .listing { filter := shortArticles }

theorem scope_kept_articles :
    articles.softDeletes = true ∧ ∃ t q, articles.start (.ofTables Demo.tables) = .ok t ∧
      shortListing.query? articles (articles.run articlesBuilt t) = some q ∧
      (∃ rest, q.clauses = ⟨.null ⟨"articles", "deleted_at"⟩ false, []⟩ :: rest) ∧
      ∃ a s', shortListing.perform articles (articles.run articlesBuilt t) = .ok a s' ∧
        a.Shows (articles.conceal q) (q.MadeOf Demo.tables (q.matched Demo.tables)) := by
  have hok : (articles.start (.ofTables Demo.tables)).isOk = true := by decide +kernel
  cases ht : articles.start (.ofTables Demo.tables) with
  | error e => simp [ht, Except.isOk, Except.toBool] at hok
  | ok t =>
    have hcolumns : (shortListing.query? articles (articles.run articlesBuilt t)).map
        Select.isComputed = some false := by
      rw [start_eq ht]
      decide +kernel
    have hsucceeds : succeeds (shortListing.perform articles) (articles.run articlesBuilt t) =
        true := by
      rw [start_eq ht]
      decide +kernel
    obtain ⟨q, hq, hcolumns⟩ := Option.map_eq_some_iff.mp hcolumns
    obtain ⟨a, ha⟩ := exists_of_succeeds hsucceeds
    obtain ⟨hscope, hkept⟩ := scope_kept rfl ht articlesBuilt hq
    obtain ⟨hcolumn, hshows⟩ := hkept (by decide +kernel)
    rw [hcolumn] at hscope
    have hread : ∀ request ∈ shortListing.requests articles, q.ReadsAsList request := by
      intro request _ hcomputed
      rw [hcolumns] at hcomputed
      cases hcomputed
    exact ⟨rfl, t, q, rfl, hq, hscope, a, _, ha, (hshows hread a _ ha).2⟩

/-- Articles with their authors; what the relation selects ends the list of outputs. -/
def articlesByAuthor : Repository :=
  define Demo.article Demo.schema {}
    [("author", { chain := [("articles.author_id", "users.id")]
                  entries := ["1 FROM articles/*"] })] [] [] [] true

def memo : Model where
  name := "Memo"
  table := ⟨"app.memos", [Demo.key "title" .str, Demo.optional "deleted_at" .str]⟩

def memos : Repository :=
  define memo [memo.table, ⟨"app", [Demo.key "memos.deleted_at" .str]⟩] {} [] [] [] [] true

def memoTables : Tables :=
  [⟨memo.table, [[.text "dropped", .text "yesterday"]]⟩,
    ⟨⟨"app", [Demo.key "memos.deleted_at" .str]⟩, [[.null]]⟩]

def Answer.hasTitle (title : String) : Answer → Bool
  | .rows found => found.any fun row =>
      match row.lookup "title" with
      | some (.text s) => s = title
      | _ => false
  | _ => false

/-- Whether the rows that a new repository shows after some operations have one with that title. -/
def showsTitle (r : Repository) (ts : Tables) (before : List Operation) (title : String) : Bool :=
  match r.start (.ofTables ts) with
  | .ok t =>
    match Operation.all.perform r (r.run before t) with
    | .ok a _ => a.hasTitle title
    | .error _ _ => false
  | .error _ => false

/-- A trashed row is shown where the text that a relation selects ends the statement, and where the
name of the table has a dot. -/
theorem trashed_shown :
    (articlesByAuthor.softDeletes = true ∧
      (∀ row ∈ Demo.tables.rowsOf "articles", Demo.article.table.cell "title" row = .text "Third" →
        Demo.article.table.cell "deleted_at" row ≠ .null) ∧
      showsTitle articlesByAuthor Demo.tables [.join (.named (.text "author"))] "Third" = true) ∧
    memos.softDeletes = true ∧
      (∀ row ∈ memoTables.rowsOf "app.memos", memo.table.cell "title" row = .text "dropped" →
        memo.table.cell "deleted_at" row ≠ .null) ∧
      showsTitle memos memoTables [] "dropped" = true := by
  refine ⟨⟨rfl, by decide +kernel, ?_⟩, rfl, by decide +kernel, ?_⟩
  · decide +kernel
  · decide +kernel

end Winnow.Repository
