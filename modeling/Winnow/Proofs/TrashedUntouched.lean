import Winnow.Proofs.TrashedRows
import Winnow.Proofs.DeskInvariants

namespace Winnow.Repository

variable {r : Repository} {db : Database} {s : State} {id : Value} {row : List Cell} {α : Type}

theorem find_of_stays {before : State} (hk : r.model.Kept before.database.current)
    (hk' : r.model.Kept s.database.current) (h : r.Stays (r.rows before) (r.rows s))
    (hrow : r.isTrashed row = true)
    (hfind : r.model.find id before.database.current = .ok (some row)) :
    r.model.find id s.database.current = .ok (some row) := by
  obtain ⟨parts, i, hparts, hi, hkey⟩ := hk.find_eq_ok_some.mp hfind
  exact hk'.find_eq_ok_some.mpr ⟨parts, i, hparts, h.trashed i row hi hrow, hkey⟩

/-- For an identifier there is no record, whatever is done with it. -/
structure Missing (r : Repository) (id : Value) (s : State) : Prop where
  find : r.find? id s = .ok none s
  require : r.require id s = .error (.notFound r.model.name id) s
  read : r.read id s = .ok [] s
  update : ∀ data, r.update id data s = .ok [] s
  delete : ∀ now, r.delete now id s = .ok false s

theorem missing_of_trashed (hm : r.MarkedByName) (hrow : r.isTrashed row = true)
    (h : r.model.find id s.database.current = .ok (some row)) : r.Missing id s := by
  have hfind : r.find id s = .ok none s := by rw [find_named hm h, if_pos hrow]
  have hfind? : r.find? id s = .ok none s := by
    rw [Repository.find?, bind_of_ok hfind]
    rfl
  refine ⟨hfind?, ?_, ?_, fun data => ?_, fun now => ?_⟩
  · rw [Repository.require, bind_of_ok hfind?]
    rfl
  · rw [Repository.read, bind_of_ok hfind?]
    rfl
  · rw [Repository.update, bind_of_ok hfind]
    rfl
  · rw [Repository.delete, bind_of_ok hfind]
    rfl

/-- The place of the record that an act deletes, if it deletes one. -/
def Act.deleted? (r : Repository) (s : State) : Act → Option Nat
  | delete now id =>
    match r.delete now id s with
    | .ok true _ => r.place? s id
    | _ => none
  | _ => none

/-- The places of the records that some acts delete, one after another. -/
def deletions (r : Repository) : List Act → State → List Nat
  | [], _ => []
  | act :: acts, s => (act.deleted? r s).toList ++ deletions r acts (after (act.perform r) s)

theorem of_deleted? (hsoft : r.softDeletes = true) (hm : r.MarkedByName)
    (hk : r.model.Kept s.database.current) {act : Act} {i : Nat}
    (h : act.deleted? r s = some i) :
    (∃ old, (r.rows s)[i]? = some old ∧ r.isTrashed old = false) ∧
      ∃ new, (r.rows (after (act.perform r) s))[i]? = some new ∧ r.isTrashed new = true := by
  cases act with
  | delete now id =>
    simp only [Act.deleted?] at h
    split at h
    next s' hdelete =>
      obtain ⟨j, old, new, hplace, hj, -, hold, hnew, hrows, -⟩ :=
        marked_of_delete hsoft hm hk hdelete
      cases h.symm.trans hplace
      refine ⟨⟨old, hj, hold⟩, new, ?_, hnew⟩
      obtain ⟨hlt, -⟩ := List.getElem?_eq_some_iff.mp hj
      rw [Act.perform, after_map]
      simp only [after, hdelete, hrows, List.getElem?_set_self hlt]
    next => cases h
  | query | call | find | require | read | create | update | commit => cases h

theorem untrashed_of_mem_deletions (hsoft : r.softDeletes = true) (hm : r.MarkedByName)
    {acts : List Act} (hk : r.model.Kept s.database.current) (hquiet : r.Unbroken acts s) {i : Nat}
    (hi : i ∈ r.deletions acts s) {row : List Cell} (hrow : (r.rows s)[i]? = some row) :
    r.isTrashed row = false := by
  induction acts generalizing s row with
  | nil => cases hi
  | cons act acts ih =>
    rcases List.mem_append.mp hi with hi | hi
    · obtain ⟨old, hold, hfalse⟩ := (of_deleted? hsoft hm hk (Option.mem_toList.mp hi)).1
      cases hrow.symm.trans hold
      exact hfalse
    · obtain ⟨hstays, hkept⟩ := stays_after hsoft hm hk hquiet.1
      by_contra htrashed
      have hlater := hstays.trashed i row hrow (by simpa using htrashed)
      exact htrashed (ih hkept hquiet.2 hi hlater)

theorem nodup_deletions (hsoft : r.softDeletes = true) (hm : r.MarkedByName) {acts : List Act}
    (hk : r.model.Kept s.database.current) (hquiet : r.Unbroken acts s) :
    (r.deletions acts s).Nodup := by
  induction acts generalizing s with
  | nil => exact List.nodup_nil
  | cons act acts ih =>
    obtain ⟨-, hkept⟩ := stays_after hsoft hm hk hquiet.1
    unfold deletions
    cases hd : act.deleted? r s with
    | none => exact ih hkept hquiet.2
    | some i =>
      obtain ⟨-, new, hnew, htrashed⟩ := of_deleted? hsoft hm hk hd
      refine List.nodup_cons.mpr ⟨fun hi => ?_, ih hkept hquiet.2⟩
      rw [untrashed_of_mem_deletions hsoft hm hkept hquiet.2 hi hnew] at htrashed
      cases htrashed

/-- Whether an act makes an alternative straight at the query. -/
def Act.isOr : Act → Bool
  | call c => c.isOr
  | _ => false

def AtScope (r : Repository) (s : State) : Prop := Desk.Scoped r.catalog r.scopeColumn 0 s.desk

theorem atScope_of_inScope {step : Step α} (h : ∀ db, Preserves (r.InScope db) step) :
    Preserves r.AtScope step :=
  fun s hs => (h s.database s ⟨hs, rfl⟩).desk

/-- No act moves the scope of the query from its place, but an alternative made straight at it. -/
theorem atScope_perform (hnew : ∀ n, (r.scopedQuery n).ScopedBy r.scopeColumn 0) {act : Act}
    (hor : act.isOr = false) : Preserves r.AtScope (act.perform r) := by
  refine desk_perform (fun op => ?_) (fun c hc => ?_) Desk.preserves_rules.note
  · exact atScope_of_inScope fun _ => preserves_perform hnew op
  · subst hc
    exact Desk.preserves_issue fun h => by cases h.symm.trans hor

theorem atScope_runActs (hnew : ∀ n, (r.scopedQuery n).ScopedBy r.scopeColumn 0)
    {acts : List Act} (hor : ∀ act ∈ acts, act.isOr = false) (h : r.AtScope s) :
    r.AtScope (r.runActs acts s) := by
  induction acts generalizing s with
  | nil => exact h
  | cons act acts ih =>
    exact ih (fun a ha => hor a (List.mem_cons_of_mem _ ha))
      (atScope_perform hnew (hor act List.mem_cons_self) s h)

/-- An identifier names a row that is trashed. -/
def namesTrashed (r : Repository) (id : Value) (s : State) : Bool :=
  match r.model.find id s.database.current with
  | .ok (some row) => r.isTrashed row
  | _ => false

/-- What is so of the rows that were trashed before, in a state and for whatever is done then. The
other rows are found, and can be deleted. -/
structure Buried (r : Repository) (before s : State) : Prop where
  stays : r.Stays (r.rows before) (r.rows s)
  missing : ∀ id, r.namesTrashed id before = true → r.Missing id s
  found : ∀ (id : Value) (row : List Cell), r.model.find id s.database.current = .ok (some row) →
    r.isTrashed row = false → r.find? id s = .ok (some (r.model.record row)) s ∧
      ∀ now deleted s', r.delete now id s = .ok deleted s' → deleted = true
  records : ∀ (act : Act) (reply : Reply) (s' : State) (fields : Row),
    act.perform r s = .ok reply s' → reply.record? = some fields → r.Stands s s' fields
  deleted : ∀ (now : Moment) (id : Value) (s' : State), r.delete now id s = .ok true s' →
    ∃ (i : Nat) (old new : List Cell), r.place? s id = some i ∧ (r.rows s)[i]? = some old ∧
      new = r.model.assign old (r.catalog.softDeleteColumn, .moment now) ∧
      r.isTrashed old = false ∧ r.isTrashed new = true ∧ r.rows s' = (r.rows s).set i new

/-- A row that is not trashed is found, and where deleting it fails for no other reason it is
deleted. -/
theorem found_of_untrashed (hm : r.MarkedByName) (hrow : r.isTrashed row = false)
    (h : r.model.find id s.database.current = .ok (some row)) :
    r.find? id s = .ok (some (r.model.record row)) s ∧
      ∀ now deleted s', r.delete now id s = .ok deleted s' → deleted = true := by
  have hfind : r.find id s = .ok (some row) s := by
    rw [find_named hm h, if_neg (by rw [hrow]; exact Bool.false_ne_true)]
  refine ⟨?_, fun now deleted s' hdelete => ?_⟩
  · rw [Repository.find?, bind_of_ok hfind]
    rfl
  · rcases of_delete hdelete with ⟨hnone, -, -⟩ | ⟨-, -, -, htrue, -⟩
    · cases hnone.symm.trans hfind
    · exact htrue

theorem buried_of_stays (hsoft : r.softDeletes = true) (hm : r.MarkedByName) {before : State}
    (hk : r.model.Kept before.database.current) (hk' : r.model.Kept s.database.current)
    (h : r.Stays (r.rows before) (r.rows s)) : r.Buried before s where
  stays := h
  missing id hid := by
    unfold namesTrashed at hid
    split at hid
    next row hfind => exact missing_of_trashed hm hid (find_of_stays hk hk' h hid hfind)
    next => cases hid
  found id row hfind hrow := found_of_untrashed hm hrow hfind
  records act reply s' fields hact := (done_of_perform hsoft hm hk' hact).stands fields
  deleted now id s' hdelete := by
    obtain ⟨i, old, new, hplace, hi, hnew, hold, hmarked, hrows, -⟩ :=
      marked_of_delete hsoft hm hk' hdelete
    exact ⟨i, old, new, hplace, hi, hnew, hold, hmarked, hrows⟩

/-- No result shows or counts a row that is made of a trashed one, where the database reads the
statement as a list of outputs. -/
def Withholds (r : Repository) (s : State) : Prop :=
  ∀ (op : Operation) (q : Select), op.query? r s = some q →
    (∀ request ∈ op.requests r, q.ReadsAsList request) →
    ∀ (a : Answer) (s' : State), op.perform r s = .ok a s' →
      (∀ env ∈ q.matched s.database.current, r.Untrashed env) ∧
        a.Shows (r.conceal q) (q.MadeOf s.database.current (q.matched s.database.current))

theorem withholds_of_atScope (hnew : ∀ n, (r.scopedQuery n).ScopedBy r.scopeColumn 0)
    (hdot : '.' ∉ r.model.table.name.toList) (hs : r.AtScope s) : r.Withholds s := by
  intro op q hq hread a s' h
  have hscope : r.InScope s.database s := ⟨hs, rfl⟩
  obtain ⟨rest, hclauses, -⟩ := scopedBy_of_query? hnew hscope hq
  obtain ⟨⟨rows, hyields⟩, hshows⟩ := shows_of_perform hnew hscope hq hread h
  rw [scopeColumn_eq hdot] at hclauses
  exact ⟨fun env henv => untrashed_of_matched hclauses hyields.tested henv, hshows⟩

/-- Whatever is done with a repository that marks rows as trashed, as long as nothing is undone: a
trashed row stays where it is, as it is; what names it finds no record and deletes none; no record
is deleted twice; and where no alternative is made straight at the query, the name of the table has
no dot and the database reads the statements as lists of outputs, no result is made of a trashed
row. -/
theorem trashed_untouched {t : State} (hsoft : r.softDeletes = true) (ht : r.start db = .ok t)
    (hm : r.MarkedByName) (hk : r.model.Kept db.current) {before later : List Act}
    (hquiet : r.Unbroken (before ++ later) t) :
    r.Buried (r.runActs before t) (r.runActs (before ++ later) t) ∧
      (r.deletions (before ++ later) t).Nodup ∧
      ((∀ act ∈ before ++ later, act.isOr = false) → '.' ∉ r.model.table.name.toList →
        r.Withholds (r.runActs (before ++ later) t)) := by
  have hnew := scopedQuery_scopedBy hsoft ht
  have hdb : t.database = db := by rw [start_eq ht]
  have hkept : r.model.Kept t.database.current := by rwa [hdb]
  have hscope : r.AtScope t := by
    rw [start_eq ht]
    exact ⟨.empty, hnew 0⟩
  obtain ⟨hfirst, hsecond⟩ := unbroken_append.mp hquiet
  obtain ⟨-, hkbefore⟩ := stays_runActs hsoft hm hkept hfirst
  obtain ⟨hstays, hklater⟩ := stays_runActs hsoft hm hkbefore hsecond
  rw [← runActs_append] at hstays hklater
  refine ⟨buried_of_stays hsoft hm hkbefore hklater hstays,
    nodup_deletions hsoft hm hkept hquiet, fun hor hdot => ?_⟩
  exact withholds_of_atScope hnew hdot (atScope_runActs hnew hor hscope)

def articleDeleted : List Act :=
  [.delete { year := 2030, month := 1, day := 2 } (.int 2)]

/-- An article is added, one more is not as it names no attribute, another one is changed, and the
second one deleted once more; then articles with a content are asked for. -/
def articlesEdited : List Act :=
  [.create [("title", .text "Fourth")], .create [("ghost", .null)],
    .update (.text "1") [("title", .text "Changed")],
    .delete { year := 2030, month := 1, day := 3 } (.text "2"),
    .query (.filter (some "content:is_not-null") none)]

theorem trashed_untouched_articles :
    articles.softDeletes = true ∧ articles.MarkedByName ∧
      articles.model.Kept (Database.ofTables Demo.tables).current ∧
      ∃ t, articles.start (.ofTables Demo.tables) = .ok t ∧
        articles.Unbroken (articleDeleted ++ articlesEdited) t ∧
        articles.Buried (articles.runActs articleDeleted t)
          (articles.runActs (articleDeleted ++ articlesEdited) t) ∧
        articles.Missing (.int 2) (articles.runActs (articleDeleted ++ articlesEdited) t) ∧
        articles.Missing (.real (.ofInt 3))
          (articles.runActs (articleDeleted ++ articlesEdited) t) ∧
        (articles.deletions (articleDeleted ++ articlesEdited) t).Nodup ∧
        articles.Withholds (articles.runActs (articleDeleted ++ articlesEdited) t) := by
  have hm : articles.MarkedByName := ⟨Demo.optional "deleted_at" .datetime, by decide, rfl⟩
  have hk : articles.model.Kept (Database.ofTables Demo.tables).current :=
    ⟨by decide +kernel, by decide +kernel, by decide +kernel⟩
  have hok : (articles.start (.ofTables Demo.tables)).isOk = true := by decide +kernel
  obtain ⟨t, ht⟩ := exists_of_isOk hok
  have hquiet : articles.Unbroken (articleDeleted ++ articlesEdited) t := by
    rw [start_eq ht]
    refine ⟨fun _ => rfl, fun h => absurd h ?_, fun h => absurd h ?_, fun h => absurd h ?_,
      fun h => absurd h ?_, fun h => absurd h ?_, trivial⟩ <;> decide +kernel
  have hnames : articles.namesTrashed (.int 2) (articles.runActs articleDeleted t) = true ∧
      articles.namesTrashed (.real (.ofInt 3)) (articles.runActs articleDeleted t) = true := by
    rw [start_eq ht]
    exact ⟨by decide +kernel, by decide +kernel⟩
  obtain ⟨hburied, hdeletions, hwithholds⟩ := trashed_untouched rfl ht hm hk hquiet
  exact ⟨rfl, hm, hk, t, ht, hquiet, hburied, hburied.missing _ hnames.1,
    hburied.missing _ hnames.2, hdeletions, hwithholds (by decide) (by decide +kernel)⟩

/-- Articles that are marked as trashed by a column with an attribute of another name. -/
def articlesByContent : Repository :=
  define Demo.article Demo.schema { softDeleteColumn := "content" } [] [] [] [] true

def plainMemo : Model := { memo with table := ⟨"memos", memo.table.columns⟩ }

def plainMemos : Repository := define plainMemo [plainMemo.table] {} [] [] [] [] true

def plainMemoTables : Tables := [⟨plainMemo.table, [[.text "dropped", .text "yesterday"]]⟩]

def reached? (r : Repository) (ts : Tables) (acts : List Act) : Option State :=
  match r.start (.ofTables ts) with
  | .ok t => acts.foldlM (fun s act => if succeeds (act.perform r) s then
      some (after (act.perform r) s) else none) t
  | .error _ => none

/-- Whether the rows that a repository shows in a state have one of a title that only trashed rows
have. -/
def showsTrashed (r : Repository) (title : String) (s : State) : Bool :=
  ((r.rows s).all fun row => r.model.table.cell "title" row != .text title || r.isTrashed row) &&
    match Operation.all.perform r s with
    | .ok a _ => a.hasTitle title
    | .error _ _ => false

def findsTrashed (r : Repository) (id : Value) (s : State) : Bool :=
  r.namesTrashed id s &&
    match r.find? id s with
    | .ok fields _ => fields.isSome
    | .error _ _ => false

/-- A row that was deleted is shown where the text that a relation selects ends the statement; a
trashed row is shown where an alternative was made straight at the query and where the name of the
table has a dot, and is found where the marking column has an attribute of another name. -/
theorem trashed_returned :
    (articlesByAuthor.softDeletes = true ∧
      (articlesByAuthor.reached? Demo.tables
        (articleDeleted ++ [.query (.join (.named (.text "author")))])).any
          (articlesByAuthor.showsTrashed "Second") = true) ∧
    (plainMemos.softDeletes = true ∧
      (plainMemos.reached? plainMemoTables [.call (.orFilter "title" "=" (.text "dropped"))]).any
        (plainMemos.showsTrashed "dropped") = true) ∧
    (memos.softDeletes = true ∧
      (memos.reached? memoTables []).any (memos.showsTrashed "dropped") = true) ∧
    (articlesByContent.softDeletes = true ∧
      (articlesByContent.reached? Demo.tables []).any (articlesByContent.findsTrashed (.int 1)) =
        true) := by
  refine ⟨⟨rfl, ?_⟩, ⟨rfl, ?_⟩, ⟨rfl, ?_⟩, rfl, ?_⟩
  · decide +kernel
  · decide +kernel
  · decide +kernel
  · decide +kernel

end Winnow.Repository
