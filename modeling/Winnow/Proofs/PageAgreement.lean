import Winnow.Proofs.RowCount
import Winnow.Proofs.LastPage
import Winnow.Proofs.HiddenColumns

namespace Winnow

variable {ts : Tables} {q : Select} {w : Window} {rows : List Row}

/-- The numbers of a window are among those that the database takes. -/
def Window.Fits (w : Window) : Prop :=
  ∀ limit, w.limit = some limit → isInt64 limit = true ∧ isInt64 w.offset = true

theorem Window.of_map {α β : Type} (w : Window) (f : α → β) (xs : List α) :
    w.of (xs.map f) = (w.of xs).map f := by
  unfold Window.of
  simp only [← List.map_drop]
  split
  · rfl
  · split
    · rfl
    · rw [List.map_take]

theorem Bindings.checkStorable_append {a b : Bindings} :
    (a ++ b).checkStorable = .ok () ↔ a.checkStorable = .ok () ∧ b.checkStorable = .ok () := by
  induction a with
  | nil => exact (and_iff_right rfl).symm
  | cons first a ih =>
    rw [List.cons_append]
    simp only [Bindings.checkStorable, check_bind_eq_ok, and_assoc]
    rw [ih]

theorem Window.checkStorable_bindings (hw : w.Fits) : w.bindings.checkStorable = .ok () := by
  obtain ⟨limit, offset⟩ := w
  cases limit with
  | none => rfl
  | some limit =>
    obtain ⟨hlimit, hoffset⟩ := hw limit rfl
    simp only at hoffset
    simp only [Window.bindings, Bindings.checkStorable, Value.checkStorable, hlimit, hoffset]
    rfl

namespace Select

theorem checkStorable_window {w' : Window} (hw : w.Fits)
    (h : Bindings.checkStorable (q.bindings ++ w'.bindings) = .ok ()) :
    Bindings.checkStorable (q.bindings ++ w.bindings) = .ok () :=
  Bindings.checkStorable_append.mpr
    ⟨(Bindings.checkStorable_append.mp h).1, Window.checkStorable_bindings hw⟩

theorem checkRun_window (hw : w.Fits) (h : q.checkRun {} = .ok ()) : q.checkRun w = .ok () := by
  obtain ⟨hpassed, hchecked, hstorable⟩ := checkRun_eq_ok.mp h
  exact checkRun_eq_ok.mpr ⟨hpassed, hchecked, checkStorable_window hw hstorable⟩

theorem checkKeys_window {α : Type} {keys : List String} {f : α → Row} {xs : List α}
    {found : List Row} (h : checkKeys keys (xs.map f) = .ok found) :
    checkKeys keys ((w.of xs).map f) = .ok ((w.of xs).map f) := by
  unfold checkKeys
  split
  next hbad =>
    have hrow : ∃ x, x ∈ w.of xs := by
      refine List.exists_mem_of_ne_nil _ fun hnil => ?_
      simp [hnil] at hbad
    obtain ⟨x, hx⟩ := hrow
    have hnodup := nodup_of_checkKeys h (List.mem_map_of_mem (mem_of_mem_window hx))
    simp [hnodup] at hbad
  · rfl

theorem fetch_window (hcolumns : q.isComputed = false) (hw : w.Fits)
    (h : q.fetch ts {} = .ok rows) : q.fetch ts w = .ok (w.of rows) := by
  unfold fetch at h ⊢
  rw [hcolumns] at h ⊢
  obtain ⟨_, hrun, h⟩ := ok_of_bind h
  rw [rows_of_checkKeys h, window_whole, Window.of_map, checkRun_window hw hrun]
  exact checkKeys_window h

theorem listAnswer_window {w' : Window} {distinct : Bool} {items : List Sql.Item} {places : Nat}
    {a : Answer} (hw : w.Fits) (h : q.listAnswer ts w' distinct items places = .ok a) :
    q.listAnswer ts w distinct items places = .ok a := by
  obtain ⟨hnames, hchecked, hplaces, hstorable, hrows⟩ := listAnswer_eq_ok.mp h
  exact listAnswer_eq_ok.mpr
    ⟨hnames, hchecked, hplaces, checkStorable_window hw hstorable, hrows⟩

/-- Computed outputs are answered alike in all windows, where the database answers alike with a
window and without, and reads a list of outputs before it. -/
theorem answer_window {a : Answer} (hwhole : q.answer ts (.rows {}) = .ok a)
    (hpart : q.answer ts (.rows { limit := some 0 }) = .ok a) {distinct : Bool}
    {items : List Sql.Item} {places : Nat}
    (hread : q.read (.rows { limit := some 0 }) = .ok (.list distinct items places))
    (hw : w.Fits) : q.answer ts (.rows w) = .ok a := by
  obtain ⟨limit, offset⟩ := w
  cases limit with
  | none =>
    unfold answer at hwhole ⊢
    obtain ⟨_, hpassed, hwhole⟩ := ok_of_bind hwhole
    obtain ⟨reading, hreading, hwhole⟩ := ok_of_bind hwhole
    have hreading' : q.read (.rows { limit := none, offset }) = .ok reading := hreading
    rw [hpassed, hreading']
    cases reading with
    | list distinct items places => exact listAnswer_window hw hwhole
    | other other places more => exact hwhole
  | some limit =>
    -- the statement does not show the numbers of the window
    have hread' : q.read (.rows { limit := some limit, offset }) =
      .ok (.list distinct items places) := hread
    unfold answer at hpart ⊢
    obtain ⟨_, hpassed, hpart⟩ := ok_of_bind hpart
    rw [hread] at hpart
    rw [hpassed, hread']
    exact listAnswer_window hw hpart

theorem fetch_of_answer {a : Answer} (hc : q.isComputed = true)
    (h : q.answer ts (.rows w) = .ok a)
    (hkeys : ∀ cells ∈ a.rows, ((q.computedRow a.names cells).map (·.1)).Nodup) :
    q.fetch ts w = .ok (w.of (a.rows.map (q.computedRow a.names))) := by
  unfold fetch
  rw [hc, h, Window.of_map]
  change checkKeys _ ((w.of a.rows).map (q.computedRow a.names)) = _
  unfold checkKeys
  cases hrows : w.of a.rows with
  | nil => rfl
  | cons cells rest =>
    have hnodup := hkeys cells (mem_of_mem_window (hrows ▸ List.mem_cons_self))
    simp [hnodup]

end Select

namespace Repository

variable {r : Repository} {n : Nat}

/-- A query lists some rows: they are all that it gives. Where an output is more than a column, a
window is given to the database with the statement, and taken to be that part of the rows. -/
structure Lists (r : Repository) (ts : Tables) (q : Select) (rows : List Row) : Prop where
  whole : r.fetch {} ts q = .ok rows
  windows : q.isComputed = true → ∀ w : Window, w.Fits → r.fetch w ts q = .ok (w.of rows)

theorem Lists.fetch (h : r.Lists ts q rows) (hw : w.Fits) : r.fetch w ts q = .ok (w.of rows) := by
  cases hc : q.isComputed with
  | true => exact h.windows hc w hw
  | false =>
    obtain ⟨found, hfound, rfl⟩ := ok_of_map h.whole
    unfold Repository.fetch
    rw [Select.fetch_window hc hw hfound, Window.of_map]
    rfl

theorem Lists.count (h : r.Lists ts q rows) (hsame : q.CountsSame) :
    q.count ts = .ok rows.length := by
  obtain ⟨found, hfound, rfl⟩ := ok_of_map h.whole
  rw [Select.count_of_fetch hsame hfound, List.length_map]

/-- A query with computed outputs lists its rows where the database answers alike in all windows.
-/
theorem lists_of_answer {a : Select.Answer} (hc : q.isComputed = true)
    (h : ∀ w : Window, w.Fits → q.answer ts (.rows w) = .ok a)
    (hkeys : ∀ cells ∈ a.rows, ((q.computedRow a.names cells).map (·.1)).Nodup) :
    r.Lists ts q ((a.rows.map (q.computedRow a.names)).map (r.conceal q)) := by
  have hfetch : ∀ w : Window, w.Fits → r.fetch w ts q =
      .ok (w.of ((a.rows.map (q.computedRow a.names)).map (r.conceal q))) := by
    intro w hw
    unfold Repository.fetch
    rw [Select.fetch_of_answer hc (h w hw) hkeys, Window.of_map w (r.conceal q)]
    rfl
  exact ⟨hfetch {} nofun, fun _ => hfetch⟩

/-- A query is built and may be run, over some tables. -/
structure State.Offers (ts : Tables) (q : Select) (s : State) : Prop where
  isOpen : s.desk.session.isOpen = true
  query : s.desk.session.query = q
  tables : s.database.current = ts

theorem offers_run {db : Database} {t : State} (ht : r.start db = .ok t)
    (before : List Operation) : (r.run before t).Offers db.current
      (r.run before t).desk.session.query := by
  have halike := alike_run ht before
  exact ⟨halike.desk.isOpen, rfl, congrArg Database.current halike.database⟩

/-- The page that is shown for a number: those below one stand for the first. -/
def shownPage (number : Int) : Nat := (max number 1).toNat

/-- The number of rows on the pages before that of a number. -/
def rowsBefore (n : Nat) (number : Int) : Nat := (shownPage number - 1) * n

/-- The rows on the page of a number. -/
def rowsOn (n : Nat) (number : Int) (rows : List Row) : List Row :=
  (rows.drop (rowsBefore n number)).take n

def rowsFrom (n : Nat) (number : Int) (size : Nat) : Window :=
  { limit := some (size : Int), offset := (rowsBefore n number : Int) }

theorem of_rowsFrom (n : Nat) (number : Int) (size : Nat) (rows : List Row) :
    (rowsFrom n number size).of rows = (rows.drop (rowsBefore n number)).take size := by
  unfold Window.of rowsFrom
  simp

theorem fits_rowsFrom {number : Int} {size : Nat} (hsize : isInt64 size = true)
    (hbefore : isInt64 (rowsBefore n number) = true) : (rowsFrom n number size).Fits := by
  intro limit hlimit
  cases hlimit
  exact ⟨hsize, hbefore⟩

theorem offset_eq (n : Nat) (number : Int) :
    (max number 1 - 1) * (n : Int) = (rowsBefore n number : Int) := by
  obtain ⟨k, hk⟩ : ∃ k : Nat, max number 1 = k + 1 := ⟨(max number 1 - 1).toNat, by omega⟩
  have hshown : shownPage number = k + 1 := by
    unfold shownPage
    omega
  unfold rowsBefore
  rw [hk, hshown]
  simp

theorem pageSize_eq (hn : 0 < n) : r.pageSize (some (n : Int)) = n := by
  unfold pageSize
  exact if_neg (by omega)

theorem checkSize_eq (hn : 0 < n) : checkSize (n : Int) = .ok n := by
  unfold checkSize
  exact if_neg (by omega)

theorem shownPage_pos (number : Int) : 0 < shownPage number := by
  unfold shownPage
  omega

theorem shownPage_mul (n : Nat) (number : Int) : shownPage number * n = rowsBefore n number + n := by
  obtain ⟨k, hk⟩ := Nat.exists_eq_add_one.mpr (shownPage_pos number)
  unfold rowsBefore
  rw [hk, Nat.add_sub_cancel, Nat.succ_mul]

theorem shownPage_of_pos {number : Nat} (hn : 0 < number) : shownPage number = number := by
  unfold shownPage
  omega

theorem rowsBefore_succ (n k : Nat) : rowsBefore n ((k + 1 : Nat) : Int) = k * n := by
  unfold rowsBefore
  rw [shownPage_of_pos (Nat.succ_pos k)]
  rfl

theorem isInt64_of_le {a b : Nat} (hab : a ≤ b) (hb : isInt64 b = true) : isInt64 a = true := by
  unfold isInt64 at hb ⊢
  simp only [Bool.and_eq_true, decide_eq_true_eq] at hb ⊢
  omega

/-- Walking over pages: from one page to the next for as long as more rows follow. The query is
built again for each page. -/
inductive Walks (r : Repository) (ts : Tables) (q : Select) (n : Nat) : Nat → List Row → Prop
  | last {number : Nat} {s s' : State} {p : OpenPage} : s.Offers ts q →
      r.openPage (some (n : Int)) number s = .ok p s' → p.hasMore = false →
      Walks r ts q n number p.items
  | more {number : Nat} {s s' : State} {p : OpenPage} {later : List Row} : s.Offers ts q →
      r.openPage (some (n : Int)) number s = .ok p s' → p.hasMore = true →
      Walks r ts q n (number + 1) later → Walks r ts q n number (p.items ++ later)

theorem isInt64_rowsBefore (hrows : isInt64 rows.length = true) {k : Nat}
    (hk : k * n ≤ rows.length) : isInt64 (rowsBefore n ((k + 1 : Nat) : Int)) = true := by
  rw [rowsBefore_succ]
  exact isInt64_of_le hk hrows

section Walk

variable (h : r.Lists ts q rows) (hn : 0 < n) (hsize : isInt64 (n + 1 : Nat) = true)

include h hn hsize

theorem openPage_eq {s : State} (hs : s.Offers ts q) {number : Int}
    (hbefore : isInt64 (rowsBefore n number) = true) :
    r.openPage (some (n : Int)) number s = .ok
      { items := rowsOn n number rows, perPage := n, currentPage := shownPage number,
        hasMore := decide (shownPage number * n < rows.length), query := s.strings }
      (s.renewed r) := by
  have hwindow : ({ limit := some ((n : Int) + 1), offset := (max number 1 - 1) * n } : Window) =
      rowsFrom n number (n + 1) := by
    rw [offset_eq]
    rfl
  have hfetch := h.fetch (fits_rowsFrom hsize hbefore)
  rw [of_rowsFrom] at hfetch
  have hmore : (n < ((rows.drop (rowsBefore n number)).take (n + 1)).length) =
      (shownPage number * n < rows.length) := by
    rw [shownPage_mul, List.length_take, List.length_drop]
    apply propext
    omega
  unfold openPage
  rw [get_bind, execute_open hs.isOpen, hs.tables, hs.query, pageSize_eq hn, hwindow, hfetch,
    checkSize_eq hn]
  simp only [bind, Except.bind, pure, Except.pure, List.take_take, hmore,
    Nat.min_eq_left (Nat.le_succ n)]
  rfl

variable (hrows : isInt64 rows.length = true)

include hrows

theorem openPage_succ {k : Nat} (hk : k * n ≤ rows.length) {s s' : State} {p : OpenPage}
    (hs : s.Offers ts q)
    (hp : r.openPage (some (n : Int)) ((k + 1 : Nat) : Int) s = .ok p s') :
    p.items = (rows.drop (k * n)).take n ∧ (p.hasMore = true ↔ (k + 1) * n < rows.length) := by
  rw [openPage_eq h hn hsize hs (isInt64_rowsBefore hrows hk)] at hp
  cases hp
  refine ⟨?_, ?_⟩
  · rw [rowsOn, rowsBefore_succ]
  · rw [shownPage_of_pos (Nat.succ_pos k), decide_eq_true_eq]

theorem rows_of_walks {number : Nat} {found : List Row} (hw : r.Walks ts q n number found)
    {k : Nat} (hk : k * n ≤ rows.length) (hnumber : number = k + 1) :
    found = rows.drop (k * n) := by
  induction hw generalizing k with
  | last hs hp hmore =>
    subst hnumber
    obtain ⟨hitems, hiff⟩ := openPage_succ h hn hsize hrows hk hs hp
    rw [hitems]
    apply List.take_of_length_le
    have hend : ¬ (k + 1) * n < rows.length := fun hlt => by simp [hiff.mpr hlt] at hmore
    rw [Nat.succ_mul] at hend
    rw [List.length_drop]
    omega
  | more hs hp hmore _ ih =>
    subst hnumber
    obtain ⟨hitems, hiff⟩ := openPage_succ h hn hsize hrows hk hs hp
    rw [hitems, ih (Nat.le_of_lt (hiff.mp hmore)) rfl, Nat.succ_mul, ← List.drop_drop,
      List.take_append_drop]

theorem exists_walks {s : State} (hs : s.Offers ts q) {k : Nat} (hk : k * n ≤ rows.length) :
    ∃ found, r.Walks ts q n (k + 1) found := by
  -- by how many rows are left: a page with more to follow leaves fewer
  induction hleft : rows.length - k * n using Nat.strong_induction_on generalizing k with
  | _ left ih =>
    have hp := openPage_eq h hn hsize hs (isInt64_rowsBefore hrows hk)
    cases hmore : decide (shownPage ((k + 1 : Nat) : Int) * n < rows.length) with
    | false => exact ⟨_, .last hs hp hmore⟩
    | true =>
      have hlt : (k + 1) * n < rows.length := (openPage_succ h hn hsize hrows hk hs hp).2.mp hmore
      have hfewer : rows.length - (k + 1) * n < left := by
        rw [Nat.succ_mul] at hlt ⊢
        omega
      obtain ⟨later, hlater⟩ := ih _ hfewer (Nat.le_of_lt hlt) rfl
      exact ⟨_, .more hs hp hmore hlater⟩

theorem walks_iff {s : State} (hs : s.Offers ts q) (found : List Row) :
    r.Walks ts q n 1 found ↔ found = rows := by
  have hk : 0 * n ≤ rows.length := by omega
  have hall : ∀ found, r.Walks ts q n 1 found → found = rows := by
    intro found hw
    rw [rows_of_walks h hn hsize hrows hw hk rfl, Nat.zero_mul, List.drop_zero]
  refine ⟨hall found, ?_⟩
  rintro rfl
  obtain ⟨other, hw⟩ := exists_walks h hn hsize hrows hs hk
  rwa [hall other hw] at hw

end Walk

theorem count_eq {s : State} (hs : s.Offers ts q) : r.count s = match q.count ts with
    | .ok total => .ok total (s.renewed r)
    | .error e => .error e (s.renewed r) := by
  unfold count
  rw [execute_open hs.isOpen, hs.tables, hs.query]
  cases q.count ts <;> rfl

theorem page_of_count (h : r.Lists ts q rows) {s s' : State} (hs : s.Offers ts q) (hn : 0 < n)
    (hsize : isInt64 n = true) {number : Int} (hbefore : isInt64 (rowsBefore n number) = true)
    {total : Nat} (hcount : r.count s = .ok total s') :
    r.page (some (n : Int)) number s = .ok
      { items := rowsOn n number rows, total, perPage := n, currentPage := shownPage number,
        query := s.strings } s' := by
  have hwindow : ({ limit := some (n : Int), offset := (max number 1 - 1) * n } : Window) =
      rowsFrom n number n := by
    rw [offset_eq]
    rfl
  have hfetch := h.fetch (fits_rowsFrom hsize hbefore)
  rw [of_rowsFrom] at hfetch
  rw [count_eq hs] at hcount
  unfold Repository.page
  rw [get_bind, execute_open hs.isOpen, hs.tables, hs.query, pageSize_eq hn, hwindow, hfetch,
    checkSize_eq hn]
  cases hq : q.count ts with
  | error e =>
    rw [hq] at hcount
    cases hcount
  | ok found =>
    rw [hq] at hcount
    cases hcount
    rfl

theorem page_of_count_error {s s' : State} {e : Failure} (hs : s.Offers ts q)
    (hcount : r.count s = .error e s') (perPage : Option Int) (number : Int) :
    r.page perPage number s = .error e s' := by
  rw [count_eq hs] at hcount
  unfold Repository.page
  rw [get_bind, execute_open hs.isOpen, hs.tables, hs.query]
  cases hq : q.count ts with
  | error e =>
    rw [hq] at hcount
    cases hcount
    rfl
  | ok found =>
    rw [hq] at hcount
    cases hcount

theorem all_eq (h : r.Lists ts q rows) {s : State} (hs : s.Offers ts q) :
    r.all s = .ok rows (s.renewed r) := by
  unfold all
  rw [execute_open hs.isOpen, hs.tables, hs.query, h.whole]

theorem first_eq (h : r.Lists ts q rows) {s : State} (hs : s.Offers ts q) :
    r.first s = .ok rows.head? (s.renewed r) := by
  have hone : Window.Fits { limit := some 1 } := by
    rintro limit ⟨⟩
    decide
  have hfound : r.execute (r.fetch { limit := some 1 }) s = .ok (rows.take 1) (s.renewed r) := by
    rw [execute_open hs.isOpen, hs.tables, hs.query, h.fetch hone]
    rfl
  unfold first
  rw [bind_of_ok hfound, List.head?_take]
  rfl

theorem total_of_page {s s' : State} (hs : s.Offers ts q) (hn : 0 < n) {number : Int} {p : Page}
    (hp : r.page (some (n : Int)) number s = .ok p s') :
    q.count ts = .ok p.total ∧ p.perPage = n := by
  obtain ⟨total, items, size, htotal, -, hsize, rfl⟩ := of_page hp
  rw [hs.tables, hs.query] at htotal
  rw [pageSize_eq hn, checkSize_eq hn] at hsize
  exact ⟨htotal, (Except.ok.inj hsize).symm⟩

/-- How the results of a repository agree while a query is built that lists some rows. Pages have
`n` rows, and are asked for as long as the number of rows before them fits into the database. -/
structure Agreed (r : Repository) (ts : Tables) (q : Select) (rows : List Row) (n : Nat) :
    Prop where
  all {s : State} : s.Offers ts q → r.all s = .ok rows (s.renewed r)
  first {s : State} : s.Offers ts q → r.first s = .ok rows.head? (s.renewed r)
  count {s : State} : s.Offers ts q → q.CountsSame → r.count s = .ok rows.length (s.renewed r)
  openPage {s : State} {number : Int} : s.Offers ts q → isInt64 (rowsBefore n number) = true →
    r.openPage (some (n : Int)) number s = .ok
      { items := rowsOn n number rows, perPage := n, currentPage := shownPage number,
        hasMore := decide (shownPage number * n < rows.length), query := s.strings }
      (s.renewed r)
  walk (found : List Row) : r.Walks ts q n 1 found ↔ found = rows
  page {s s' : State} {number : Int} {total : Nat} : s.Offers ts q →
    isInt64 (rowsBefore n number) = true → r.count s = .ok total s' →
    r.page (some (n : Int)) number s = .ok
      { items := rowsOn n number rows, total, perPage := n, currentPage := shownPage number,
        query := s.strings } s'
  pageFails {s s' : State} {number : Int} {e : Failure} : s.Offers ts q →
    r.count s = .error e s' → r.page (some (n : Int)) number s = .error e s'
  /-- The last page is the first one without more rows after it. -/
  lastPage : rows.length ≤ 2 ^ 53 → q.CountsSame → ∃ last : Nat, 0 < last ∧
    (∀ {s s' : State} {number : Int} {p : Page}, s.Offers ts q →
      r.page (some (n : Int)) number s = .ok p s' → p.lastPage = .ok last) ∧
    ∀ {s s' : State} {number : Nat} {p : OpenPage}, s.Offers ts q → 0 < number →
      isInt64 (rowsBefore n number) = true →
      r.openPage (some (n : Int)) number s = .ok p s' → (p.hasMore = true ↔ number < last)

/-- Where a query lists some rows, all rows, the first of them, their number and the pages agree:
each page shows its part of the rows and tells whether others follow, a walk over the pages shows
all rows, and the last page is the one after which none follow. -/
theorem results_agree (h : r.Lists ts q rows) {s₀ : State} (hs₀ : s₀.Offers ts q) (hn : 0 < n)
    (hsize : isInt64 (n + 1 : Nat) = true) (hrows : isInt64 rows.length = true) :
    r.Agreed ts q rows n where
  all := all_eq h
  first := first_eq h
  count hs hsame := by rw [count_eq hs, h.count hsame]
  openPage hs := openPage_eq h hn hsize hs
  walk := walks_iff h hn hsize hrows hs₀
  page hs hbefore hcount :=
    page_of_count h hs hn (isInt64_of_le (Nat.le_succ n) hsize) hbefore hcount
  pageFails hs hcount := page_of_count_error hs hcount _ _
  lastPage hmany hsame := by
    refine ⟨(rows.length - 1) / n + 1, Nat.succ_pos _, ?_, ?_⟩
    · intro s s' number p hs hp
      obtain ⟨htotal, hper⟩ := total_of_page hs hn hp
      rw [h.count hsame] at htotal
      unfold Page.lastPage
      rw [← Except.ok.inj htotal, hper]
      exact lastPage_eq hn hmany
    · intro s s' number p hs hnumber hbefore hp
      rw [openPage_eq h hn hsize hs hbefore] at hp
      cases hp
      rw [decide_eq_true_eq, shownPage_of_pos hnumber, lt_last_iff hn hnumber]

def everyUser : Repository := define Demo.user Demo.schema {} [] [] [] [] false

theorem results_agree_everyUser :
    ∃ t rows, everyUser.start (.ofTables Demo.tables) = .ok t ∧ rows.length = 4 ∧
      everyUser.Agreed Demo.tables everyUser.bareQuery rows 3 ∧
      everyUser.all t = .ok rows (t.renewed everyUser) ∧
      everyUser.Walks Demo.tables everyUser.bareQuery 3 1 rows := by
  have hok : (everyUser.start (.ofTables Demo.tables)).isOk = true := by decide +kernel
  obtain ⟨t, ht⟩ := exists_of_isOk hok
  have hbare : t.desk.session.query = everyUser.bareQuery := by
    rw [start_eq ht]
    rfl
  have hs : t.Offers Demo.tables everyUser.bareQuery := hbare ▸ offers_run ht []
  have hfetch := @Select.fetch_new Demo.user.table [] Demo.schema Demo.tables (by decide)
    (by simp [Select.TestsBase])
  obtain ⟨rows, hrows, hlength⟩ : ∃ rows,
      everyUser.fetch {} Demo.tables everyUser.bareQuery = .ok rows ∧ rows.length = 4 :=
    ⟨_, congrArg (Except.map (List.map (everyUser.conceal everyUser.bareQuery))) hfetch,
      by decide +kernel⟩
  have hcolumns : everyUser.bareQuery.isComputed = false := by decide +kernel
  have hlists : everyUser.Lists Demo.tables everyUser.bareQuery rows :=
    ⟨hrows, fun hc => by rw [hcolumns] at hc; cases hc⟩
  have hagreed := results_agree (n := 3) hlists hs (by decide) (by decide)
    (by rw [hlength]; decide)
  exact ⟨t, rows, ht, hlength, hagreed, hagreed.all hs, (hagreed.walk rows).mpr rfl⟩

/-- A call that is written around a column: the text before and after it is no output alone. -/
def greatest : List String := ["max('a'", "roles.title", "'b')"]

def everyRole : Repository := define Demo.role Demo.schema {} [] [] [] [] false

def greatestAsked (t : State) : State :=
  after (callQuery (.select greatest)) (after (restrict "roles.id" "=" (.int 1)) t)

def givesOne (ts : Tables) (q : Select) : Bool :=
  match q.answer ts (.rows {}), q.read (.rows { limit := some 0 }),
      q.answer ts (.rows { limit := some 0 }) with
  | .ok a, .ok (.list ..), .ok b => q.isComputed && decide (a.names = b.names ∧ a.rows = b.rows ∧
    a.rows.length = 1 ∧ ∀ cells ∈ a.rows, ((q.computedRow a.names cells).map (·.1)).Nodup)
  | _, _, _ => false

theorem lists_of_givesOne (h : givesOne ts q = true) :
    ∃ rows, r.Lists ts q rows ∧ rows.length = 1 := by
  unfold givesOne at h
  split at h
  next a distinct items places b hwhole hread hpart =>
    rw [Bool.and_eq_true, decide_eq_true_eq] at h
    obtain ⟨hc, hnames, hrows, hone, hkeys⟩ := h
    have hsame : b = a := by
      cases a
      cases b
      simp_all
    rw [hsame] at hpart
    have hanswer := fun (w : Window) hw => Select.answer_window (w := w) hwhole hpart hread hw
    exact ⟨_, lists_of_answer hc hanswer hkeys, by rw [List.length_map, List.length_map, hone]⟩
  · cases h

/-- The rows are listed, in full and in pages; but the statement that counts them names the column
within the call, which the database rejects, and so there is no page with the number of rows. -/
theorem greatest_uncounted : ∃ t, everyRole.start (.ofTables Demo.tables) = .ok t ∧
    ∃ q rows, (greatestAsked t).Offers Demo.tables q ∧
      everyRole.Lists Demo.tables q rows ∧ rows.length = 1 ∧
      ∃ e, everyRole.count (greatestAsked t) =
          .error e ((greatestAsked t).renewed everyRole) ∧
        everyRole.page (some 1) 1 (greatestAsked t) =
          .error e ((greatestAsked t).renewed everyRole) := by
  have hok : (everyRole.start (.ofTables Demo.tables)).isOk = true := by decide +kernel
  obtain ⟨t, ht⟩ := exists_of_isOk hok
  have hs : (greatestAsked t).Offers Demo.tables (greatestAsked t).desk.session.query := by
    refine ⟨?_, rfl, ?_⟩
    · rw [start_eq ht]
      decide +kernel
    · unfold greatestAsked callQuery restrict
      rw [database_atDesk, database_atDesk, start_eq ht]
      rfl
  have hgives : givesOne Demo.tables (greatestAsked t).desk.session.query = true := by
    rw [start_eq ht]
    decide +kernel
  have hfails : ((greatestAsked t).desk.session.query.count Demo.tables).isOk = false := by
    rw [start_eq ht]
    decide +kernel
  obtain ⟨rows, hlists, hone⟩ := lists_of_givesOne (r := everyRole) hgives
  cases hq : (greatestAsked t).desk.session.query.count Demo.tables with
  | ok total =>
    rw [hq] at hfails
    cases hfails
  | error e =>
    have hcount : everyRole.count (greatestAsked t) =
        .error e ((greatestAsked t).renewed everyRole) := by
      rw [count_eq hs, hq]
    exact ⟨t, ht, _, rows, hs, hlists, hone, e, hcount, page_of_count_error hs hcount _ _⟩

end Repository

end Winnow
