import Winnow.Proofs.SessionSelection
import Winnow.Proofs.AcceptedCalls
import Winnow.Proofs.OuterJoinWidening

namespace Winnow

variable {ts : Tables} {env : Env} {cat : Catalog} {q : Select}

/-- Whether a row has a text in a column, as the database looks for a part of a text. -/
def Env.contains (env : Env) (ref : ColumnRef) (term : String) : Bool :=
  (Comparison.likeTruth (env.cell ref) (.text ("%" ++ term ++ "%"))).isTrue

namespace Catalog

/-- The columns that are searched in a query. -/
def searched (cat : Catalog) (q : Select) : List ColumnRef :=
  cat.searchable.map fun column => .named q.base.name (cat.book.qualify column)

/-- Whether a row has a text in one of the columns that are searched. -/
def finds (cat : Catalog) (q : Select) (term : String) (env : Env) : Bool :=
  (cat.searched q).any (env.contains · term)

/-- Whether a row is left by a search for a term, if there is one. -/
def leaves (cat : Catalog) (q : Select) (env : Env) (term : Option String) : Bool :=
  term.all fun t => t = "" || cat.searchable.isEmpty || cat.finds q t env

theorem leaves_of_nothing (cat : Catalog) (q : Select) (env : Env) {term : Option String}
    (h : term.getD "" = "" ∨ cat.searchable = []) : cat.leaves q env term = true := by
  cases term with
  | none => rfl
  | some t =>
    rcases h with h | h
    · have hempty : t = "" := h
      simp [leaves, hempty]
    · simp [leaves, h]

theorem leaves_of_term {cat : Catalog} {q : Select} {env : Env} {t : String} (ht : t ≠ "")
    (hs : cat.searchable ≠ []) : cat.leaves q env (some t) = cat.finds q t env := by
  simp [leaves, ht, hs]

end Catalog

def searchTest (term : String) (ref : ColumnRef) : Test :=
  .compare ref .like (.text ("%" ++ term ++ "%"))

theorem Clause.isTrue_eval (c : Clause) :
    (c.eval env).isTrue = c.tests.any fun t => (t.eval env).isTrue := by
  have hfold : ∀ (others : List Test) (x : Truth),
      (others.foldl (fun x t => Truth.or x (t.eval env)) x).isTrue =
        (x.isTrue || others.any fun t => (t.eval env).isTrue) := by
    intro others
    induction others with
    | nil => exact fun x => (Bool.or_false _).symm
    | cons t others ih =>
      intro x
      rw [List.foldl_cons, ih, Truth.isTrue_or, List.any_cons, Bool.or_assoc]
  exact hfold c.others _

namespace Select

theorem orLast_append (t : Test) (clauses : List Clause) (last : Clause) :
    orLast t (clauses ++ [last]) = clauses ++ [last.orElse t] := by
  induction clauses with
  | nil => rfl
  | cons c clauses ih =>
    cases clauses with
    | nil => rfl
    | cons c' rest => exact congrArg (c :: ·) ih

/-- The query with one more element of its `WHERE` list. -/
def addClause (q : Select) (c : Clause) : Select := { q with clauses := q.clauses ++ [c] }

theorem callAll_alternatives {columns : List String} (known : ∀ column ∈ columns, q.Finds column)
    (term : String) (c : Clause) :
    Repository.callAll (columns.map (.orFilter · "like" (.text ("%" ++ term ++ "%"))))
        (q.addClause c) =
      .ok () (q.addClause ⟨c.first, c.others ++
        columns.map fun column => searchTest term (.named q.base.name column)⟩) := by
  induction columns generalizing c with
  | nil =>
    rw [List.map_nil, List.map_nil, List.append_nil]
    rfl
  | cons column columns ih =>
    obtain ⟨hcolumn, hrest⟩ := List.forall_mem_cons.mp known
    have hstep : (q.addClause c).step (.orFilter column "like" (.text ("%" ++ term ++ "%"))) =
        .ok (q.addClause (c.orElse (searchTest term (.named q.base.name column)))) := by
      have hfind : (q.addClause c).findColumn column = .ok (.named q.base.name column) :=
        hcolumn.findColumn
      simp only [step, findTest_text hfind Predicate.ofText?_operators.2.2.1]
      change Except.ok { q with clauses := orLast _ (q.clauses ++ [c]) } = _
      rw [orLast_append]
      rfl
    rw [List.map_cons, Repository.callAll_cons hstep, ih hrest, List.map_cons]
    simp only [Clause.orElse, List.append_assoc, List.singleton_append]

def brought (q : Select) (c : Clause) : List TableDef :=
  ((((c.tests.map (·.column.table)).removeAll q.mentioned).eraseDups).filter
    (· ∉ q.source.tables.map (·.name))).filterMap q.schema.table?

theorem mentioned_addClause (q : Select) (c : Clause) :
    (q.addClause c).mentioned = q.mentioned ++ c.tests.map (·.column.table) := by
  unfold mentioned addClause
  rw [List.flatMap_append, List.flatMap_singleton, ← List.append_assoc]
  rfl

theorem beside_addClause (q : Select) (c : Clause) :
    (q.addClause c).beside = q.beside ++ q.brought c := by
  change ((q.addClause c).mentioned.eraseDups.filter
    (· ∉ q.source.tables.map (·.name))).filterMap q.schema.table? = _
  rw [mentioned_addClause, List.eraseDups_append, List.filter_append, List.filterMap_append]
  rfl

theorem tables_addClause (q : Select) (c : Clause) :
    (q.addClause c).tables = q.tables ++ q.brought c := by
  unfold tables
  rw [beside_addClause, ← List.append_assoc]
  rfl

theorem not_mem_of_brought {c : Clause} {t : TableDef} (h : t ∈ q.brought c) :
    t.name ∉ q.mentioned ∧ t.name ∉ q.tables.map (·.name) := by
  obtain ⟨name, hname, ht⟩ := List.mem_filterMap.mp h
  obtain rfl : t.name = name := by simpa using List.find?_some ht
  obtain ⟨hmem, hjoined⟩ := List.mem_filter.mp hname
  have hnew : t.name ∉ q.mentioned := by
    have hremoved := List.mem_eraseDups.mp hmem
    simp only [List.removeAll, List.mem_filter] at hremoved
    simpa using hremoved.2
  refine ⟨hnew, fun htables => ?_⟩
  unfold tables at htables
  rw [List.map_append, List.mem_append] at htables
  rcases htables with hin | hbeside
  · simp [hin] at hjoined
  · obtain ⟨t', ht', hsame⟩ := List.mem_map.mp hbeside
    exact hnew (hsame ▸ (mem_beside ht').2.1)

theorem brought_eq_nil {c : Clause}
    (h : ∀ t ∈ c.tests, t.column.table ∈ q.tables.map (·.name)) : q.brought c = [] := by
  by_contra hne
  obtain ⟨t, ht⟩ := List.exists_mem_of_ne_nil _ hne
  refine (not_mem_of_brought ht).2 ?_
  obtain ⟨name, hname, hfound⟩ := List.mem_filterMap.mp ht
  obtain rfl : t.name = name := by simpa using List.find?_some hfound
  have hmem := List.mem_eraseDups.mp (List.mem_filter.mp hname).1
  obtain ⟨test, htest, hsame⟩ := List.mem_map.mp (List.mem_filter.mp hmem).1
  exact hsame ▸ h test htest

end Select

theorem crossRows_cons (envs : List Env) (t : TableDef) (rest : List TableDef) :
    crossRows ts envs (t :: rest) = crossRows ts
      (envs.flatMap fun env => (ts.rowsOf t.name).map fun row => env ++ [⟨t, row⟩]) rest := rfl

theorem crossRows_append (envs : List Env) (first rest : List TableDef) :
    crossRows ts envs (first ++ rest) = crossRows ts (crossRows ts envs first) rest := by
  induction first generalizing envs with
  | nil => rfl
  | cons t first ih => exact ih _

/-- Where what is made of an element passes exactly if the element does, the elements may be
filtered instead. -/
theorem filter_flatMap_of_same {α β : Type} {p : α → Bool} {p' : β → Bool} {f : α → List β}
    (h : ∀ a, ∀ b ∈ f a, p' b = p a) (xs : List α) :
    (xs.flatMap f).filter p' = (xs.filter p).flatMap f := by
  induction xs with
  | nil => rfl
  | cons a xs ih =>
    rw [List.flatMap_cons, List.filter_append, ih]
    cases hp : p a with
    | true =>
      have hall : (f a).filter p' = f a :=
        List.filter_eq_self.mpr fun b hb => (h a b hb).trans hp
      rw [hall, List.filter_cons_of_pos hp, List.flatMap_cons]
    | false =>
      have hnone : (f a).filter p' = [] :=
        List.filter_eq_nil_iff.mpr fun b hb => by simp [h a b hb, hp]
      rw [hnone, List.filter_cons_of_neg (by simp [hp]), List.nil_append]

theorem filter_crossRows {p : Env → Bool} {rest : List TableDef}
    (h : ∀ env, ∀ t ∈ rest, ∀ row, p (env ++ [⟨t, row⟩]) = p env) (envs : List Env) :
    (crossRows ts envs rest).filter p = crossRows ts (envs.filter p) rest := by
  induction rest generalizing envs with
  | nil => rfl
  | cons t rest ih =>
    have hrest : ∀ env, ∀ t ∈ rest, ∀ row, p (env ++ [⟨t, row⟩]) = p env :=
      fun env t' ht' row => h env t' (List.mem_cons_of_mem _ ht') row
    have hone : ∀ env : Env, ∀ e ∈ (ts.rowsOf t.name).map (fun row => env ++ [⟨t, row⟩]),
        p e = p env := by
      intro env e he
      obtain ⟨row, -, rfl⟩ := List.mem_map.mp he
      exact h env t List.mem_cons_self row
    rw [crossRows_cons, crossRows_cons, ← filter_flatMap_of_same hone]
    exact ih hrest _

theorem find?_snoc (env : Env) (b : Bound) (c : ColumnRef) : Env.find? (env ++ [b]) c =
    (env.find? c).or (if b.table.name = c.table then some b else none) := by
  unfold Env.find?
  rw [List.find?_append]
  by_cases h : b.table.name = c.table <;> simp [h]

theorem find?_snoc_of_ne {c : ColumnRef} {b : Bound} (h : b.table.name ≠ c.table) :
    Env.find? (env ++ [b]) c = env.find? c := by
  rw [find?_snoc, if_neg h, Option.or_none]

namespace Select

theorem holds_addClause (c : Clause) (env : Env) :
    (q.addClause c).holds env = ((c.eval env).isTrue && q.holds env) := by
  unfold holds addClause
  rw [List.all_append, List.all_cons, List.all_nil, Bool.and_true, Bool.and_comm]

theorem matched_addClause_of_known {c : Clause}
    (h : ∀ t ∈ c.tests, t.column.table ∈ q.tables.map (·.name)) :
    (q.addClause c).matched ts = (q.matched ts).filter fun env => (c.eval env).isTrue := by
  have hsource : (q.addClause c).sourceRows ts = q.sourceRows ts := by
    unfold sourceRows
    rw [beside_addClause, brought_eq_nil h, List.append_nil]
    rfl
  change ((q.addClause c).sourceRows ts).filter (q.addClause c).holds =
    ((q.sourceRows ts).filter q.holds).filter _
  rw [hsource, List.filter_filter, funext (holds_addClause c)]

/-- One more element that a query has to make true: its rows are those that were there, beside the
rows of the tables that it brings, for which it is true. -/
theorem matched_addClause {c : Clause}
    (known : ∀ ref ∈ q.source.columns, ref.table ∈ q.tables.map (·.name)) :
    (q.addClause c).matched ts =
      (crossRows ts (q.matched ts) (q.brought c)).filter fun env => (c.eval env).isTrue := by
  have hfar : ∀ t ∈ q.brought c, ∀ (env : Env) row (ref : ColumnRef),
      (ref.table ∈ q.mentioned ∨ ref.table ∈ q.tables.map (·.name)) →
        Env.find? (env ++ [⟨t, row⟩]) ref = env.find? ref := by
    intro t ht env row ref href
    obtain ⟨hnew, hapart⟩ := not_mem_of_brought ht
    refine find?_snoc_of_ne fun hsame => ?_
    rcases href with href | href
    · exact hnew (hsame ▸ href)
    · exact hapart (hsame ▸ href)
  have hlate : ∀ env, ∀ t ∈ q.brought c, ∀ row,
      q.source.keepsLate (env ++ [⟨t, row⟩]) = q.source.keepsLate env :=
    fun env t ht row => Source.keepsLate_congr rfl fun ref href =>
      hfar t ht env row ref (Or.inr (known ref href))
  have hholds : ∀ env, ∀ t ∈ q.brought c, ∀ row, q.holds (env ++ [⟨t, row⟩]) = q.holds env := by
    intro env t ht row
    refine holds_congr fun clause hclause test htest => hfar t ht env row _ (Or.inl ?_)
    refine List.mem_append_right _ (List.mem_flatMap.mpr ⟨clause, hclause, ?_⟩)
    exact List.mem_map_of_mem htest
  have hsource : (q.addClause c).sourceRows ts = crossRows ts (q.sourceRows ts) (q.brought c) := by
    unfold sourceRows
    rw [beside_addClause, crossRows_append, ← filter_crossRows hlate]
    rfl
  have hmatched : crossRows ts (q.matched ts) (q.brought c) =
      (crossRows ts (q.sourceRows ts) (q.brought c)).filter q.holds :=
    (filter_crossRows hholds _).symm
  rw [hmatched, List.filter_filter]
  change ((q.addClause c).sourceRows ts).filter (q.addClause c).holds = _
  rw [hsource, funext (holds_addClause c)]

end Select

namespace Desk

variable {d : Desk Select}

theorem search_of_nothing {term : Option String} (h : term.getD "" = "" ∨ cat.searchable = []) :
    search cat term d = .ok () d := by
  unfold search
  cases term with
  | none => rfl
  | some t =>
    have hskip : (decide (t = "") || cat.searchable.isEmpty) = true := by simpa using h
    simp only [hskip, ↓reduceIte]
    rfl

/-- The element that a search for a text adds. -/
def searchClause (term : String) (first : ColumnRef) (others : List ColumnRef) : Clause :=
  ⟨searchTest term first, others.map (searchTest term)⟩

theorem search_of_term (isOpen : d.session.isOpen = true)
    (known : ∀ column ∈ cat.searchable, d.session.query.Finds (cat.book.qualify column))
    {t : String} (ht : t ≠ "") {first : ColumnRef} {others : List ColumnRef}
    (hs : cat.searched d.session.query = first :: others) :
    search cat (some t) d = .ok ()
      (d.entered.withQuery (d.session.query.addClause (searchClause t first others))) := by
  unfold Catalog.searched at hs
  obtain ⟨column, columns, hcolumns, rfl, rfl⟩ := List.map_eq_cons_iff.mp hs
  rw [hcolumns] at known
  obtain ⟨hfirst, hothers⟩ := List.forall_mem_cons.mp known
  have hskip : (decide (t = "") || cat.searchable.isEmpty) = false := by simp [ht, hcolumns]
  have hstep : d.session.query.step
      (.filter (cat.book.qualify column) "like" (.text ("%" ++ t ++ "%"))) =
        .ok (d.session.query.addClause
          ⟨searchTest t (.named d.session.query.base.name (cat.book.qualify column)), []⟩) := by
    have hlike := Select.findTest_text (v := "%" ++ t ++ "%") hfirst.findColumn
      Predicate.ofText?_operators.2.2.1
    simp only [Select.step, hlike]
    rfl
  have hcalls : Repository.callAll (searchCalls cat t) d.entered.session.query =
      .ok () (d.session.query.addClause (searchClause t
        (.named d.session.query.base.name (cat.book.qualify column))
        (columns.map fun column =>
          .named d.session.query.base.name (cat.book.qualify column)))) := by
    unfold searchCalls
    rw [hcolumns, List.map_cons]
    change Repository.callAll (_ :: (columns.map cat.book.qualify).map _) d.session.query = _
    rw [Repository.callAll_cons hstep, Select.callAll_alternatives (by simpa using hothers)]
    simp only [List.map_map, List.nil_append, searchClause, Function.comp_def]
  unfold search
  simp only [hskip, Bool.false_eq_true, ↓reduceIte]
  rw [bind_of_ok (enter_of_open isOpen)]
  exact issueAll_of_callAll hcalls

theorem exists_of_getD_ne {term : Option String} (h : term.getD "" ≠ "") :
    ∃ t, term = some t ∧ t ≠ "" := by
  cases term with
  | none => exact absurd rfl h
  | some t => exact ⟨t, rfl, h⟩

/-- A search adds nothing to an open session, or one element to the `WHERE` list of its query. -/
theorem search_cases (isOpen : d.session.isOpen = true)
    (known : ∀ column ∈ cat.searchable, d.session.query.Finds (cat.book.qualify column))
    (term : Option String) :
    search cat term d = .ok () d ∧ (term.getD "" = "" ∨ cat.searchable = []) ∨
    ∃ t clause, term = some t ∧ t ≠ "" ∧ cat.searchable ≠ [] ∧ search cat term d =
        .ok () (d.entered.withQuery (d.session.query.addClause clause)) ∧
      clause.tests.map (·.column) = cat.searched d.session.query ∧
      ∀ env, (clause.eval env).isTrue = cat.finds d.session.query t env := by
  by_cases hnothing : term.getD "" = "" ∨ cat.searchable = []
  · exact Or.inl ⟨search_of_nothing hnothing, hnothing⟩
  · obtain ⟨hterm, hcolumns⟩ := not_or.mp hnothing
    obtain ⟨t, rfl, ht⟩ := exists_of_getD_ne hterm
    cases hs : cat.searched d.session.query with
    | nil => exact absurd (List.map_eq_nil_iff.mp hs) hcolumns
    | cons first others =>
      refine Or.inr ⟨t, searchClause t first others, rfl, ht, hcolumns,
        search_of_term isOpen known ht hs, ?_, fun env => ?_⟩
      · unfold searchClause Clause.tests
        rw [List.map_cons, List.map_map]
        exact congrArg (first :: ·) (List.map_id _)
      · unfold Catalog.finds
        rw [Clause.isTrue_eval, hs]
        unfold searchClause Clause.tests
        rw [List.any_cons, List.any_cons, List.any_map]
        rfl

/-- Searches one after the other, in columns of tables that the query looks at: each takes the rows
away that have no match. -/
theorem searches_leave (isOpen : d.session.isOpen = true)
    (known : ∀ column ∈ cat.searchable, d.session.query.Finds (cat.book.qualify column))
    (within : ∀ ref ∈ cat.searched d.session.query,
      ref.table ∈ d.session.query.tables.map (·.name)) (terms : List (Option String)) :
    ∃ e added, terms.forM (search cat) d = .ok () e ∧
      e.session.query = { d.session.query with clauses := d.session.query.clauses ++ added } ∧
      ∀ ts, e.session.query.matched ts = (d.session.query.matched ts).filter fun env =>
        terms.all (cat.leaves d.session.query env) := by
  induction terms generalizing d with
  | nil =>
    refine ⟨d, [], rfl, by rw [List.append_nil], fun ts => ?_⟩
    exact (List.filter_eq_self.mpr fun _ _ => rfl).symm
  | cons term terms ih =>
    rcases search_cases isOpen known term with
      ⟨hok, hnothing⟩ | ⟨t, clause, rfl, ht, hcolumns, hok, htests, heval⟩
    · obtain ⟨e, added, hrest, hquery, hrows⟩ := ih isOpen known within
      refine ⟨e, added, (bind_of_ok hok).trans hrest, hquery, fun ts => ?_⟩
      have hall := fun env => cat.leaves_of_nothing d.session.query env hnothing
      simp only [hrows, List.all_cons, hall, Bool.true_and]
    · have hwithin : ∀ ref ∈ cat.searched d.session.query,
          ref.table ∈ (d.session.query.addClause clause).tables.map (·.name) := by
        intro ref href
        rw [Select.tables_addClause, List.map_append]
        exact List.mem_append_left _ (within ref href)
      obtain ⟨e, added, hrest, hquery, hrows⟩ :=
        ih (d := d.entered.withQuery (d.session.query.addClause clause)) rfl known hwithin
      refine ⟨e, clause :: added, (bind_of_ok hok).trans hrest, ?_, fun ts => ?_⟩
      · rw [hquery]
        change { d.session.query with
          clauses := (d.session.query.clauses ++ [clause]) ++ added } = _
        rw [List.append_assoc]
        rfl
      · have hclause : ∀ test ∈ clause.tests,
            test.column.table ∈ d.session.query.tables.map (·.name) :=
          fun test htest => within _ (htests ▸ List.mem_map_of_mem htest)
        have hleaves : ∀ env, cat.leaves d.session.query env (some t) =
            (clause.eval env).isTrue := by
          intro env
          rw [heval, Catalog.leaves_of_term ht hcolumns]
        rw [hrows]
        change ((d.session.query.addClause clause).matched ts).filter _ = _
        rw [Select.matched_addClause_of_known hclause, List.filter_filter]
        refine List.filter_congr fun env _ => ?_
        rw [List.all_cons, hleaves, Bool.and_comm]
        rfl

/-- Whatever was done before, a search for a term in some columns adds one element to the `WHERE`
list of an open session and changes nothing else of its query. The element is true for the rows
with a match in one of the columns. Where these are of tables that the query looks at, the rows
that are left, by one search or several, are those that were there and match each time. A column of
another table brings that table in: the rows that were there come beside each of its rows. -/
theorem search_is_one_group (isOpen : d.session.isOpen = true)
    (known : ∀ column ∈ cat.searchable, d.session.query.Finds (cat.book.qualify column)) :
    let q := d.session.query
    (∀ term : Option String, term.getD "" = "" ∨ cat.searchable = [] →
      search cat term d = .ok () d) ∧
    (∀ t, t ≠ "" → cat.searchable ≠ [] → ∃ clause,
      search cat (some t) d =
        .ok () (d.entered.withQuery { q with clauses := q.clauses ++ [clause] }) ∧
      (∀ env, (clause.eval env).isTrue = cat.finds q t env) ∧
      ((∀ ref ∈ q.source.columns, ref.table ∈ q.tables.map (·.name)) → ∃ brought,
        (q.addClause clause).tables = q.tables ++ brought ∧
        ∀ ts, (q.addClause clause).matched ts =
          (crossRows ts (q.matched ts) brought).filter (cat.finds q t))) ∧
    ((∀ ref ∈ cat.searched q, ref.table ∈ q.tables.map (·.name)) →
      ∀ terms : List (Option String), ∃ e added,
      terms.forM (search cat) d = .ok () e ∧
      e.session.query = { q with clauses := q.clauses ++ added } ∧
      ∀ ts, e.session.query.matched ts =
        (q.matched ts).filter fun env => terms.all (cat.leaves q env)) := by
  refine ⟨fun term h => search_of_nothing h, fun t ht hs => ?_,
    fun within terms => searches_leave isOpen known within terms⟩
  rcases search_cases isOpen known (some t) with
    ⟨-, hnothing⟩ | ⟨t, clause, hterm, -, -, hok, -, heval⟩
  · exact absurd hnothing (not_or.mpr ⟨ht, hs⟩)
  · cases hterm
    refine ⟨clause, hok, heval, fun hcolumns => ⟨_, Select.tables_addClause _ clause, fun ts => ?_⟩⟩
    rw [Select.matched_addClause hcolumns, funext heval]

theorem search_is_one_group_users :
    let d := opened (fun _ => allUsers) {}
    (∀ column ∈ shownUsers.searchable, d.session.query.Finds (shownUsers.book.qualify column)) ∧
      (∀ ref ∈ shownUsers.searched allUsers, ref.table ∈ allUsers.tables.map (·.name)) ∧
      ∃ e, [some "a", none, some "example"].forM (search shownUsers) d = .ok () e ∧
        e.session.query.matched Demo.tables = (allUsers.matched Demo.tables).filter fun env =>
          [some "a", none, some "example"].all (shownUsers.leaves allUsers env) := by
  have known : ∀ column ∈ shownUsers.searchable,
      (opened (fun _ => allUsers) {}).session.query.Finds (shownUsers.book.qualify column) :=
    agrees_shownUsers.searchable
  have within : ∀ ref ∈ shownUsers.searched allUsers,
      ref.table ∈ allUsers.tables.map (·.name) := by decide +kernel
  obtain ⟨-, -, hall⟩ := search_is_one_group (d := opened (fun _ => allUsers) {}) rfl known
  obtain ⟨e, added, hok, -, hrows⟩ := hall within [some "a", none, some "example"]
  exact ⟨known, within, e, hok, hrows Demo.tables⟩

def titledUsers : Catalog where
  book := ⟨"users", []⟩
  searchable := ["name", "roles.title"]

/-- One user has such a name, and comes once for each role. -/
theorem grace_found_twice :
    let d := opened (fun _ => allUsers) {}
    let e := after (search titledUsers (some "Grace")) d
    d.session.isOpen = true ∧
      (∀ column ∈ titledUsers.searchable,
        d.session.query.Finds (titledUsers.book.qualify column)) ∧
      succeeds (search titledUsers (some "Grace")) d = true ∧
      (e.session.query.matched Demo.tables).length = 2 ∧
      ((d.session.query.matched Demo.tables).filter
        (titledUsers.finds d.session.query "Grace")).length = 1 := by
  decide +kernel

end Desk

end Winnow
