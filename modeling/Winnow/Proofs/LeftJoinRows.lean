import Winnow.Proofs.SchemaAgreement
import Winnow.Proofs.RecordContribution
import Winnow.Proofs.TrashedUntouched
import Winnow.Proofs.OuterJoinWidening

namespace Winnow

theorem Hop.no_dot_fromTable {pair : String × String} {hop : Hop} (h : ofPair? pair = some hop) :
    '.' ∉ hop.fromTable.toList := by
  unfold ofPair? at h
  split at h
  next hfrom _ =>
    cases h
    exact no_dot_of_halves hfrom
  next => cases h

theorem Catalog.no_dot_of_later {cat : Catalog} {rel : Relation} {before rest : List Hop}
    {hop : Hop} (h : cat.hops rel = before ++ hop :: rest) (hb : before ≠ []) :
    '.' ∉ hop.fromTable.toList := by
  have hall : ∀ hop ∈ rel.chain.filterMap Hop.ofPair?, '.' ∉ hop.fromTable.toList := by
    intro hop hm
    obtain ⟨pair, -, hp⟩ := List.mem_filterMap.mp hm
    exact Hop.no_dot_fromTable hp
  obtain ⟨first, before, rfl⟩ := List.exists_cons_of_ne_nil hb
  unfold Catalog.hops Route.rebase at h
  split at h
  next => cases h
  next first' rest' hs =>
    rw [hs] at hall
    obtain ⟨-, rfl⟩ := List.cons.inj h
    exact hall hop (by simp)

namespace Select

variable {q q' p : Select}

theorem findTable_name {name : String} {t : TableDef} (h : q.findTable name = .ok t) :
    t.name = name := by
  unfold findTable at h
  split at h
  next t' ht =>
    cases h
    simpa using List.find?_some ht
  next => cases h

theorem Widens.refl (q : Select) : q.Widens q [] [] := ⟨rfl, rfl, by simp⟩

variable {more : List (TableDef × JoinOn)} {marks : List ColumnRef}

theorem Widens.select (h : q.Widens q' more marks) {entries : List String}
    (hs : q'.step (.select entries) = .ok p) : q.Widens p more marks := by
  obtain ⟨outputs, -, rfl⟩ := ok_of_map hs
  exact ⟨h.schema, h.source, h.clauses⟩

theorem Widens.join (h : q.Widens q' more marks) {table first operator second : String}
    (hs : q'.step (.join table first operator second (.ok .left)) = .ok p) :
    ∃ added : TableDef × JoinOn, added.1.name = table ∧ q.Widens p (more ++ [added]) marks := by
  obtain ⟨t, ht, hs⟩ := ok_of_bind hs
  obtain ⟨comparison, -, hs⟩ := ok_of_bind hs
  obtain ⟨left, -, hs⟩ := ok_of_bind hs
  obtain ⟨right, -, hs⟩ := ok_of_bind hs
  cases hs
  refine ⟨(t, ⟨left, comparison, right⟩), findTable_name ht, h.schema, ?_, h.clauses⟩
  rw [Source.widen_append, ← h.source]
  rfl

theorem Widens.guard (h : q.Widens q' more marks) {table column : String}
    (hdot : '.' ∉ table.toList) (hs : q'.step (.filterNull (table ++ "." ++ column)) = .ok p) :
    q.Widens p more (marks ++ [⟨table, column⟩]) := by
  obtain ⟨c, hc, rfl⟩ := ok_of_map hs
  obtain rfl : c = ⟨table, column⟩ := by
    rw [Repository.findColumn_eq hc, tableAndColumn, Repository.cut_qualified hdot]
    rfl
  refine ⟨h.schema, h.source, ?_⟩
  change q'.clauses ++ _ = _
  rw [h.clauses, List.map_append, List.append_assoc]
  rfl

theorem lasts_tables (t : TableDef) : Select.Lasts fun q => t ∈ q.source.tables := by
  intro q call q' ht hs
  cases call with
  | filter | orFilter | filterNot | filterIn | filterNotIn | filterNull | filterNotNull | select
  | orderBy =>
    obtain ⟨found, -, rfl⟩ := ok_of_map hs
    exact ht
  | filterBetween | filterNotBetween =>
    obtain ⟨bounds, -, hs⟩ := ok_of_bind hs
    obtain ⟨c, -, hs⟩ := ok_of_bind hs
    cases hs
    exact ht
  | join table first operator second joinKind =>
    obtain ⟨t', -, hs⟩ := ok_of_bind hs
    obtain ⟨comparison, -, hs⟩ := ok_of_bind hs
    obtain ⟨left, -, hs⟩ := ok_of_bind hs
    obtain ⟨right, -, hs⟩ := ok_of_bind hs
    cases joinKind with
    | error v => cases hs
    | ok kind =>
      cases hs
      cases kind <;> simp [joinSource, Source.tables, ht]

end Select

namespace Desk

variable {cat : Catalog} {d₀ d d' : Desk Select} {more : List (TableDef × JoinOn)}
variable {tables : List String}

/-- What joining a relation to the left does: outer joins to tables that were not joined, and
guards of tables that were not under guard. -/
structure Grows (cat : Catalog) (d₀ d : Desk Select) (more : List (TableDef × JoinOn))
    (tables : List String) : Prop where
  query : d₀.session.query.Widens d.session.query more
    (tables.map fun table => ⟨table, cat.softDeleteColumn⟩)
  joined : ∀ table, table ∈ d.session.joins.joined ↔
    table ∈ d₀.session.joins.joined ∨ table ∈ more.map (·.1.name)
  guarded : ∀ table, table ∈ d.session.joins.guarded ↔
    table ∈ d₀.session.joins.guarded ∨ table ∈ tables
  unjoined : ∀ table ∈ more.map (·.1.name), table ∉ d₀.session.joins.joined
  unguarded : ∀ table ∈ tables, table ∉ d₀.session.joins.guarded

theorem Grows.refl (cat : Catalog) (d : Desk Select) : Grows cat d d [] [] :=
  ⟨.refl _, by simp, by simp, nofun, nofun⟩

theorem Grows.of_same (h : Grows cat d₀ d more tables)
    (hq : d'.session.query = d.session.query)
    (hj : d'.session.joins.joined = d.session.joins.joined)
    (hg : d'.session.joins.guarded = d.session.joins.guarded) : Grows cat d₀ d' more tables :=
  ⟨hq ▸ h.query, hj ▸ h.joined, hg ▸ h.guarded, h.unjoined, h.unguarded⟩

/-- The columns that are to be null in addition are the marks of the tables that were not under
guard before. -/
theorem Grows.forall_marks (h : Grows cat d₀ d more tables) {P : ColumnRef → Prop} :
    (∀ c ∈ tables.map fun table => ColumnRef.mk table cat.softDeleteColumn, P c) ↔
      ∀ table ∈ d.session.joins.guarded, table ∉ d₀.session.joins.guarded →
        P ⟨table, cat.softDeleteColumn⟩ := by
  rw [List.forall_mem_map]
  refine forall_congr' fun table => ⟨fun hall hg hn => ?_, fun hall ht => ?_⟩
  · exact hall (((h.guarded table).mp hg).resolve_left hn)
  · exact hall ((h.guarded table).mpr (Or.inr ht)) (h.unguarded table ht)

theorem Grows.select (h : Grows cat d₀ d more tables) {entries : List String}
    (hs : Sends (.select entries) id d d') : Grows cat d₀ d' more tables := by
  rcases hs.step with ⟨hq, hj⟩ | ⟨hq, hj⟩
  · exact ⟨h.query.select hq, hj ▸ h.joined, hj ▸ h.guarded, h.unjoined, h.unguarded⟩
  · exact h.of_same hq (hj ▸ rfl) (hj ▸ rfl)

theorem Grows.join (h : Grows cat d₀ d more tables) {hop : Hop}
    (hnew : hop.toTable ∉ d.session.joins.joined)
    (hs : Sends (hop.call .left) (·.addTable hop.toTable) d d') :
    ∃ more, Grows cat d₀ d' more tables := by
  rcases hs.step with ⟨hq, hj⟩ | ⟨hq, hj⟩
  · obtain ⟨added, hname, hwidens⟩ := h.query.join hq
    refine ⟨more ++ [added], hwidens, fun table => ?_, hj ▸ h.guarded, ?_, h.unguarded⟩
    · rw [hj, Joins.addTable, mem_addNew, h.joined, List.map_append, List.mem_append, or_comm,
        or_assoc]
      simp [hname]
    · rw [List.map_append, List.forall_mem_append]
      refine ⟨h.unjoined, List.forall_mem_singleton.mpr fun ht => hnew ?_⟩
      rw [← hname]
      exact (h.joined _).mpr (Or.inl ht)
  · exact ⟨more, h.of_same hq (hj ▸ rfl) (hj ▸ rfl)⟩

theorem Grows.guard (h : Grows cat d₀ d more tables) {table : String}
    (hdot : '.' ∉ table.toList) (hnew : table ∉ d.session.joins.guarded)
    (hs : Sends (cat.guardCall table) (·.addGuard table) d d') :
    ∃ tables, Grows cat d₀ d' more tables := by
  rcases hs.step with ⟨hq, hj⟩ | ⟨hq, hj⟩
  · refine ⟨tables ++ [table], ?_, hj ▸ h.joined, fun other => ?_, h.unjoined, ?_⟩
    · rw [List.map_append]
      exact h.query.guard hdot hq
    · rw [hj, Joins.addGuard, mem_addNew, h.guarded, List.mem_append, or_comm, or_assoc]
      simp
    · rw [List.forall_mem_append]
      refine ⟨h.unguarded, List.forall_mem_singleton.mpr fun ht => hnew ?_⟩
      exact (h.guarded _).mpr (Or.inl ht)
  · exact ⟨tables, h.of_same hq (hj ▸ rfl) (hj ▸ rfl)⟩

theorem Grows.move {ref : RelationRef} {rel : Relation}
    (known : cat.book.relationOf? ref = some rel) (left : rel.joinKind = .left)
    (hm : Move cat ⟨(· = ref), fun _ _ => False⟩ d d')
    (h : ∃ more tables, Grows cat d₀ d more tables) :
    ∃ more tables, Grows cat d₀ d' more tables := by
  obtain ⟨more, tables, h⟩ := h
  cases hm with
  | aside hs => exact ⟨more, tables, h.of_same (hs ▸ rfl) (hs ▸ rfl) (hs ▸ rfl)⟩
  | enter => exact ⟨more, tables, h.of_same rfl rfl rfl⟩
  | call ha => exact ha.elim
  | @relation _ other rel' ha hk hj =>
    obtain rfl : other = ref := ha
    cases hk.symm.trans known
    have hhops := Catalog.hops_of_relationOf? known
    cases hj with
    | @select j hj _ hs =>
      have hchosen : Grows cat d₀ (d.withJoins j) more tables :=
        h.of_same rfl (hj ▸ chosen_joined _ _ _) (hj ▸ chosen_guarded _ _ _)
      exact ⟨more, tables, hchosen.select hs⟩
    | @join hop hf hs =>
      have hnew : hop.toTable ∉ d.session.joins.joined := by simpa using List.find?_some hf
      rw [left] at hs
      obtain ⟨more, h⟩ := h.join hnew hs
      exact ⟨more, tables, h⟩
    | @guard before rest hop table hs _ _ ht hg hsends =>
      have hdot : '.' ∉ table.toList := by
        rw [hhops] at hs
        rcases ht with rfl | ⟨hb, rfl⟩
        · have hmem : hop ∈ cat.hops rel := by simp [hs]
          exact Catalog.no_dot_of_mem_hops hmem
        · exact Catalog.no_dot_of_later hs hb
      obtain ⟨tables, h⟩ := h.guard hdot hg hsends
      exact ⟨more, tables, h⟩

theorem grows_join {ref : RelationRef} {rel : Relation}
    (known : cat.book.relationOf? ref = some rel) (left : rel.joinKind = .left)
    (hm : cat.book.Reaches d.memory) :
    ∃ more tables, Grows cat d (after (join cat ref) d) more tables := by
  have hgoes : Goes (Move cat ⟨(· = ref), fun _ _ => False⟩) (Has cat [])
      (join (Q := Select) cat ref) _ := goes_join rfl
  exact kept_of_moves (I := fun e => ∃ more tables, Grows cat d e more tables)
    (fun _ _ hm h => Grows.move known left hm h) (hgoes.after_moves ⟨hm, List.nil_subset _⟩)
    ⟨[], [], .refl cat d⟩

end Desk

namespace Repository

variable {r : Repository} {db : Database} {s s' t : State} {record : List Cell} {env : Env}

theorem desk_join {ref : RelationRef} :
    (after (r.join ref) s).desk = after (Desk.join r.catalog ref) s.desk := by
  unfold join after atDesk
  cases Desk.join r.catalog ref s.desk <;> rfl

/-- What stands side by side in the joins of a later state, with a record of the repository's table
among it, and is true for the `WHERE` list of an earlier one. -/
structure Keeps (r : Repository) (s s' : State) (record : List Cell) (env : Env) : Prop where
  stands : env ∈ s'.desk.session.query.sourceRows s'.database.current
  record : ⟨r.model.table, record⟩ ∈ env
  holds : s.desk.session.query.holds env = true

/-- Joining a relation to the left takes no record out of the joined rows for which the earlier
tests are true, whatever the database holds, whatever was done with the repository before and
whether joining fails half way or not. So a record that contributed a row still does, unless each
of those rows has a mark in the trash column of a table that the call puts under guard. That is so
as long as nothing was asked of a table that is joined only now, no table that is named without
being joined is empty, and the database then runs the query and gives a row for each that it looks
at. -/
theorem left_join_keeps (ht : r.start db = .ok t) (acts : List Act) {ref : RelationRef}
    {rel : Relation} (known : r.catalog.book.relationOf? ref = some rel)
    (left : rel.joinKind = .left) (hs : s = r.runActs acts t) (hs' : s' = after (r.join ref) s)
    (apart : ∀ table ∈ s'.desk.session.joins.joined, table ∉ s.desk.session.joins.joined →
      table ∉ s.desk.session.query.asked)
    (filled : ∀ table ∈ s'.desk.session.query.beside,
      s'.database.current.rowsOf table.name ≠ [])
    (plain : s'.desk.session.query.ReadsRowByRow) (gives : succeeds r.all s' = true)
    (contributed : r.Contributes s record) :
    (∃ env, r.Keeps s s' record env) ∧
      (r.Contributes s' record ↔ ∃ env, r.Keeps s s' record env ∧
        ∀ table ∈ s'.desk.session.joins.guarded, table ∉ s.desk.session.joins.guarded →
          env.cell ⟨table, r.catalog.softDeleteColumn⟩ = .null) := by
  have hdatabase : s'.database = s.database := hs' ▸ database_atDesk _ _
  have hrows : r.rows s' = r.rows s := by
    unfold rows
    rw [hdatabase]
  have hbase := upholds_runActs (Select.lasts_tables r.model.table) (List.mem_singleton.mpr rfl) ht
    acts
  rw [← hs] at hbase
  have hdesk : s'.desk = after (Desk.join r.catalog ref) s.desk := hs' ▸ desk_join
  obtain ⟨more, tables, hgrows⟩ := Desk.grows_join (d := s.desk) known left hbase.memory
  rw [← hdesk] at hgrows
  obtain ⟨outputs, hbefore⟩ := contributed.checkNames
  obtain ⟨outputs', hafter⟩ := checkNames_of_all plain gives
  obtain ⟨-, -, -, hrecord, env, henv, hmem, -⟩ := contributed
  -- the new tables were not joined before, so nothing was asked of them
  have hapart : ∀ p ∈ more, p.1.name ∉ s.desk.session.query.asked := by
    intro p hp
    have hname : p.1.name ∈ more.map (·.1.name) := List.mem_map_of_mem hp
    exact apart _ ((hgrows.joined _).mpr (Or.inr hname)) (hgrows.unjoined _ hname)
  refine ⟨?_, ?_⟩
  · rw [← hdatabase] at henv
    obtain ⟨env', hstands, hholds, hkept⟩ :=
      hgrows.query.exists_row hbefore hafter hapart filled henv
    exact ⟨env', hstands, hkept _ hmem hbase.query, hholds⟩
  · rw [contributes_iff plain gives, hrows, and_iff_right hrecord]
    refine exists_congr fun env => ?_
    rw [hgrows.query.mem_matched, hgrows.forall_marks]
    constructor
    · rintro ⟨⟨hstands, hholds, hnull⟩, hmem⟩
      exact ⟨⟨hstands, hmem, hholds⟩, hnull⟩
    · rintro ⟨⟨hstands, hmem, hholds⟩, hnull⟩
      exact ⟨⟨hstands, hholds, hnull⟩, hmem⟩

/-- A repository of the demonstration with one relation, which is joined to the left. -/
def linked (model : Model) (chain : List (String × String)) (entries softDelete : List String) :
    Repository :=
  define model Demo.schema {} [("link", { chain, entries, softDelete, joinKind := .left })] [] [] []
    false

def link : RelationRef := .named (.text "link")

def onlyUser (id : Int) : Act := .query (.restrict "users.id" "=" (.int id))

def pictured : Repository :=
  linked Demo.user [("users.pic_id", "user_pictures.id")] [] ["user_pictures"]

def alan : List Cell :=
  [.int 2, .text "Alan", .text "alan@example.com", .text "active", .text "x", .int 2, .int 2]

def alanPictured : Env :=
  [⟨Demo.user.table, alan⟩,
    ⟨Demo.userPicture.table, [.int 2, .text "/img/alan.png", .null]⟩]

deriving instance DecidableEq for Bound

theorem left_join_keeps_alan : ∃ t s s', pictured.start (.ofTables Demo.tables) = .ok t ∧
    s = pictured.runActs [onlyUser 2] t ∧ s' = after (pictured.join link) s ∧
    pictured.Contributes s alan ∧ "user_pictures" ∈ s'.desk.session.joins.guarded ∧
    pictured.Keeps s s' alan alanPictured ∧ pictured.Contributes s' alan := by
  have hok : (pictured.start (.ofTables Demo.tables)).isOk = true := by decide +kernel
  obtain ⟨t, ht⟩ := exists_of_isOk hok
  have hstart := start_eq ht
  let s := pictured.runActs [onlyUser 2] t
  let s' := after (pictured.join link) s
  have hplain : s.desk.session.query.isComputed = false ∧
      s'.desk.session.query.isComputed = false := by
    simp only [s', s, hstart]
    decide +kernel
  have hgives : succeeds pictured.all s = true ∧ succeeds pictured.all s' = true := by
    simp only [s', s, hstart]
    decide +kernel
  have hbefore : alan ∈ pictured.rows s ∧
      [⟨Demo.user.table, alan⟩] ∈ s.desk.session.query.matched s.database.current := by
    simp only [s, hstart]
    decide +kernel
  have hafter : alanPictured ∈ s'.desk.session.query.sourceRows s'.database.current ∧
      s.desk.session.query.holds alanPictured = true := by
    simp only [s', s, hstart]
    decide +kernel
  have hjoins : "user_pictures" ∈ s'.desk.session.joins.guarded ∧
      (∀ table ∈ s'.desk.session.joins.joined, table ∉ s.desk.session.joins.joined →
        table ∉ s.desk.session.query.asked) ∧
      s'.desk.session.query.beside = [] ∧
      ∀ table ∈ s'.desk.session.joins.guarded, table ∉ s.desk.session.joins.guarded →
        alanPictured.cell ⟨table, pictured.catalog.softDeleteColumn⟩ = .null := by
    simp only [s', s, hstart]
    decide +kernel
  obtain ⟨hguard, hapart, hbeside, hnull⟩ := hjoins
  have hcontributed : pictured.Contributes s alan :=
    (contributes_iff (.of_columns hplain.1) hgives.1).mpr
      ⟨hbefore.1, _, hbefore.2, List.mem_singleton.mpr rfl⟩
  have hkeeps : pictured.Keeps s s' alan alanPictured :=
    ⟨hafter.1, by simp [alanPictured, pictured, linked, define], hafter.2⟩
  have hfilled : ∀ table ∈ s'.desk.session.query.beside,
      s'.database.current.rowsOf table.name ≠ [] := by
    simp [hbeside]
  obtain ⟨-, hiff⟩ := @left_join_keeps pictured _ s s' t alan ht [onlyUser 2] link _ rfl rfl rfl rfl
    hapart hfilled (.of_columns hplain.2) hgives.2 hcontributed
  exact ⟨t, s, s', ht, rfl, rfl, hcontributed, hguard, hkeeps, hiff.mpr ⟨_, hkeeps, hnull⟩⟩

/-- The identifiers in the rows that a new repository over some tables shows after some acts. -/
def shownIds (r : Repository) (ts : Tables) (acts : List Act) : Option (List Int) :=
  match r.reached? ts acts with
  | none => none
  | some s =>
    match r.all s with
    | .ok rows _ => some (rows.filterMap fun row =>
        match row.lookup "id" with
        | some (.int n) => some n
        | _ => none)
    | .error _ _ => none

/-- Whether a row with an identifier is shown before the relation is joined and not after. -/
def loses (r : Repository) (ts : Tables) (acts : List Act) (id : Int) : Bool :=
  (r.shownIds ts acts).any (id ∈ ·) &&
    !(r.shownIds ts (acts ++ [.query (.join link)])).any (id ∈ ·)

def titled (entries : List String) : Repository :=
  linked Demo.user [("users.role_id", "roles.id")] entries []

def roled (entries : List String) : Repository :=
  linked Demo.role [("roles.id", "users.role_id")] entries []

theorem shownIds_roled (entries : List String) :
    (roled entries).shownIds Demo.tables [] = some [1, 2] := by
  have hsound : (roled entries).Sound := sound_define {} _ [] [] false (by decide +kernel)
    (by decide +kernel) (by decide +kernel) (by decide +kernel) nofun nofun
  obtain ⟨s, hs, hready, hdb⟩ := start_ready hsound (.ofTables Demo.tables)
  have hempty : Select.TestsBase (roled entries).model.table [] := nofun
  have hfetch := Select.fetch_new Demo.schema s.database.current hsound.distinct hempty
  obtain ⟨t, hall, -, -⟩ := all_ok (serves_of_ready hsound hready) hfetch
  rw [hdb] at hall
  unfold shownIds reached?
  rw [hs]
  change (match (roled entries).all s with | .ok rows _ => _ | .error _ _ => _) = _
  rw [hall]
  rfl

def otherRoles : List Act :=
  [.call (.join "user_pictures" "users.role_id" "!=" "roles.id" (.ok .inner)),
    .call (.select ["users.id", "roles.title"]), onlyUser 1,
    .query (.restrict "user_pictures.id" "=" (.int 1))]

/-- A record is lost where its picture is trashed, where a test or the condition of a join is of
the table that is joined then, where a table is empty that is named beside the joins, where an
output ends the statement or is made of all rows, and where the result fails. -/
theorem records_lost :
    pictured.loses Demo.tables [onlyUser 3] 3 = true ∧
    (titled []).loses Demo.tables
      [onlyUser 3, .query (.restrict "roles.title" "=" (.text "admin"))] 3 = true ∧
    (titled []).loses Demo.tables otherRoles 1 = true ∧
    (titled ["notes.slug"]).loses (Demo.tables.modifyRows "notes" fun _ => []) [onlyUser 3] 3 =
      true ∧
    (roled ["1 FROM roles WHERE 0/*"]).loses Demo.tables [] 1 = true ∧
    (roled ["count(*)"]).loses Demo.tables [] 2 = true ∧
    (titled ["roles.title AS name"]).loses Demo.tables [onlyUser 3] 3 = true := by
  have hended : (roled ["1 FROM roles WHERE 0/*"]).shownIds Demo.tables
      ([] ++ [.query (.join link)]) = some [] := by decide +kernel
  have hcounted : (roled ["count(*)"]).shownIds Demo.tables ([] ++ [.query (.join link)]) =
      some [1] := by decide +kernel
  refine ⟨by decide +kernel, by decide +kernel, by decide +kernel, by decide +kernel, ?_, ?_,
    by decide +kernel⟩
  · unfold loses
    rw [shownIds_roled, hended]
    rfl
  · unfold loses
    rw [shownIds_roled, hcounted]
    rfl

end Repository

end Winnow
