import Winnow.Demo.Models
import Winnow.Proofs.CallReferences
import Winnow.Proofs.TextProofRules
import Winnow.Proofs.ListedColumns

namespace Winnow

variable {cat : Catalog} {q q' : Select} {call : Call}

/-- Whether a query knows the column that a reference names. -/
def Select.Finds (q : Select) (reference : String) : Prop := ∃ c, q.findColumn reference = .ok c

instance (q : Select) (reference : String) : Decidable (q.Finds reference) :=
  match h : q.findColumn reference with
  | .ok c => isTrue ⟨c, h⟩
  | .error _ => isFalse fun ⟨_, hc⟩ => by cases h.symm.trans hc

/-- A relation whose hops, guards and entries are on columns that a query knows. -/
structure Catalog.Suits (cat : Catalog) (q : Select) (rel : Relation) : Prop where
  hops : ∀ hop ∈ cat.hops rel, q.Finds hop.fromColumn ∧ q.Finds hop.toColumn
  guards : ∀ hop ∈ cat.hops rel, ∀ table ∈ [hop.fromTable, hop.toTable], table ∈ rel.softDelete →
    q.Finds (table ++ "." ++ cat.softDeleteColumn)
  entries : ∀ entry ∈ rel.entries, ∀ column ∈ Select.entryColumn? entry, q.Finds column

/-- A catalog that names no column but those that a query knows. A relation without a hop may name
any. -/
structure Catalog.Agrees (cat : Catalog) (q : Select) : Prop where
  granted : ∀ use column, cat.Grants use column → q.Finds column
  searchable : ∀ column ∈ cat.searchable, q.Finds (cat.book.qualify column)
  visible : ∀ entry ∈ cat.visible, ∀ column ∈ Select.entryColumn? entry, q.Finds column
  relations : ∀ name rel, cat.book.relation? name = some rel → cat.hops rel ≠ [] → cat.Suits q rel

namespace Select

theorem Finds.congr {reference : String} (h : q.Finds reference) (hs : q'.schema = q.schema)
    (hb : q'.base = q.base) : q'.Finds reference := by
  obtain ⟨schema, base, outputs, source, clauses, orders⟩ := q
  obtain ⟨schema', base', outputs', source', clauses', orders'⟩ := q'
  obtain rfl : schema' = schema := hs
  obtain rfl : base' = base := hb
  exact h

theorem call_of_step (h : q.step call = .ok q') : QueryTarget.call call q = .ok () q' := by
  simp only [QueryTarget.call, h]

theorem call_of_step_error {e : Failure} (h : q.step call = .error e) :
    QueryTarget.call call q = .error e q := by
  simp only [QueryTarget.call, h]

theorem frame_of_step (h : q.step call = .ok q') : q'.schema = q.schema ∧ q'.base = q.base := by
  cases call with
  | filter | orFilter | filterNot | filterIn | filterNotIn | filterNull | filterNotNull | select
  | orderBy =>
    obtain ⟨found, -, rfl⟩ := ok_of_map h
    exact ⟨rfl, rfl⟩
  | filterBetween | filterNotBetween =>
    obtain ⟨bounds, -, h⟩ := ok_of_bind h
    obtain ⟨c, -, h⟩ := ok_of_bind h
    cases h
    exact ⟨rfl, rfl⟩
  | join table first operator second joinKind =>
    obtain ⟨t, -, h⟩ := ok_of_bind h
    obtain ⟨comparison, -, h⟩ := ok_of_bind h
    obtain ⟨left, -, h⟩ := ok_of_bind h
    obtain ⟨right, -, h⟩ := ok_of_bind h
    cases joinKind with
    | error v => cases h
    | ok kind =>
      cases h
      exact ⟨rfl, rfl⟩

def Admits (q : Select) (call : Call) : Prop :=
  ∀ q' : Select, q'.schema = q.schema → q'.base = q.base → ∃ next, q'.step call = .ok next

theorem admits_of_adds {column : String} (hf : q.Finds column)
    (h : ∀ ref, ∃ test, Call.Adds column ref call test) : q.Admits call := by
  intro q' hs hb
  obtain ⟨c, hc⟩ := hf.congr hs hb
  obtain ⟨test, htest⟩ := h c
  exact ⟨_, step_of_adds hc htest⟩

theorem admits_orFilter {column v : String} (hf : q.Finds column) :
    q.Admits (.orFilter column "like" (.text v)) := by
  intro q' hs hb
  obtain ⟨c, hc⟩ := hf.congr hs hb
  simp only [step, findTest_text hc Predicate.ofText?_operators.2.2.1]
  exact ⟨_, rfl⟩

theorem admits_orderBy {column direction : String} (hf : q.Finds column) :
    q.Admits (.orderBy column direction) := by
  intro q' hs hb
  obtain ⟨c, hc⟩ := hf.congr hs hb
  simp only [step, hc]
  exact ⟨_, rfl⟩

theorem admits_select {entries : List String}
    (h : ∀ entry ∈ entries, ∀ column ∈ entryColumn? entry, q.Finds column) :
    q.Admits (.select entries) := by
  intro q' hs hb
  obtain ⟨outputs, ho⟩ := findOutputs_ok_iff.mpr
    fun entry he column hc => (h entry he column hc).congr hs hb
  simp only [step, ho]
  exact ⟨_, rfl⟩

theorem findTable_of_finds {table column : String} (hd : '.' ∉ table.toList)
    (h : q.Finds (table ++ "." ++ column)) : ∃ t, q.findTable table = .ok t := by
  obtain ⟨c, hc⟩ := h
  have htable := q.table_of_isOf hd (isOf_append table column)
  unfold findColumn at hc
  generalize q.tableAndColumn (table ++ "." ++ column) = named at hc htable
  obtain ⟨t, ht, -⟩ := ok_of_bind hc
  exact ⟨t, htable ▸ ht⟩

theorem admits_join {hop : Hop} {kind : JoinKind} (hd : '.' ∉ hop.toTable.toList)
    (hf : q.Finds hop.fromColumn) (ht : q.Finds hop.toColumn) : q.Admits (hop.call kind) := by
  intro q' hs hb
  obtain ⟨t, htable⟩ := findTable_of_finds hd (ht.congr hs hb)
  obtain ⟨left, hleft⟩ := hf.congr hs hb
  obtain ⟨right, hright⟩ := ht.congr hs hb
  unfold Hop.call
  simp only [step, htable, hleft, hright, findComparison, Predicate.ofText?_operators.1]
  exact ⟨_, rfl⟩

end Select

theorem no_dot_of_halves {text table column : String} (h : halves '.' text = some (table, column)) :
    '.' ∉ table.toList := by
  unfold halves at h
  split at h
  next a as b bs hcut =>
    obtain ⟨rfl, -⟩ := Prod.mk.inj (Option.some.inj h)
    rw [String.toList_ofList]
    exact (eq_of_cutList hcut).2
  next => cases h

theorem Hop.no_dot_of_ofPair? {pair : String × String} {hop : Hop} (h : ofPair? pair = some hop) :
    '.' ∉ hop.toTable.toList := by
  unfold ofPair? at h
  split at h
  next hto =>
    cases h
    exact no_dot_of_halves hto
  next => cases h

theorem Catalog.no_dot_of_mem_hops {rel : Relation} {hop : Hop} (h : hop ∈ cat.hops rel) :
    '.' ∉ hop.toTable.toList := by
  have hall : ∀ hop ∈ rel.chain.filterMap Hop.ofPair?, '.' ∉ hop.toTable.toList := by
    intro hop hm
    obtain ⟨pair, -, hp⟩ := List.mem_filterMap.mp hm
    exact Hop.no_dot_of_ofPair? hp
  unfold Catalog.hops Route.rebase at h
  split at h
  next => cases h
  next first rest hs =>
    rw [hs] at hall
    rcases List.mem_cons.mp h with rfl | hm
    · exact hall first (by simp)
    · exact hall hop (by simp [hm])

namespace Desk

/-- An open session on the schema of a query, with nothing selected that the query does not know.
-/
structure Fits (cat : Catalog) (q : Select) (d : Desk Select) : Prop where
  schema : d.session.query.schema = q.schema
  base : d.session.query.base = q.base
  isOpen : d.session.isOpen = true
  memory : cat.book.Reaches d.memory
  selected : ∀ entry ∈ d.session.joins.selected, ∀ column ∈ Select.entryColumn? entry,
    q.Finds column

def Sure {α : Type} (cat : Catalog) (q : Select) (step : Build Select α) : Prop :=
  Ends (Fits cat q) step (fun _ => Fits cat q) fun _ => False

theorem sure_issue (h : q.Admits call) : Sure cat q (issue call) := by
  intro d hd
  obtain ⟨q', hq⟩ := h _ hd.schema hd.base
  obtain ⟨hs, hb⟩ := Select.frame_of_step hq
  rw [issue_of_ok (Select.call_of_step hq)]
  exact ⟨hs.trans hd.schema, hb.trans hd.base, hd.isOpen, hd.memory, hd.selected⟩

theorem sure_steps : Steps (Sure cat q) where
  pure _ := Ends.pure fun _ h => h
  bind := Ends.bind
  note _ _ h := ⟨h.schema, h.base, h.isOpen, h.memory, h.selected⟩
  enter := by
    intro d hd
    have ho := hd.isOpen
    simp only [enter, onSession, Session.enter, ho, ↓reduceIte]
    exact ⟨hd.schema, hd.base, rfl, hd.memory, hd.selected⟩

theorem sure_rules : Rules cat (Sure cat q) where
  toSteps := sure_steps
  column {α use given next} hn := by
    intro d h
    obtain ⟨m, notes, hm, he⟩ := column_eq h.memory use given
    rw [bind_of_ok he]
    exact hn _ ⟨h.schema, h.base, h.isOpen, hm, h.selected⟩

theorem sure_joinRules : JoinRules (Sure cat q) q.Admits where
  toSteps := sure_steps
  joins h d hd := h d.session.joins d hd
  change hf d hd := by
    refine ⟨hd.schema, hd.base, hd.isOpen, hd.memory, ?_⟩
    rw [hf]
    exact hd.selected
  issue := sure_issue

theorem sure_joinHops {rel : Relation} (suits : cat.Suits q rel) (kind : JoinKind) :
    Sure cat q (joinHops cat rel kind true (cat.hops rel)) := by
  refine sure_joinRules.joinHops (fun hop hm => ?_) fun hop hm table ht hside => ?_
  · obtain ⟨hfrom, hto⟩ := suits.hops hop hm
    exact Select.admits_join (Catalog.no_dot_of_mem_hops hm) hfrom hto
  · exact Select.admits_of_adds (suits.guards hop hm table hside ht) fun ref => ⟨_, .null⟩

theorem fits_selectEntries {entries : List String} {d : Desk Select} (hd : Fits cat q d)
    (hknown : ∀ entry ∈ (chosen cat entries d.session.joins).selected,
      ∀ column ∈ Select.entryColumn? entry, q.Finds column) :
    ∃ d', selectEntries cat entries d = .ok () d' ∧ Fits cat q d' ∧
      d'.session.joins = chosen cat entries d.session.joins := by
  obtain ⟨d₀, hs, hm, he⟩ := selectEntries_eq cat entries d
  have hfits : Fits cat q (d₀.withJoins (chosen cat entries d.session.joins)) := by
    refine ⟨?_, ?_, ?_, hm ▸ hd.memory, hknown⟩
    · change d₀.session.query.schema = q.schema
      rw [hs]
      exact hd.schema
    · change d₀.session.query.base = q.base
      rw [hs]
      exact hd.base
    · change d₀.session.isOpen = true
      rw [hs]
      exact hd.isOpen
  rw [he]
  by_cases hn : (chosen cat entries d.session.joins).selected.isEmpty
  · simp only [hn, ↓reduceIte]
    exact ⟨_, rfl, hfits, rfl⟩
  · simp only [hn, Bool.false_eq_true, ↓reduceIte]
    obtain ⟨q', hq⟩ := Select.admits_select hknown _ hfits.schema hfits.base
    obtain ⟨hschema, hbase⟩ := Select.frame_of_step hq
    refine ⟨_, issue_of_ok (Select.call_of_step hq), ?_, rfl⟩
    exact ⟨hschema.trans hfits.schema, hbase.trans hfits.base, hfits.isOpen, hfits.memory, hknown⟩

theorem sure_selectEntries (agrees : cat.Agrees q) {rel : Relation} (suits : cat.Suits q rel) :
    Sure cat q (selectEntries cat (rel.entries.map normalizeEntry)) := by
  intro d hd
  have hknown : ∀ entry ∈ (chosen cat (rel.entries.map normalizeEntry) d.session.joins).selected,
      ∀ column ∈ Select.entryColumn? entry, q.Finds column := by
    intro entry hentry
    rcases mem_of_mem_chosen hentry with h | h | h
    · exact hd.selected entry h
    · exact agrees.visible entry h
    · obtain ⟨source, hsource, rfl⟩ := List.mem_map.mp h
      rw [Select.entryColumn?_normalizeEntry]
      exact suits.entries source hsource
  obtain ⟨d', hok, hfits, -⟩ := fits_selectEntries hd hknown
  rw [hok]
  exact hfits

theorem sure_join (agrees : cat.Agrees q) (name : RelationName) :
    Sure cat q (join cat (.named name)) := by
  have hroute : Ends (Fits cat q) (route cat (.named name))
      (fun r d => r = cat.book.route (.named name) ∧ Fits cat q d) fun _ => False := by
    intro d hd
    exact ⟨RelationBook.consultName_answer hd.memory.faithful name, hd.schema, hd.base, hd.isOpen,
      hd.memory.consultName name, hd.selected⟩
  -- a relation without a hop is not joined, so it does not matter what its entries name
  have hsuits : ∀ rel r, cat.book.relationOf? (.named name) = some rel →
      r = cat.book.route (.named name) → r.hops ≠ [] → r.hops = cat.hops rel ∧ cat.Suits q rel := by
    rintro rel r known rfl hne
    have hhops := Catalog.hops_of_relationOf? known
    exact ⟨hhops, agrees.relations name rel known (hhops ▸ hne)⟩
  refine sure_joinRules.join (· = cat.book.route (.named name)) ?_ ?_ ?_
  · intro α next hnext
    exact hroute.bind fun r d ⟨hr, hd⟩ => hnext r hr d hd
  · intro rel r known hr hne
    exact sure_selectEntries agrees (hsuits rel r known hr hne).2
  · intro rel r known hr hne
    obtain ⟨hhops, suits⟩ := hsuits rel r known hr hne
    rw [hhops]
    exact sure_joinHops suits _

theorem sure_permits (agrees : cat.Agrees q) (hs : cat.separator ≠ "") {use : Use}
    {sends : String → Call → Prop}
    (hsends : ∀ column call, q.Finds column → sends column call → q.Admits call) :
    Permits cat (Sure cat q) use sends where
  scan limit raw := by
    obtain ⟨segments, hscan⟩ := Segment.scan_ok hs limit raw
    rw [hscan]
    exact sure_rules.pure segments
  call hc hsent := by
    have hfinds := agrees.granted _ _ (Catalog.columnOf?_some hc).1
    exact sure_issue (hsends _ _ hfinds hsent)
  join _ _ := sure_join agrees _

end Desk

/-- Whether an action works a text off or joins relations by their names. -/
def Action.IsNamed : Action → Prop
  | join ref => ∃ name, ref = .named name
  | joins refs => ∀ ref ∈ refs, ∃ name, ref = .named name
  | reset => False
  | _ => True

namespace Desk

theorem sure_perform (agrees : cat.Agrees q) (hs : cat.separator ≠ "") {make : Nat → Select}
    {action : Action} (named : action.IsNamed) : Sure cat q (action.perform cat make) := by
  have hrules : Rules cat (Sure cat q) := sure_rules
  cases action with
  | filter raw limit =>
    have hpermits : Permits cat (Sure cat q) .filter fun s c =>
        ∀ ref, ∃ test, Call.Adds s ref c test :=
      sure_permits agrees hs fun column call hf h => Select.admits_of_adds hf h
    exact Ends.bind (hrules.filter hpermits raw limit) fun _ => hrules.pure ()
  | sort raw limit =>
    have hpermits : Permits cat (Sure cat q) .sort fun s c =>
        ∃ direction : Direction, c = .orderBy s direction.name := by
      refine sure_permits agrees hs ?_
      rintro column call hf ⟨direction, rfl⟩
      exact Select.admits_orderBy hf
    exact Ends.bind (hrules.sort hpermits raw limit) fun _ => hrules.pure ()
  | search term =>
    refine hrules.search fun s call hc => sure_issue ?_
    have hfinds : ∀ column ∈ cat.searchable.map cat.book.qualify, q.Finds column := by
      intro column hm
      obtain ⟨name, hn, rfl⟩ := List.mem_map.mp hm
      exact agrees.searchable name hn
    unfold searchCalls at hc
    split at hc
    next => cases hc
    next first others hm =>
      rw [hm] at hfinds
      rcases List.mem_cons.mp hc with rfl | hc
      · exact Select.admits_of_adds (hfinds first (by simp)) fun ref =>
          ⟨_, .compare (by decide) Predicate.ofText?_operators.2.2.1⟩
      · obtain ⟨other, ho, rfl⟩ := List.mem_map.mp hc
        exact Select.admits_orFilter (hfinds other (by simp [ho]))
  | join ref =>
    obtain ⟨name, rfl⟩ := named
    exact sure_join agrees name
  | joins refs =>
    refine hrules.joinAll fun ref hr => ?_
    obtain ⟨name, rfl⟩ := named ref hr
    exact sure_join agrees name
  | reset => exact named.elim

theorem fits_run (agrees : cat.Agrees q) (hs : cat.separator ≠ "") {make : Nat → Select}
    {actions : List Action} (named : ∀ action ∈ actions, action.IsNamed) {d : Desk Select}
    (hd : Fits cat q d) : Fits cat q (run cat make actions d) := by
  unfold run
  induction actions generalizing d with
  | nil => exact hd
  | cons action actions ih =>
    obtain ⟨haction, hrest⟩ := List.forall_mem_cons.mp named
    have hsure : Sure cat q (action.perform cat make) := sure_perform agrees hs haction
    obtain ⟨u, d', hok, hfits⟩ := hsure.ok_of_false hd
    have hafter : after (action.perform cat make) d = d' := by
      unfold after
      rw [hok]
    rw [← hafter] at hfits
    exact ih hrest hfits

/-- Where a catalog agrees with the query of an open session, and so does what the session
selected, every text and every name of a relation is worked off without a failure, whatever came
before. -/
theorem texts_never_fail (hs : cat.separator ≠ "") {d : Desk Select}
    (agrees : cat.Agrees d.session.query) (isOpen : d.session.isOpen = true)
    (memory : cat.book.Reaches d.memory)
    (selected : ∀ entry ∈ d.session.joins.selected, ∀ column ∈ Select.entryColumn? entry,
      d.session.query.Finds column)
    (make : Nat → Select) (actions : List Action) {action : Action}
    (named : ∀ a ∈ action :: actions, a.IsNamed) :
    succeeds (action.perform cat make) (run cat make actions d) = true := by
  obtain ⟨haction, hactions⟩ := List.forall_mem_cons.mp named
  have hrun : Fits cat d.session.query (run cat make actions d) :=
    fits_run agrees hs hactions ⟨rfl, rfl, isOpen, memory, selected⟩
  have hsure : Sure cat d.session.query (action.perform cat make) :=
    sure_perform agrees hs haction
  obtain ⟨u, d', hok, -⟩ := hsure.ok_of_false hrun
  unfold succeeds
  rw [hok]

def shownUsers : Catalog where
  book := ⟨"users",
    [("profile", { chain := [("users.pic_id", "user_pictures.id")]
                   entries := ["user_pictures.path AS photo"], filterable := ["photo"]
                   softDelete := ["user_pictures"] }),
      ("role", { chain := [("users.role_id", "roles.id")], entries := ["roles.title AS role"]
                 sortable := ["title"] })]⟩
  filterable := ["id"]
  sortable := ["id"]
  searchable := ["name", "email"]
  visible := ["users.id", "users.name"]

def allUsers : Select := .new Demo.schema Demo.user.table

theorem agrees_shownUsers : shownUsers.Agrees allUsers where
  granted := by
    intro use column h
    cases h with
    | @direct c hc =>
      have hall : ∀ use, ∀ c ∈ shownUsers.allowed use,
          allUsers.Finds (shownUsers.book.qualify c) := by
        intro use
        cases use <;> decide +kernel
      exact hall use c hc
    | @related name field rel last hr hf hlast =>
      have hall : ∀ p ∈ shownUsers.book.relations, ∀ field ∈ p.2.filterable ++ p.2.sortable,
          ∀ last ∈ (shownUsers.hops p.2).getLast?, allUsers.Finds
            (((AliasMap.ofEntries p.2.entries).lookup field).getD
              (last.toTable ++ "." ++ field)) := by decide +kernel
      obtain ⟨s, hs⟩ := RelationBook.mem_of_relation? hr
      refine hall _ hs field ?_ last hlast
      cases use with
      | filter => exact List.mem_append_left _ hf
      | sort => exact List.mem_append_right _ hf
  searchable := by decide +kernel
  visible := by decide +kernel
  relations := by
    have hall : ∀ p ∈ shownUsers.book.relations,
        (∀ hop ∈ shownUsers.hops p.2,
          allUsers.Finds hop.fromColumn ∧ allUsers.Finds hop.toColumn) ∧
        (∀ hop ∈ shownUsers.hops p.2, ∀ table ∈ [hop.fromTable, hop.toTable],
          table ∈ p.2.softDelete → allUsers.Finds (table ++ "." ++ shownUsers.softDeleteColumn)) ∧
        ∀ entry ∈ p.2.entries, ∀ column ∈ Select.entryColumn? entry, allUsers.Finds column := by
      decide +kernel
    intro name rel h _
    obtain ⟨s, hs⟩ := RelationBook.mem_of_relation? h
    obtain ⟨hhops, hguards, hentries⟩ := hall _ hs
    exact ⟨hhops, hguards, hentries⟩

theorem texts_never_fail_users :
    shownUsers.Agrees allUsers ∧ shownUsers.separator ≠ "" ∧ shownUsers.book.Reaches {} ∧
      succeeds
        (Action.perform shownUsers (fun _ => allUsers) (.sort (some "role.title:desc@x:y") none))
        (run shownUsers (fun _ => allUsers) [.filter photoText none, .search (some "a_%")]
          (opened (fun _ => allUsers) {})) = true := by
  have hm : shownUsers.book.Reaches {} := .empty
  have hs : shownUsers.separator ≠ "" := by decide
  refine ⟨agrees_shownUsers, hs, hm, ?_⟩
  refine texts_never_fail hs agrees_shownUsers rfl hm (fun entry he => ?_) (fun _ => allUsers)
    [.filter photoText none, .search (some "a_%")] fun a ha => ?_
  · cases he
  · simp only [List.mem_cons, List.not_mem_nil, or_false] at ha
    rcases ha with rfl | rfl | rfl <;> exact trivial

def oddUsers : TableDef :=
  ⟨"users", [Demo.key "id" .int, Demo.filled "x as y" .str, Demo.optional "role_id" .int]⟩

def oddCatalog : Catalog where
  book := ⟨"users", [("role", { chain := [("users.role_id", "roles.id")] })]⟩
  visible := ["users.id", "users.x as y"]

def allOddUsers : Select := .new [oddUsers, Demo.role.table] oddUsers

def roleByName : Action := .join (.named (.text "role"))

def noSuchColumn : Action :=
  .join (.inline { chain := [("users.role_id", "roles.id")], entries := ["roles.name"] })

def afterNoSuchColumn : Desk Select :=
  run shownUsers (fun _ => allUsers) [noSuchColumn] (opened (fun _ => allUsers) {})

/-- A visible column that the query knows by its name, but not as a select entry, makes joining
fail. So does an entry that the session kept from a relation given on the spot. -/
theorem joining_fails :
    ((∀ use column, oddCatalog.Grants use column → allOddUsers.Finds column) ∧
      (∀ column ∈ oddCatalog.searchable, allOddUsers.Finds (oddCatalog.book.qualify column)) ∧
      (∀ column ∈ oddCatalog.visible, allOddUsers.Finds column) ∧
      (∀ name rel, oddCatalog.book.relation? name = some rel → oddCatalog.Suits allOddUsers rel) ∧
      succeeds (roleByName.perform oddCatalog fun _ => allOddUsers)
        (opened (fun _ => allOddUsers) {}) = false) ∧
    shownUsers.Agrees allUsers ∧ afterNoSuchColumn.session.query.schema = allUsers.schema ∧
      afterNoSuchColumn.session.query.base = allUsers.base ∧
      afterNoSuchColumn.session.isOpen = true ∧
      succeeds (roleByName.perform shownUsers fun _ => allUsers) afterNoSuchColumn = false := by
  have hall : ∀ p ∈ oddCatalog.book.relations, p.2.filterable = [] ∧ p.2.sortable = [] ∧
      (∀ hop ∈ oddCatalog.hops p.2,
        allOddUsers.Finds hop.fromColumn ∧ allOddUsers.Finds hop.toColumn) ∧
      p.2.softDelete = [] ∧ p.2.entries = [] := by decide +kernel
  refine ⟨⟨?_, by decide +kernel, by decide +kernel, ?_, by decide +kernel⟩, agrees_shownUsers,
    by decide +kernel, by decide +kernel, by decide +kernel, by decide +kernel⟩
  · intro use column h
    cases h with
    | direct hc => cases use <;> cases hc
    | @related name field rel last hr hf hlast =>
      obtain ⟨s, hs⟩ := RelationBook.mem_of_relation? hr
      obtain ⟨hfilter, hsort, -⟩ : rel.filterable = [] ∧ rel.sortable = [] ∧ _ := hall _ hs
      cases use with
      | filter => simp [Relation.offered, hfilter] at hf
      | sort => simp [Relation.offered, hsort] at hf
  · intro name rel h
    obtain ⟨s, hs⟩ := RelationBook.mem_of_relation? h
    obtain ⟨-, -, hhops, hsoft, hentries⟩ : _ ∧ _ ∧ _ ∧ rel.softDelete = [] ∧ rel.entries = [] :=
      hall _ hs
    exact ⟨hhops, by simp [hsoft], by simp [hentries]⟩

end Desk

end Winnow
