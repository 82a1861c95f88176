import Winnow.Proofs.TextReach
import Winnow.Proofs.EntryNormalForm
import Winnow.Proofs.JoinedOnce

namespace Winnow

/-- Whether a reference names a column of a table. -/
def IsOf (table reference : String) : Prop := (table ++ ".").toList <+: reference.toList

instance (table reference : String) : Decidable (IsOf table reference) :=
  inferInstanceAs (Decidable ((table ++ ".").toList <+: reference.toList))

theorem isOf_append (table column : String) : IsOf table (table ++ "." ++ column) :=
  ⟨column.toList, by rw [← String.toList_append]⟩

theorem Select.table_of_isOf {table reference : String} (q : Select) (hd : '.' ∉ table.toList)
    (h : IsOf table reference) : (q.tableAndColumn reference).1 = table := by
  obtain ⟨column, hc⟩ := h
  have hlist : reference.toList = table.toList ++ '.' :: column := by
    rw [← hc]
    simp
  unfold tableAndColumn cut
  rw [hlist, cutList_append hd]
  simp

theorem RelationBook.mem_of_relation? {book : RelationBook} {name : RelationName} {rel : Relation}
    (h : book.relation? name = some rel) : ∃ s, (s, rel) ∈ book.relations := by
  cases name with
  | text s =>
    obtain ⟨before, rest, hs, -⟩ := List.lookup_eq_some_iff.mp h
    exact ⟨s, by simp [hs]⟩
  | _ => cases h

/-- The columns that a call refers to; what it selects is not counted. -/
def Call.references : Call → List String
  | filter column _ _ | orFilter column _ _ | filterNot column _ _ => [column]
  | filterIn column _ | filterNotIn column _ => [column]
  | filterNull column | filterNotNull column => [column]
  | filterBetween column _ | filterNotBetween column _ => [column]
  | join _ first _ second _ => [first, second]
  | select _ => []
  | orderBy column _ => [column]

namespace Catalog

variable {cat : Catalog} {tables : List String} {rel : Relation}

/-- A column of the base table or of one of some tables. -/
def Reads (cat : Catalog) (tables : List String) (reference : String) : Prop :=
  ∃ table ∈ cat.book.base :: tables, IsOf table reference

instance (tables : List String) (reference : String) : Decidable (cat.Reads tables reference) :=
  inferInstanceAs (Decidable (∃ table ∈ cat.book.base :: tables, IsOf table reference))

/-- The tables that the hops of a relation lead to. -/
def reached (cat : Catalog) (rel : Relation) : List String := (cat.hops rel).map (·.toTable)

/-- Whether every hop starts at one of some tables or where a hop before it leads to. -/
def Chained (tables : List String) : List Hop → Bool
  | [] => true
  | hop :: hops => hop.fromTable ∈ tables && Chained (tables ++ [hop.toTable]) hops

theorem fromTable_of_chained {before rest : List Hop} {hop : Hop}
    (h : Chained tables (before ++ hop :: rest) = true) :
    hop.fromTable ∈ tables ++ before.map (·.toTable) := by
  induction before generalizing tables with
  | nil =>
    simp only [List.nil_append, Chained, Bool.and_eq_true, decide_eq_true_eq] at h
    simpa using h.1
  | cons first before ih =>
    simp only [List.cons_append, Chained, Bool.and_eq_true] at h
    simpa using ih h.2

/-- A relation whose hops start where the hops before them have been, and whose entries and aliases
name the base table or tables of its hops. -/
structure Closed (cat : Catalog) (rel : Relation) : Prop where
  hops : Chained [cat.book.base] (cat.hops rel) = true
  entries : ∀ entry ∈ rel.entries, ∀ column ∈ Select.entryColumn? entry,
    cat.Reads (cat.reached rel) column
  aliases : ∀ use, ∀ field ∈ rel.offered use,
    ∀ source ∈ (AliasMap.ofEntries rel.entries).lookup field, cat.Reads (cat.reached rel) source

/-- A catalog that names no table but those that its relations join. -/
structure WellScoped (cat : Catalog) : Prop where
  listed : ∀ use, ∀ column ∈ cat.allowed use, '.' ∈ column.toList → IsOf cat.book.base column
  searchable : ∀ column ∈ cat.searchable, '.' ∈ column.toList → IsOf cat.book.base column
  visible : ∀ entry ∈ cat.visible, ∀ column ∈ Select.entryColumn? entry, IsOf cat.book.base column
  relations : ∀ name rel, cat.book.relation? name = some rel → cat.Closed rel

theorem Reads.mono {more : List String} {reference : String} (h : cat.Reads tables reference)
    (hs : tables ⊆ more) : cat.Reads more reference := by
  obtain ⟨table, hm, ho⟩ := h
  exact ⟨table, List.cons_subset_cons _ hs hm, ho⟩

theorem reads_base {reference : String} (h : IsOf cat.book.base reference) :
    cat.Reads tables reference :=
  ⟨_, by simp, h⟩

theorem reads_qualify {column : String} (h : '.' ∈ column.toList → IsOf cat.book.base column) :
    cat.Reads tables (cat.book.qualify column) := by
  unfold RelationBook.qualify
  split
  next hd => exact reads_base (h (by simpa using hd))
  next => exact reads_base (isOf_append _ _)

theorem hops_of_relationOf? {ref : RelationRef} (h : cat.book.relationOf? ref = some rel) :
    (cat.book.route ref).hops = cat.hops rel := by
  cases ref with
  | named name =>
    unfold RelationBook.relationOf? at h
    simp only [RelationBook.route, h]
    rfl
  | inline other =>
    cases h
    rfl
  | unnameable kind => simp [RelationBook.relationOf?] at h

theorem WellScoped.columnOf?_reads (ws : cat.WellScoped) {use : Use} {given : String}
    {found : FoundColumn} (h : cat.columnOf? use given = some found) :
    cat.Reads (cat.tablesOf found) found.column := by
  unfold columnOf? RelationBook.columnOf? at h
  split at h
  next hd =>
    cases h
    exact reads_qualify (ws.listed use given hd)
  next =>
    obtain ⟨⟨name, field⟩, ho, hf⟩ := Option.bind_eq_some_iff.mp h
    obtain ⟨rel, -, hr, hm⟩ := RelationBook.offeredField?_some ho
    obtain ⟨hn, last, hlast, hc⟩ := Catalog.fieldOf?_some hr hf
    have htables : cat.tablesOf found = cat.reached rel := by
      unfold tablesOf
      rw [hn]
      exact congrArg (List.map (·.toTable)) (hops_of_relation? hr)
    rw [htables, hc]
    cases hs : (AliasMap.ofEntries rel.entries).lookup field with
    | some source => exact (ws.relations _ _ hr).aliases use field hm source hs
    | none =>
      have hlast' : last.toTable ∈ cat.reached rel :=
        List.mem_map_of_mem (List.mem_of_getLast? hlast)
      exact ⟨last.toTable, List.mem_cons_of_mem _ hlast', isOf_append _ _⟩

open Desk (joinedTables)

/-- Every call of a log refers to tables that were joined before it, or that it joins. -/
def RefersBack (cat : Catalog) (log : List Sent) : Prop :=
  ∀ early s late, log = early ++ s :: late → ∀ column ∈ s.call.references,
    cat.Reads (joinedTables early ++ s.call.joined?.toList) column

theorem RefersBack.snoc {log : List Sent} {s : Sent} (h : cat.RefersBack log)
    (hs : ∀ column ∈ s.call.references,
      cat.Reads (joinedTables log ++ s.call.joined?.toList) column) :
    cat.RefersBack (log ++ [s]) := by
  intro early t late he
  rcases List.eq_nil_or_concat' late with rfl | ⟨late, u, rfl⟩
  · obtain ⟨rfl, hst⟩ := List.append_inj' he rfl
    cases hst
    exact hs
  · rw [← List.cons_append, ← List.append_assoc] at he
    exact h early t late (List.append_inj' he rfl).1

end Catalog

def Action.refs : Action → List RelationRef
  | join ref => [ref]
  | joins refs => refs
  | _ => []

namespace Desk

variable {Q : Type} [QueryTarget Q] {cat : Catalog} {d d' : Desk (Logged Q)}

def closedAsks (cat : Catalog) : Asks where
  relation ref := ∀ rel, cat.book.relationOf? ref = some rel → cat.Closed rel
  call j c := c.joined? = none ∧ c.selected? = none ∧ ∀ column ∈ c.references,
    cat.Reads j.joined column

theorem references_of_tests {column : String} {c : Call} (h : c.Tests column) :
    c.references = [column] := by
  cases h <;> rfl

theorem selected?_of_tests {column : String} {c : Call} (h : c.Tests column) :
    c.selected? = none := by
  cases h <;> rfl

theorem closed_of_named (ws : cat.WellScoped) (name : RelationName) :
    (closedAsks cat).relation (.named name) :=
  fun rel h => ws.relations name rel h

theorem textAsks_within_closed {α : Type} {use : Use} {compile : String → String → Option α}
    {sent : α → List Call} {conditions : List Condition} (ws : cat.WellScoped)
    (hsent : ∀ column expression a, compile column expression = some a → ∀ c ∈ sent a,
      c.joined? = none ∧ c.selected? = none ∧ c.references = [column]) :
    (textAsks cat use compile sent conditions).Within (closedAsks cat) := by
  constructor
  · rintro ref ⟨c, found, a, relation, happlied, hr, rfl⟩
    exact closed_of_named ws _
  · rintro j call ⟨c, found, a, happlied, hcall, hj⟩
    obtain ⟨hn, hs, hc⟩ := hsent _ _ _ happlied.compiled call hcall
    refine ⟨hn, hs, ?_⟩
    rw [hc]
    intro column hm
    cases List.mem_singleton.mp hm
    exact (ws.columnOf?_reads happlied.resolved).mono hj

theorem closed_of_refs (ws : cat.WellScoped) {action : Action}
    (inline : ∀ rel, .inline rel ∈ action.refs → cat.Closed rel) :
    ∀ ref ∈ action.refs, (closedAsks cat).relation ref := by
  intro ref hm
  cases ref with
  | named name => exact closed_of_named ws name
  | inline rel =>
    intro other ho
    cases ho
    exact inline rel hm
  | unnameable kind =>
    intro rel hr
    cases hr

/-- In a catalog that is well scoped, an action asks only for closed relations and for calls on
tables that are joined. -/
theorem asks_within_closed (ws : cat.WellScoped) {action : Action}
    (inline : ∀ rel, .inline rel ∈ action.refs → cat.Closed rel) :
    (action.asks cat).Within (closedAsks cat) := by
  have hrefs := closed_of_refs ws inline
  cases action with
  | filter raw limit =>
    refine textAsks_within_closed ws fun column expression p hp c hc => ?_
    have ht := Predicate.tests_of_mem_sent hc
    rw [(Predicate.compiles_of_compile hp).2] at ht
    exact ⟨joined?_of_tests ht, selected?_of_tests ht, references_of_tests ht⟩
  | sort raw limit =>
    refine textAsks_within_closed ws fun column expression o ho c hc => ?_
    cases List.mem_singleton.mp hc
    rw [(Order.compiles_of_compile ho).2]
    exact ⟨rfl, rfl, rfl⟩
  | search term =>
    refine ⟨fun _ h => h.elim, ?_⟩
    rintro j c ⟨s, -, hc⟩
    have hread : ∀ column ∈ cat.searchable.map cat.book.qualify, cat.Reads j.joined column := by
      intro column hm
      obtain ⟨name, hn, rfl⟩ := List.mem_map.mp hm
      exact Catalog.reads_qualify (ws.searchable name hn)
    unfold searchCalls at hc
    split at hc
    next => cases hc
    next first others hs =>
      rw [hs] at hread
      rcases List.mem_cons.mp hc with rfl | hc
      · refine ⟨rfl, rfl, fun column hm => ?_⟩
        cases List.mem_singleton.mp hm
        exact hread _ (by simp)
      · obtain ⟨other, ho, rfl⟩ := List.mem_map.mp hc
        refine ⟨rfl, rfl, fun column hm => ?_⟩
        cases List.mem_singleton.mp hm
        exact hread _ (by simp [ho])
  | join ref => exact ⟨fun r hr => hrefs r (List.mem_singleton.mpr hr), fun _ _ h => h.elim⟩
  | joins refs => exact ⟨hrefs, fun _ _ h => h.elim⟩
  | reset => exact ⟨fun _ h => h.elim, fun _ _ h => h.elim⟩

theorem fromTable_of_firstMissing {rel : Relation} (closed : cat.Closed rel) {joined : List String}
    {hop : Hop} (h : firstMissing joined (cat.hops rel) = some hop) :
    hop.fromTable ∈ cat.book.base :: joined := by
  -- the hops before the first missing one are joined, and it starts where one of them leads to
  obtain ⟨-, before, rest, hs, hb⟩ := List.find?_eq_some_iff_append.mp h
  refine List.cons_subset_cons _ ?_ (Catalog.fromTable_of_chained (hs ▸ closed.hops))
  intro table ht
  obtain ⟨other, ho, rfl⟩ := List.mem_map.mp ht
  simpa using hb other ho

theorem Sends.refersBack {c : Call} {f : Joins → Joins} (hs : Sends c f d d')
    (h : cat.RefersBack d.log) (hc : ∀ column ∈ c.references,
      cat.Reads (joinedTables d.log ++ c.joined?.toList) column) : cat.RefersBack d'.log := by
  obtain ⟨taken, hl, -⟩ := hs.log
  rw [hl]
  exact h.snoc hc

theorem refersBack_move (hm : Move cat (closedAsks cat) d d')
    (hj : d.session.joins.joined = joinedTables d.log) (h : cat.RefersBack d.log) :
    cat.RefersBack d'.log := by
  cases hm with
  | aside hs => rwa [Desk.log, hs]
  | enter => exact h
  | call ha hs =>
    refine hs.refersBack h fun column hc => ?_
    rw [← hj]
    exact (ha.2.2 column hc).mono (List.subset_append_left _ _)
  | @relation _ ref rel ha hk hr =>
    have closed := ha rel hk
    rw [Catalog.hops_of_relationOf? hk] at hr
    cases hr with
    | @select j _ _ hs => exact hs.refersBack (d := d.withJoins j) h (by simp [Call.references])
    | @join hop hf hs =>
      refine hs.refersBack h fun column hc => ?_
      rw [← hj]
      rcases List.mem_cons.mp hc with rfl | hc
      · exact ⟨_, List.cons_subset_cons _ (List.subset_append_left _ _)
          (fromTable_of_firstMissing closed hf), isOf_append _ _⟩
      · cases List.mem_singleton.mp hc
        exact ⟨hop.toTable, by simp [Hop.call, Call.joined?], isOf_append _ _⟩
    | @guard before rest hop table hb hjoined _ ht _ hs =>
      refine hs.refersBack h fun column hc => ?_
      rw [← hj]
      cases List.mem_singleton.mp hc
      refine ⟨table, List.cons_subset_cons _ (List.subset_append_left _ _) ?_, isOf_append _ _⟩
      -- what is guarded is the table that the hop leads to, or the one that it starts at
      rcases ht with rfl | ⟨-, rfl⟩
      · exact List.mem_cons_of_mem _ (hjoined (by simp))
      · exact List.cons_subset_cons _ (List.cons_subset.mp hjoined).2
          (Catalog.fromTable_of_chained (hb ▸ closed.hops))

end Desk

end Winnow
