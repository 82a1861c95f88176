import Winnow.Proofs.KeptConstraints
import Winnow.Proofs.AliasDeclarations

namespace Winnow

theorem normalizeEntry_normalizeEntry (entry : String) :
    normalizeEntry (normalizeEntry entry) = normalizeEntry entry := by
  rw [normalizeEntry, entryParts_normalizeEntry]
  rfl

/-- An alias that one entry of a relation alone declares, for a plain column. -/
structure Relation.Declares (rel : Relation) (entry source name : String) : Prop where
  mem : entry ∈ rel.entries
  read : sourceAndAlias? entry = some (source, name)
  only : ∀ other ∈ rel.entries, (declared? name other).isSome → other = entry
  plain : Select.isReference source.toList = true

namespace Select

/-- The query shows a column under the alias of a relation, and no other entry of the relation
gives anything under it. -/
structure Shows (q : Select) (rel : Relation) (name : String) (c : ColumnRef) : Prop where
  output : ⟨.column c, some name⟩ ∈ q.outputs
  only : ∀ entry ∈ rel.entries, ∀ o, q.findOutput (normalizeEntry entry) = .ok o →
    o.label = some name → o = ⟨.column c, some name⟩

variable {q : Select} {entries : List String} {outputs : List Output}

theorem mem_of_findOutputs (h : q.findOutputs entries = .ok outputs) {entry : String}
    (he : entry ∈ entries) : ∃ o ∈ outputs, q.findOutput entry = .ok o := by
  induction entries generalizing outputs with
  | nil => cases he
  | cons first entries ih =>
    obtain ⟨o, ho, h⟩ := ok_of_bind h
    obtain ⟨others, hothers, h⟩ := ok_of_bind h
    cases h
    rcases List.mem_cons.mp he with rfl | he
    · exact ⟨o, by simp, ho⟩
    · obtain ⟨o', hmem, ho'⟩ := ih hothers he
      exact ⟨o', by simp [hmem], ho'⟩

theorem trim_of_isReference {cs : List Char} (h : isReference cs = true) : trim cs = cs := by
  obtain ⟨hl, ht⟩ := ends_of_no_blank fun _ hc => not_blank_of_isReference h hc
  exact trim_of_ends hl ht

theorem label_of_findOutput {entry : String} {o : Output}
    (h : q.findOutput (normalizeEntry entry) = .ok o) :
    o.label = (sourceAndAlias? entry).map (·.2) := by
  rw [findOutput_eq, sourceAndAlias?_normalizeEntry] at h
  obtain ⟨_, -, rfl⟩ := ok_of_map h
  rfl

end Select

namespace Relation.Declares

variable {rel : Relation} {entry source name : String} (h : rel.Declares entry source name)
include h

theorem declared : declared? name entry = some source := by
  rw [declared?, h.read, Option.bind_some, if_pos rfl]

theorem lookup : (AliasMap.ofEntries rel.entries).lookup name = some source := by
  rw [AliasMap.lookup_ofEntries]
  cases hfound : rel.entries.reverse.findSome? (declared? name) with
  | none =>
    have hnone := List.findSome?_eq_none_iff.mp hfound entry (List.mem_reverse.mpr h.mem)
    cases hnone.symm.trans h.declared
  | some other =>
    obtain ⟨e, he, hother⟩ := List.exists_of_findSome?_eq_some hfound
    obtain rfl := h.only e (List.mem_reverse.mp he) (by simp [hother])
    exact hother.symm.trans h.declared

theorem findOutput (q : Select) :
    q.findOutput (normalizeEntry entry) = (q.findColumn source).map (⟨.column ·, some name⟩) := by
  have hsource : entrySource (normalizeEntry entry) = source := by
    rw [entrySource, sourceAndAlias?_normalizeEntry, h.read]
    rfl
  have htrim := Select.trim_of_isReference h.plain
  rw [Select.findOutput_eq, sourceAndAlias?_normalizeEntry, h.read, hsource, Select.findExpr, htrim,
    if_pos h.plain, stripped, htrim, String.ofList_toList]
  cases q.findColumn source <;> rfl

/-- A query in step with its session shows the column of the source, once the entry is selected. -/
theorem shows {cat : Catalog} {F : Desk.Fact} {d : Desk Select} (hd : Desk.InStep cat F d)
    (hs : normalizeEntry entry ∈ d.session.joins.selected) :
    ∃ c, d.session.query.findColumn source = .ok c ∧ d.session.query.Shows rel name c := by
  obtain ⟨o, ho, hfound⟩ := Select.mem_of_findOutputs hd.outputs hs
  have houtput := hfound
  rw [h.findOutput] at houtput
  obtain ⟨c, hc, rfl⟩ := ok_of_map houtput
  refine ⟨c, hc, ho, fun other hother o' ho' hlabel => ?_⟩
  have hdeclared : (declared? name other).isSome := by
    rw [Select.label_of_findOutput ho'] at hlabel
    obtain ⟨pair, hpair, hname⟩ := Option.map_eq_some_iff.mp hlabel
    rw [declared?, hpair, Option.bind_some, if_pos hname]
    rfl
  obtain rfl := h.only other hother hdeclared
  exact Except.ok.inj (ho'.symm.trans hfound)

end Relation.Declares

namespace Desk

variable {cat : Catalog} {schema : Schema} {base : TableDef}

/-- A session that was opened and worked on by actions that all succeeded. -/
inductive Worked (cat : Catalog) (make : Nat → Select) : Desk Select → Prop
  | opened {m : Memory} : cat.book.Reaches m → Worked cat make (opened make m)
  | perform {action : Action} {d d' : Desk Select} : Worked cat make d →
      action.perform cat make d = .ok () d' → Worked cat make d'

def unknown : Fact := fun _ _ => True

theorem lasts_unknown : unknown.Lasts :=
  ⟨fun _ _ => trivial, fun _ _ => trivial, fun _ _ _ => trivial⟩

/-- The predicates of a filter text are tested when it was worked off, and the relations that they
need are selected from. -/
theorem brings_filter (raw : Option String) (limit : Option Int) :
    Brings cat unknown (filter cat raw limit) fun selected q => unknown selected q ∧
      ∀ x ∈ cat.compiled .filter Predicate.compile raw limit, Carried cat Tested x selected q :=
  brings_workText (fun _ lasts _ _ _ h => brings_sendPredicate lasts h) lasts_tested lasts_unknown
    raw limit

theorem brings_sort (raw : Option String) (limit : Option Int) :
    Brings cat unknown (sort cat raw limit) fun selected q => unknown selected q ∧
      ∀ x ∈ cat.compiled .sort Order.compile raw limit, Carried cat Ordered x selected q :=
  brings_workText (fun _ lasts _ _ o _ => brings_sendOrder lasts o) lasts_ordered lasts_unknown
    raw limit

theorem brings_perform (action : Action) :
    Brings cat unknown (action.perform cat fun _ => Select.new schema base) unknown := by
  have rules : Rules cat fun step => Brings cat unknown step unknown := brings_rules
  cases action with
  | filter raw limit =>
    exact ((brings_filter raw limit).weaken fun _ _ h => h.1).bind fun _ => rules.pure ()
  | sort raw limit =>
    exact ((brings_sort raw limit).weaken fun _ _ h => h.1).bind fun _ => rules.pure ()
  | search term =>
    refine rules.search fun s c hc => brings_issue ?_ fun _ _ _ _ h => h
    rintro entries rfl
    simp only [searchCalls] at hc
    split at hc <;> simp at hc
  | join ref => exact (brings_join lasts_unknown ref).weaken fun _ _ h => h.1
  | joins refs =>
    exact rules.joinAll fun ref _ => (brings_join lasts_unknown ref).weaken fun _ _ h => h.1
  | reset =>
    intro ⟨⟨phase, query, joins, made⟩, memory, reads, notes⟩ h
    cases phase with
    | executed => trivial
    | fresh | building => exact ⟨h.memory, rfl, trivial⟩

theorem Worked.inStep {d : Desk Select} (h : Worked cat (fun _ => Select.new schema base) d) :
    InStep cat unknown d := by
  induction h with
  | opened hm => exact ⟨hm, rfl, trivial⟩
  | @perform action d d' _ hok ih =>
    have hperform : Brings cat unknown (action.perform cat fun _ => Select.new schema base)
      unknown := brings_perform action
    have hafter := hperform d ih
    rwa [hok] at hafter

theorem compiled_of_declares {α : Type} {use : Use} {compile : String → String → Option α}
    {given relation entry source name : String} {rel : Relation} {raw : Option String}
    {limit : Option Int} {c : Condition} {a : α} (h : rel.Declares entry source name)
    (ho : cat.Offers use given relation name rel) (hc : c ∈ cat.conditions use raw limit)
    (hgiven : c.column = given) (ha : compile source c.expression = some a) :
    (⟨source, .aliased, some relation⟩, a) ∈ cat.compiled use compile raw limit := by
  subst hgiven
  refine List.mem_filterMap.mpr ⟨c, hc, ?_⟩
  rw [Catalog.compiled?, ho.columnOf? h.lookup, Option.bind_some, ha, Option.map_some]

theorem shows_of_carried {α : Type} {Done : α → Fact} {relation entry source name : String}
    {rel : Relation} {found : FoundColumn} {a : α} {F : Fact} {d : Desk Select}
    (h : rel.Declares entry source name) (known : cat.book.relation? (.text relation) = some rel)
    (hhops : cat.hops rel ≠ []) (hr : found.relation = some relation) (hd : InStep cat F d)
    (hx : Carried cat Done (found, a) d.session.joins.selected d.session.query) :
    ∃ ref, d.session.query.findColumn source = .ok ref ∧ d.session.query.Shows rel name ref :=
  h.shows hd (hx.2 relation hr rel known hhops (List.mem_map_of_mem h.mem))

/-- Bringing an entry into its normal form once is enough, and changes neither its source nor its
alias. So a query labels the column that the source names. Where an alias is declared once, as a
field of its relation it stands for its source, and a condition on it is one on its source. In a
session that worked so far, a filter on the alias of a relation tests, and an order by it orders
by, the column that the query shows under this label. -/
theorem constrained_as_labelled :
    (∀ entry : String, normalizeEntry (normalizeEntry entry) = normalizeEntry entry ∧
      sourceAndAlias? (normalizeEntry entry) = sourceAndAlias? entry) ∧
    ∀ (cat : Catalog) (rel : Relation) (given relation entry source name : String),
      rel.Declares entry source name →
      (∀ q : Select, q.findOutput (normalizeEntry entry) =
        (q.findColumn source).map (⟨.column ·, some name⟩)) ∧
      (cat.book.relation? (.text relation) = some rel → cat.hops rel ≠ [] →
        cat.book.fieldOf? relation name = some ⟨source, .aliased, some relation⟩) ∧
      (∀ use, cat.Offers use given relation name rel →
        cat.columnOf? use given = some ⟨source, .aliased, some relation⟩) ∧
      ∀ (schema : Schema) (base : TableDef) (d d' : Desk Select) (raw : Option String)
        (limit : Option Int), Worked cat (fun _ => Select.new schema base) d →
        (∀ predicates, cat.Offers .filter given relation name rel →
          filter cat raw limit d = .ok predicates d' →
          ∀ c ∈ cat.conditions .filter raw limit, c.column = given →
          ∀ p, Predicate.compile source c.expression = some p →
            ∃ ref, d'.session.query.Shows rel name ref ∧
              ∀ t ∈ p.tests ref, ⟨t, []⟩ ∈ d'.session.query.clauses) ∧
        ∀ orders, cat.Offers .sort given relation name rel →
          sort cat raw limit d = .ok orders d' →
          ∀ c ∈ cat.conditions .sort raw limit, c.column = given →
          ∀ o, Order.compile source c.expression = some o →
            ∃ ref, d'.session.query.Shows rel name ref ∧
              (ref, o.direction) ∈ d'.session.query.orders := by
  refine ⟨fun entry => ⟨normalizeEntry_normalizeEntry entry, sourceAndAlias?_normalizeEntry entry⟩,
    fun cat rel given relation entry source name h => ⟨h.findOutput, fun known hhops =>
      Catalog.fieldOf?_of_lookup known hhops h.lookup, fun use ho => ho.columnOf? h.lookup,
      fun schema base d d' raw limit hd => ⟨?_, ?_⟩⟩⟩
  · intro predicates ho hok c hc hgiven p hp
    have hbrings := brings_filter raw limit d hd.inStep
    rw [hok] at hbrings
    have hx := hbrings.fact.2 _ (compiled_of_declares h ho hc hgiven hp)
    obtain ⟨ref, href, hshows⟩ := shows_of_carried h ho.known ho.hops rfl hbrings hx
    refine ⟨ref, hshows, hx.1 ref ?_⟩
    rwa [(Predicate.compiles_of_compile hp).2]
  · intro orders ho hok c hc hgiven o hcompile
    have hbrings := brings_sort raw limit d hd.inStep
    rw [hok] at hbrings
    have hx := hbrings.fact.2 _ (compiled_of_declares h ho hc hgiven hcompile)
    obtain ⟨ref, href, hshows⟩ := shows_of_carried h ho.known ho.hops rfl hbrings hx
    refine ⟨ref, hshows, hx.1 ref ?_⟩
    rwa [(Order.compiles_of_compile hcompile).2]

def pictured : Relation where
  chain := [("users.pic_id", "user_pictures.id")]
  entries := ["user_pictures.id", " user_pictures.path\tAs  photo"]
  filterable := ["photo"]

def picturedUsers : Catalog where
  book := ⟨"users", [("profile", pictured)]⟩
  visible := ["users.id", "users.name"]

theorem constrained_as_labelled_photo :
    ∃ predicates d', filter picturedUsers photoText none (opened (fun _ => allUsers) {}) =
        .ok predicates d' ∧
      ∃ ref, d'.session.query.Shows pictured "photo" ref ∧
        ⟨.compare ref .eq (.text "x"), []⟩ ∈ d'.session.query.clauses := by
  have hdeclares :
      pictured.Declares " user_pictures.path\tAs  photo" "user_pictures.path" "photo" :=
    ⟨by decide, by decide +kernel, by decide +kernel, by decide +kernel⟩
  have hoffers : picturedUsers.Offers .filter "profile.photo" "profile" "photo" pictured :=
    ⟨by decide, by decide +kernel, rfl, by decide +kernel⟩
  have hworked : Worked picturedUsers (fun _ => allUsers) (opened (fun _ => allUsers) {}) :=
    .opened .empty
  have hcondition : (⟨"profile.photo", "equal_x"⟩ : Condition) ∈
      picturedUsers.conditions .filter photoText none := by decide +kernel
  have hcompile : Predicate.compile "user_pictures.path" "equal_x" =
      some ⟨"user_pictures.path", .equal, ["x"]⟩ := by decide +kernel
  have hsucceeds : succeeds (filter picturedUsers photoText none)
      (opened (fun _ => allUsers) {}) = true := by decide +kernel
  obtain ⟨predicates, hok⟩ := exists_of_succeeds hsucceeds
  obtain ⟨-, -, -, hsessions⟩ := constrained_as_labelled.2 picturedUsers pictured "profile.photo"
    "profile" _ _ _ hdeclares
  obtain ⟨ref, hshows, htests⟩ := (hsessions _ _ _ _ _ _ hworked).1 _ hoffers hok _ hcondition rfl _
    hcompile
  exact ⟨_, _, hok, ref, hshows, htests _ (by simp [Predicate.tests])⟩

end Desk

end Winnow
