import Winnow.Proofs.SchemaAgreement
import Winnow.Proofs.RepeatedJoin

open Relation (ReflTransGen)

namespace Winnow

variable {cat : Catalog} {q : Select} {call : Call}

namespace Select

theorem findColumn_congr {p : Select} (hs : p.schema = q.schema) (hb : p.base = q.base)
    (reference : String) : p.findColumn reference = q.findColumn reference := by
  unfold findColumn tableAndColumn findTable
  rw [hs, hb]

theorem findOutputs_congr {p : Select} (hs : p.schema = q.schema) (hb : p.base = q.base)
    (entries : List String) : p.findOutputs entries = q.findOutputs entries := by
  have hexpr : ∀ source, p.findExpr source = q.findExpr source := by
    intro source
    unfold findExpr
    rw [findColumn_congr hs hb]
  induction entries with
  | nil => rfl
  | cons entry entries ih =>
    unfold findOutputs
    rw [ih, findOutput_eq, findOutput_eq, hexpr]

theorem admits_of_step {p p' : Select} (h : p.step call = .ok p') (hs : p.schema = q.schema)
    (hb : p.base = q.base) : q.Admits call := by
  intro next hns hnb
  have hfind := findColumn_congr (hns.trans hs.symm) (hnb.trans hb.symm)
  have houtputs := findOutputs_congr (hns.trans hs.symm) (hnb.trans hb.symm)
  have htable : ∀ name, next.findTable name = p.findTable name := by
    intro name
    unfold findTable
    rw [hns, hs]
  cases call with
  | filter | orFilter | filterNot | filterIn | filterNotIn | filterNull | filterNotNull | select
  | orderBy =>
    obtain ⟨found, hf, -⟩ := ok_of_map h
    simp only [step, findTest, findMember, hfind, houtputs] at hf ⊢
    rw [hf]
    exact ⟨_, rfl⟩
  | filterBetween | filterNotBetween =>
    obtain ⟨⟨low, high⟩, hbounds, h⟩ := ok_of_bind h
    obtain ⟨c, hc, -⟩ := ok_of_bind h
    simp only [step, hfind, hbounds, hc]
    exact ⟨_, rfl⟩
  | join table first operator second joinKind =>
    obtain ⟨t, ht, h⟩ := ok_of_bind h
    obtain ⟨comparison, hcomparison, h⟩ := ok_of_bind h
    obtain ⟨left, hleft, h⟩ := ok_of_bind h
    obtain ⟨right, hright, h⟩ := ok_of_bind h
    simp only [step, htable, hfind, ht, hcomparison, hleft, hright]
    cases joinKind with
    | error v => cases h
    | ok kind => exact ⟨_, rfl⟩

end Select

namespace Desk

variable {rel : Relation} {kind : JoinKind} {first : Bool} {hop : Hop} {hops : List Hop}
variable {T : List String} {table : String}

/-- The query takes the joins of the hops whose table is missing, and the guards that come with
them. -/
def Joinable (cat : Catalog) (q : Select) (rel : Relation) (kind : JoinKind) :
    Bool → List Hop → List String → Prop
  | _, [], _ => True
  | first, hop :: hops, joined =>
    (hop.toTable ∉ joined → q.Admits (hop.call kind) ∧
      ∀ table ∈ guardedBy rel first hop, q.Admits (cat.guardCall table)) ∧
      Joinable cat q rel kind false hops (hop.toTable :: joined)

theorem Joinable.mono {joined joined' : List String} (hs : joined ⊆ joined')
    (h : Joinable cat q rel kind first hops joined) :
    Joinable cat q rel kind first hops joined' := by
  induction hops generalizing first joined joined' with
  | nil => trivial
  | cons hop hops ih =>
    obtain ⟨hone, hrest⟩ := h
    exact ⟨fun hn => hone fun hm => hn (hs hm), ih (List.cons_subset_cons _ hs) hrest⟩

/-- A session on the schema of a query that took the guards of all guarded tables, with no other
tables joined than some. -/
structure Accepted (cat : Catalog) (q : Select) (T : List String) (d : Desk Select) : Prop where
  schema : d.session.query.schema = q.schema
  base : d.session.query.base = q.base
  joined : d.session.joins.joined ⊆ T
  guarded : ∀ table ∈ d.session.joins.guarded, q.Admits (cat.guardCall table)

theorem accepted_enter :
    Ends (Accepted cat q T) enter (fun _ => Accepted cat q T) fun _ => True := by
  intro d h
  unfold enter onSession Session.enter
  by_cases ho : d.session.isOpen
  · simp only [ho, ↓reduceIte]
    exact ⟨h.schema, h.base, h.joined, h.guarded⟩
  · simp only [ho, Bool.false_eq_true, ↓reduceIte]

theorem accepted_issue : Ends (Accepted cat q T) (issue call)
    (fun _ d => Accepted cat q T d ∧ q.Admits call) fun _ => True := by
  intro d h
  cases hq : d.session.query.step call with
  | ok q' =>
    obtain ⟨hs, hb⟩ := Select.frame_of_step hq
    rw [issue_of_ok (Select.call_of_step hq)]
    exact ⟨⟨hs.trans h.schema, hb.trans h.base, h.joined, h.guarded⟩,
      Select.admits_of_step hq h.schema h.base⟩
  | error e =>
    rw [issue_of_error (Select.call_of_step_error hq)]
    trivial

theorem accepted_addGuard (ha : q.Admits (cat.guardCall table)) :
    Ends (Accepted cat q T) (do setJoins ((← joins).addGuard table))
      (fun _ => Accepted cat q T) fun _ => True := by
  refine fun d h => ⟨h.schema, h.base, h.joined, fun t ht => ?_⟩
  rcases mem_addNew.mp ht with rfl | ht
  · exact ha
  · exact h.guarded t ht

theorem accepted_addTable : Ends (Accepted cat q T) (do setJoins ((← joins).addTable table))
    (fun _ => Accepted cat q (table :: T)) fun _ => True :=
  fun _ h => ⟨h.schema, h.base,
    fun _ ht => List.mem_cons.mpr ((mem_addNew.mp ht).imp_right fun ht => h.joined ht), h.guarded⟩

theorem accepted_guard : Ends (Accepted cat q T) (guard cat table)
    (fun _ d => Accepted cat q T d ∧ q.Admits (cat.guardCall table)) fun _ => True := by
  apply ends_readJoins
  intro j
  by_cases hg : table ∈ j.guarded
  · simp only [hg, not_true_eq_false, ↓reduceIte]
    exact Ends.pure fun d ⟨h, hj⟩ => ⟨h, h.guarded table (hj ▸ hg)⟩
  · simp only [hg, not_false_eq_true, ↓reduceIte]
    refine fun d hd => (?_ : Ends (Accepted cat q T) _ _ _) d hd.1
    exact accepted_enter.bind fun _ => accepted_issue.bind fun _ => Ends.assume fun ha =>
      (accepted_addGuard ha).weaken fun _ _ h => ⟨h, ha⟩

theorem accepted_guardAll (tables : List String) : Ends (Accepted cat q T) (guardAll cat tables)
    (fun _ d => Accepted cat q T d ∧ ∀ table ∈ tables, q.Admits (cat.guardCall table))
    fun _ => True := by
  induction tables with
  | nil => exact Ends.pure fun _ h => ⟨h, by simp⟩
  | cons table tables ih =>
    exact accepted_guard.bind fun _ => Ends.assume fun ha =>
      ih.weaken fun _ _ ⟨h, hrest⟩ => ⟨h, List.forall_mem_cons.mpr ⟨ha, hrest⟩⟩

theorem accepted_joinHop : Ends (Accepted cat q T) (joinHop cat rel kind first hop)
    (fun _ d => Accepted cat q (hop.toTable :: T) d ∧
      (hop.toTable ∉ T → q.Admits (hop.call kind) ∧
        ∀ table ∈ guardedBy rel first hop, q.Admits (cat.guardCall table)))
    fun _ => True := by
  apply ends_readJoins
  intro j
  by_cases hj : hop.toTable ∈ j.joined
  · simp only [hj, not_true_eq_false, ↓reduceIte]
    refine Ends.pure fun d ⟨h, he⟩ => ?_
    have hm : hop.toTable ∈ T := h.joined (he ▸ hj)
    exact ⟨⟨h.schema, h.base, List.subset_cons_of_subset _ h.joined, h.guarded⟩,
      fun hn => absurd hm hn⟩
  · simp only [hj, not_false_eq_true, ↓reduceIte]
    refine fun d hd => (?_ : Ends (Accepted cat q T) _ _ _) d hd.1
    refine accepted_issue.bind fun _ => Ends.assume fun ha => ?_
    have hrest : Ends (Accepted cat q T) (do
        (do setJoins ((← joins).addTable hop.toTable) : Build Select Unit)
        note (.joined hop.toTable hop.fromColumn hop.toColumn kind)
        guardAll cat (guardedBy rel first hop)) (fun _ d => Accepted cat q (hop.toTable :: T) d ∧
          ∀ table ∈ guardedBy rel first hop, q.Admits (cat.guardCall table)) fun _ => True := by
      refine accepted_addTable.bind fun _ => Ends.bind ?_ fun _ => accepted_guardAll _
      exact fun _ h => ⟨h.schema, h.base, h.joined, h.guarded⟩
    simp only [bind_assoc] at hrest
    exact hrest.weaken fun _ _ ⟨h, hg⟩ => ⟨h, fun _ => ⟨ha, hg⟩⟩

theorem joinable_of_joinHops : Ends (Accepted cat q T) (joinHops cat rel kind first hops)
    (fun _ _ => Joinable cat q rel kind first hops T) fun _ => True := by
  induction hops generalizing first T with
  | nil => exact Ends.pure fun _ _ => trivial
  | cons hop hops ih =>
    exact accepted_joinHop.bind fun _ => Ends.assume fun hone =>
      ih.weaken fun _ _ hrest => ⟨hone, hrest⟩

theorem joinHops_of_joinable {d : Desk Select} (hd : Fits cat q d)
    (h : Joinable cat q rel kind first hops d.session.joins.joined) :
    succeeds (joinHops cat rel kind first hops) d = true := by
  induction hops generalizing first d with
  | nil => rfl
  | cons hop hops ih =>
    obtain ⟨hone, hrest⟩ := h
    obtain ⟨d', hok, hd'⟩ : ∃ d', joinHop cat rel kind first hop d = .ok () d' ∧ Fits cat q d' := by
      by_cases hj : hop.toTable ∈ d.session.joins.joined
      · exact ⟨d, joinHop_of_joined first hj, hd⟩
      · obtain ⟨hcall, hguards⟩ := hone hj
        obtain ⟨_, d', hok, hd'⟩ := (sure_joinRules.joinHop hcall hguards).ok_of_false hd
        exact ⟨d', hok, hd'⟩
    obtain ⟨-, hjoins⟩ :=
      (ChangesJoins.joinHop cat rel kind first hop d.session.joins).of_ok rfl hok
    have hgrown : hop.toTable :: d.session.joins.joined ⊆ d'.session.joins.joined := by
      rw [hjoins]
      exact fun t ht => mem_joinedHop_joined.mpr (List.mem_cons.mp ht)
    exact (succeeds_bind_of_ok hok).trans (ih hd' (hrest.mono hgrown))

/-- An open session on the schema of a query. -/
structure Faces (cat : Catalog) (q : Select) (d : Desk Select) : Prop where
  schema : d.session.query.schema = q.schema
  base : d.session.query.base = q.base
  isOpen : d.session.isOpen = true
  memory : cat.book.Reaches d.memory

theorem Faces.aside {d d' : Desk Select} (h : Faces cat q d) (hs : d'.session = d.session)
    (hm : cat.book.Reaches d'.memory) : Faces cat q d' :=
  ⟨hs ▸ h.schema, hs ▸ h.base, hs ▸ h.isOpen, hm⟩

theorem Faces.entered {d : Desk Select} (h : Faces cat q d) : Faces cat q d.entered :=
  ⟨h.schema, h.base, rfl, h.memory⟩

theorem faces_opened {m : Memory} (hm : cat.book.Reaches m) :
    Faces cat q (opened (fun _ => q) m) := ⟨rfl, rfl, rfl, hm⟩

theorem Faces.sends {f : Joins → Joins} {d d' : Desk Select} (h : Faces cat q d)
    (hs : Sends call f d d') : Faces cat q d' := by
  have hopen : d'.session.isOpen = true := by
    unfold Session.isOpen
    rw [hs.building.2]
    rfl
  have hmemory : cat.book.Reaches d'.memory := hs.memory ▸ h.memory
  cases hs with
  | @taken next _ hc =>
    simp only [QueryTarget.call] at hc
    split at hc
    next q' hq =>
      cases hc
      obtain ⟨hschema, hbase⟩ := Select.frame_of_step hq
      exact ⟨hschema.trans h.schema, hbase.trans h.base, hopen, hmemory⟩
    next => cases hc
  | @refused _ next _ hc =>
    simp only [QueryTarget.call] at hc
    split at hc
    next => cases hc
    next =>
      cases hc
      exact ⟨h.schema, h.base, hopen, hmemory⟩

theorem Faces.move {asks : Asks} {d d' : Desk Select} (hm : Move cat asks d d')
    (h : Faces cat q d) : Faces cat q d' := by
  cases hm with
  | aside hs hk => exact h.aside hs (hk h.memory)
  | enter => exact h.entered
  | call _ hs => exact h.sends hs
  | relation _ _ hr =>
    cases hr with
    | @select j _ _ hs =>
      have hchosen : Faces cat q (d.withJoins j) := ⟨h.schema, h.base, h.isOpen, h.memory⟩
      exact hchosen.sends hs
    | join _ hs => exact h.sends hs
    | guard _ _ _ _ _ hs => exact h.sends hs

theorem known_of_selectEntries {entries : List String} {d d' : Desk Select} (hd : Faces cat q d)
    (h : selectEntries cat entries d = .ok () d') :
    Faces cat q d' ∧ d'.session.joins = chosen cat entries d.session.joins ∧
      ∀ entry ∈ d'.session.joins.selected, ∀ column ∈ Select.entryColumn? entry,
        q.Finds column := by
  obtain ⟨d₀, hs, hm, he⟩ := selectEntries_eq cat entries d
  have hfaces : Faces cat q (d₀.withJoins (chosen cat entries d.session.joins)) := by
    refine ⟨?_, ?_, ?_, hm ▸ hd.memory⟩
    · change d₀.session.query.schema = q.schema
      exact hs ▸ hd.schema
    · change d₀.session.query.base = q.base
      exact hs ▸ hd.base
    · change d₀.session.isOpen = true
      exact hs ▸ hd.isOpen
  rw [he] at h
  split at h
  next hn =>
    cases h
    refine ⟨hfaces, rfl, fun entry hentry => ?_⟩
    change entry ∈ (chosen cat entries d.session.joins).selected at hentry
    rw [List.isEmpty_iff.mp hn] at hentry
    cases hentry
  next =>
    cases hq : (d₀.withJoins (chosen cat entries d.session.joins)).session.query.step
        (.select (chosen cat entries d.session.joins).selected) with
    | error e =>
      rw [issue_of_error (Select.call_of_step_error hq)] at h
      cases h
    | ok q' =>
      rw [issue_of_ok (Select.call_of_step hq)] at h
      cases h
      obtain ⟨hschema, hbase⟩ := Select.frame_of_step hq
      obtain ⟨outputs, ho, -⟩ := ok_of_map hq
      refine ⟨⟨hschema.trans hfaces.schema, hbase.trans hfaces.base, hfaces.isOpen,
        hfaces.memory⟩, rfl, fun entry hentry column hc => ?_⟩
      obtain ⟨c, hfound⟩ := Select.findOutputs_ok_iff.mp ⟨outputs, ho⟩ entry hentry column hc
      exact Select.Finds.congr ⟨c, hfound⟩ hfaces.schema.symm hfaces.base.symm

/-- A relation that has something left to do is joined by selecting its entries and joining its
hops. -/
theorem succeeds_applyRelation {ref : RelationRef} {d d₁ : Desk Select}
    (known : cat.book.relationOf? ref = some rel)
    (hr : route cat ref d = .ok (cat.book.route ref) d₁) (hopen : d₁.session.isOpen = true)
    (hskip : ¬((cat.book.route ref).hops.isEmpty || isSettled d₁.session.joins
      (cat.book.route ref) (rel.entries.map normalizeEntry)) = true) :
    succeeds (applyRelation cat ref) d = true ↔ ∃ d₂,
      selectEntries cat (rel.entries.map normalizeEntry) d₁.entered = .ok () d₂ ∧
        succeeds (joinHops cat rel (cat.book.route ref).joinKind true (cat.book.route ref).hops)
          d₂ = true := by
  have heq : succeeds (applyRelation cat ref) d = succeeds (do
      selectEntries cat (rel.entries.map normalizeEntry)
      joinHops cat rel (cat.book.route ref).joinKind true (cat.book.route ref).hops
      return cat.book.route ref : Build Select Route) d₁.entered := by
    unfold succeeds
    rw [applyRelation_eq hr, known]
    simp only [hskip, Bool.false_eq_true, ↓reduceIte]
    rw [bind_of_ok (enter_of_open hopen)]
  rw [heq]
  constructor
  · intro h
    obtain ⟨_, d₂, hselect, h, -⟩ := of_succeeds_bind h
    obtain ⟨_, d₃, hjoin, -⟩ := of_succeeds_bind h
    refine ⟨d₂, hselect, ?_⟩
    unfold succeeds
    rw [hjoin]
  · rintro ⟨d₂, hselect, h⟩
    obtain ⟨_, hjoin⟩ := exists_of_succeeds h
    rw [succeeds_bind_of_ok hselect, succeeds_bind_of_ok hjoin]
    rfl

theorem faces_run {actions : List Action} (hr : Action.reset ∉ actions) {m : Memory}
    (hm : cat.book.Reaches m) :
    Faces cat q (run cat (fun _ => q) actions (opened (fun _ => q) m)) := by
  have hmoves : ReflTransGen (Move cat anyAsks) (opened (fun _ => q) m)
      (run cat (fun _ => q) actions (opened (fun _ => q) m)) ∧ _ := moves_run _ hr hm
  exact kept_of_moves (I := Faces cat q) (fun _ _ hm h => h.move hm) hmoves.1 (faces_opened hm)

theorem joinable_of_fresh {ref : RelationRef} {d₁ : Desk Select}
    (known : cat.book.relationOf? ref = some rel)
    (hr : route cat ref (opened (fun _ => q) {}) = .ok (cat.book.route ref) d₁)
    (hn : (cat.book.route ref).hops ≠ [])
    (h : succeeds (applyRelation cat ref) (opened (fun _ => q) {}) = true) :
    (∀ entry, entry ∈ cat.visible ∨ entry ∈ rel.entries.map normalizeEntry →
      ∀ column ∈ Select.entryColumn? entry, q.Finds column) ∧
      Joinable cat q rel (cat.book.route ref).joinKind true (cat.book.route ref).hops [] := by
  obtain ⟨-, hs, hm⟩ := route_of_ok .empty hr
  have hfaces : Faces cat q d₁ := (faces_opened .empty).aside hs hm
  have hnew : d₁.session.joins = {} := hs ▸ rfl
  have hskip : ¬((cat.book.route ref).hops.isEmpty || isSettled d₁.session.joins
      (cat.book.route ref) (rel.entries.map normalizeEntry)) = true := by
    simp [hn, isSettled, hnew]
  obtain ⟨d₂, hselect, hjoin⟩ := (succeeds_applyRelation known hr hfaces.isOpen hskip).mp h
  obtain ⟨hfaces₂, hjoins, hknown⟩ := known_of_selectEntries hfaces.entered hselect
  replace hjoins : d₂.session.joins = chosen cat (rel.entries.map normalizeEntry) {} :=
    hnew ▸ hjoins
  constructor
  · intro entry he
    refine hknown entry ?_
    rw [hjoins]
    simp only [chosen, List.isEmpty_nil, ↓reduceIte, mem_addEntries]
    exact he.imp_left Or.inr
  · have haccepted : Accepted cat q [] d₂ := by
      refine ⟨hfaces₂.schema, hfaces₂.base, ?_, ?_⟩
      · rw [hjoins, chosen_joined]
        exact List.Subset.refl _
      · rw [hjoins, chosen_guarded]
        intro table ht
        cases ht
    obtain ⟨_, _, -, hjoinable⟩ := joinable_of_joinHops.of_succeeds haccepted hjoin
    exact hjoinable

theorem succeeds_of_skipped {ref : RelationRef} {d d₁ : Desk Select}
    (hr : route cat ref d = .ok (cat.book.route ref) d₁)
    (hskip : ∀ rel, cat.book.relationOf? ref = some rel →
      ((cat.book.route ref).hops.isEmpty || isSettled d₁.session.joins (cat.book.route ref)
        (rel.entries.map normalizeEntry)) = true) :
    succeeds (applyRelation cat ref) d = true := by
  unfold succeeds
  rw [applyRelation_eq hr]
  cases known : cat.book.relationOf? ref with
  | none => rfl
  | some rel => simp only [hskip rel known, ↓reduceIte]

/-- Where a new session can join a relation, it depends on what is selected already alone whether
another one can. -/
theorem joined_iff_known {d : Desk Select} (hd : Faces cat q d)
    (hlisted : ∀ entry, entry ∈ cat.visible ∨ entry ∈ rel.entries.map normalizeEntry →
      ∀ column ∈ Select.entryColumn? entry, q.Finds column)
    (hjoinable : Joinable cat q rel kind true hops []) :
    (∃ d', selectEntries cat (rel.entries.map normalizeEntry) d.entered = .ok () d' ∧
        succeeds (joinHops cat rel kind true hops) d' = true) ↔
      ∀ entry ∈ d.session.joins.selected, ∀ column ∈ Select.entryColumn? entry,
        q.Finds column := by
  constructor
  · rintro ⟨d', hselect, -⟩ entry he
    obtain ⟨-, hjoins, hknown⟩ := known_of_selectEntries hd.entered hselect
    refine hknown entry ?_
    rw [hjoins]
    exact mem_chosen he
  · intro hleft
    have hfits : Fits cat q d.entered := ⟨hd.schema, hd.base, rfl, hd.memory, hleft⟩
    have hknown : ∀ entry ∈ (chosen cat (rel.entries.map normalizeEntry) d.session.joins).selected,
        ∀ column ∈ Select.entryColumn? entry, q.Finds column :=
      fun entry he => (mem_of_mem_chosen he).elim (hleft entry) (hlisted entry)
    obtain ⟨d', hselect, hfits', -⟩ := fits_selectEntries hfits hknown
    exact ⟨d', hselect, joinHops_of_joinable hfits' (hjoinable.mono (List.nil_subset _))⟩

/-- Whatever a session did, and whatever failed, a relation that a new session can join is joined,
unless an entry is left in the selection that names a column which the query does not know. -/
theorem applied_iff_known {ref : RelationRef} {actions : List Action} (hr : Action.reset ∉ actions)
    {m : Memory} (hm : cat.book.Reaches m)
    (hfresh : succeeds (applyRelation cat ref) (opened (fun _ => q) {}) = true) :
    let d := run cat (fun _ => q) actions (opened (fun _ => q) m)
    succeeds (applyRelation cat ref) d = true ↔ (cat.book.route ref).hops = [] ∨
      (∃ rel, cat.book.relationOf? ref = some rel ∧
        isSettled d.session.joins (cat.book.route ref) (rel.entries.map normalizeEntry) = true) ∨
      ∀ entry ∈ d.session.joins.selected, ∀ column ∈ Select.entryColumn? entry,
        q.Finds column := by
  intro d
  have hd : Faces cat q d := faces_run hr hm
  have hroute := hfresh
  unfold applyRelation at hroute
  obtain ⟨r, d₀, hr₀, -⟩ := of_succeeds_bind hroute
  obtain ⟨rfl, -⟩ := route_of_ok .empty hr₀
  obtain ⟨d₁, hr₁, hs⟩ := route_again hr₀ hd.memory
  have hd₁ : Faces cat q d₁ := hd.aside hs (route_of_ok hd.memory hr₁).2.2
  rw [← hs]
  by_cases hn : (cat.book.route ref).hops = []
  · exact ⟨fun _ => Or.inl hn, fun _ => succeeds_of_skipped hr₁ (by simp [hn])⟩
  obtain ⟨rel, known⟩ : ∃ rel, cat.book.relationOf? ref = some rel :=
    Option.ne_none_iff_exists'.mp fun h => hn (hops_of_unknown h)
  simp only [known, hn, false_or, Option.some.injEq, exists_eq_left']
  by_cases hsettled : isSettled d₁.session.joins (cat.book.route ref)
      (rel.entries.map normalizeEntry) = true
  · refine ⟨fun _ => Or.inl hsettled, fun _ => succeeds_of_skipped hr₁ fun other ho => ?_⟩
    cases known.symm.trans ho
    simp [hsettled]
  · obtain ⟨hlisted, hjoinable⟩ := joinable_of_fresh known hr₀ hn hfresh
    rw [succeeds_applyRelation known hr₁ hd₁.isOpen (by simp [hn, hsettled]),
      joined_iff_known hd₁ hlisted hjoinable]
    exact (or_iff_right hsettled).symm

/-- Users with two relations that name columns which the roles do not have, one in its entries and
one in its chain. -/
def misnamedUsers : Catalog where
  book := ⟨"users",
    [("named", { chain := [("users.role_id", "roles.id")], entries := ["roles.name"] }),
      ("linked", { chain := [("users.role_id", "roles.uid")], entries := ["roles.id AS uid"] }),
      ("role", { chain := [("users.role_id", "roles.id")], entries := ["roles.title AS role"] })]⟩
  visible := ["users.id", "users.name"]

def afterJoins (names : List String) : Desk Select :=
  run misnamedUsers (fun _ => allUsers) (names.map fun name => .join (.named (.text name)))
    (opened (fun _ => allUsers) {})

def roleRef : RelationRef := .named (.text "role")

theorem applied_iff_known_linked :
    misnamedUsers.book.Reaches {} ∧ Action.reset ∉ [Action.join (.named (.text "linked"))] ∧
      succeeds (applyRelation misnamedUsers roleRef) (opened (fun _ => allUsers) {}) = true ∧
      succeeds (applyRelation misnamedUsers (.named (.text "linked")))
        (opened (fun _ => allUsers) {}) = false ∧
      succeeds (applyRelation misnamedUsers roleRef) (afterJoins ["linked"]) = true := by
  have hm : misnamedUsers.book.Reaches {} := .empty
  have hr : Action.reset ∉ [Action.join (.named (.text "linked"))] := by simp
  have hfresh : succeeds (applyRelation misnamedUsers roleRef) (opened (fun _ => allUsers) {}) =
      true := by decide +kernel
  refine ⟨hm, hr, hfresh, by decide +kernel, (applied_iff_known hr hm hfresh).mpr ?_⟩
  exact Or.inr (Or.inr (by decide +kernel))

def missesColumn {α : Type} (step : Build Select α) (d : Desk Select) : Bool :=
  match step d with
  | .error (.unknownColumn _ _) _ => true
  | _ => false

/-- The roles can be joined by a new session, but not by one that failed to select a column that
they do not have. -/
theorem role_refused :
    succeeds (applyRelation misnamedUsers roleRef) (opened (fun _ => allUsers) {}) = true ∧
      missesColumn (applyRelation misnamedUsers (.named (.text "named")))
        (opened (fun _ => allUsers) {}) = true ∧
      missesColumn (applyRelation misnamedUsers roleRef) (afterJoins ["named"]) = true := by
  decide +kernel

end Desk

end Winnow
