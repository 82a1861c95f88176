import Winnow.Proofs.SchemaAgreement

namespace Winnow

/-- Whether a schema has the column that a reference names; one without a dot is a column of the
base table. -/
def Schema.Knows (schema : Schema) (base reference : String) : Prop :=
  let named := (cut '.' reference).getD (base, reference)
  named.2 ∈ schema.columnNames named.1

instance (schema : Schema) (base reference : String) : Decidable (schema.Knows base reference) :=
  inferInstanceAs (Decidable (_ ∈ _))

/-- The column that a reference names, known or not. -/
def ColumnRef.named (base reference : String) : ColumnRef :=
  let named := (cut '.' reference).getD (base, reference)
  ⟨named.1, named.2⟩

/-- The comparisons, in small letters. -/
def Comparison.texts : List String := ["=", "!=", "<>", ">", ">=", "<", "<=", "like", "not like"]

/-- Whether everything that a call names is known; what is selected as raw text names nothing. -/
def Call.IsKnown (schema : Schema) (base : String) : Call → Prop
  | filter column operator _ | orFilter column operator _ | filterNot column operator _ =>
    lower operator ∈ Comparison.texts ∧ schema.Knows base column
  | filterIn column _ | filterNotIn column _ | filterNull column | filterNotNull column
  | filterBetween column _ | filterNotBetween column _ | orderBy column _ =>
    schema.Knows base column
  | join table first operator second _ =>
    (schema.table? table).isSome ∧ lower operator ∈ Comparison.texts ∧
      schema.Knows base first ∧ schema.Knows base second
  | select entries =>
    ∀ entry ∈ entries, ∀ column ∈ Select.entryColumn? entry, schema.Knows base column

instance (schema : Schema) (base : String) : (c : Call) → Decidable (c.IsKnown schema base)
  | .filter .. | .orFilter .. | .filterNot .. | .join .. => inferInstanceAs (Decidable (_ ∧ _))
  | .filterIn column _ | .filterNotIn column _ | .filterNull column | .filterNotNull column
  | .filterBetween column _ | .filterNotBetween column _ | .orderBy column _ =>
    inferInstanceAs (Decidable (schema.Knows base column))
  | .select entries =>
    inferInstanceAs (Decidable (∀ entry ∈ entries, ∀ column ∈ Select.entryColumn? entry,
      schema.Knows base column))

def Call.isPlain : Call → Bool
  | select _ | orFilter .. => false
  | _ => true

/-- A part of a query. -/
inductive Part where
  | outputs
  | source
  | clauses
  | orders
  deriving DecidableEq, Repr

/-- The part that a call is about. -/
def Call.part : Call → Part
  | select _ => .outputs
  | join .. => .source
  | orderBy .. => .orders
  | _ => .clauses

/-- Whether two queries have a part in common. -/
def Part.Same (q q' : Select) : Part → Prop
  | outputs => q'.outputs = q.outputs
  | source => q'.source = q.source
  | clauses => q'.clauses = q.clauses
  | orders => q'.orders = q.orders

/-- Whether a range has two bounds. -/
def Call.IsBounded : Call → Prop
  | filterBetween _ bounds | filterNotBetween _ bounds => ∃ low high, bounds = .ok [low, high]
  | _ => True

/-- Whether the values of a call are texts or elements of a list, and its join type is one. -/
def Call.IsProper : Call → Prop
  | filter _ _ v | orFilter _ _ v | filterNot _ _ v => ∃ s, v = .text s
  | filterIn _ values | filterNotIn _ values => ∃ vs, values = .ok vs
  | join _ _ _ _ joinKind => ∃ kind, joinKind = .ok kind
  | _ => True

namespace Failure

/-- Whether a call is refused for a table, a column or an operator. -/
def isUnknown : Failure → Bool
  | unknownTable _ | unknownColumn .. | unsupportedOperator _ => true
  | _ => false

/-- What a refusal blames is not there. -/
inductive Blames (schema : Schema) : Failure → Prop
  | table {name : String} : schema.table? name = none → Blames schema (.unknownTable name)
  | column {table column : String} {t : TableDef} : schema.table? table = some t →
      column ∉ t.columnNames → Blames schema (.unknownColumn table column)
  | operator {operator : String} : lower operator ∉ Comparison.texts →
      Blames schema (.unsupportedOperator operator)

theorem Blames.isUnknown {schema : Schema} {e : Failure} (h : e.Blames schema) :
    e.isUnknown = true := by
  cases h <;> rfl

end Failure

/-- Something that succeeds only if `p`. If it fails, it blames what is not there, and then `p`
does not hold; or it fails for another reason, which is possible only if `other`. -/
inductive Judges {α : Type} (schema : Schema) (other : Prop) : Except Failure α → Prop → Prop
  | ok {a : α} {p : Prop} : p → Judges schema other (.ok a) p
  | blames {e : Failure} {p : Prop} : e.Blames schema → ¬p → Judges schema other (.error e) p
  | fails {e : Failure} {p : Prop} : e.isUnknown = false → other → p →
      Judges schema other (.error e) p

namespace Judges

variable {α β : Type} {schema : Schema} {other p r : Prop} {x : Except Failure α}

theorem map {f : α → β} (h : Judges schema other x p) : Judges schema other (x.map f) p := by
  cases h with
  | ok hp => exact .ok hp
  | blames hb hn => exact .blames hb hn
  | fails hu ho hp => exact .fails hu ho hp

theorem bind {f : α → Except Failure β} (h : Judges schema False x p)
    (hf : ∀ a, Judges schema other (f a) r) : Judges schema other (x >>= f) (p ∧ r) := by
  cases h with
  | blames hb hn => exact .blames hb fun hboth => hn hboth.1
  | fails _ himpossible => exact himpossible.elim
  | @ok a _ hp =>
    have hnext := hf a
    change Judges schema other (f a) (p ∧ r)
    generalize f a = y at hnext
    cases hnext with
    | ok hp' => exact .ok ⟨hp, hp'⟩
    | blames hb hn => exact .blames hb fun hboth => hn hboth.2
    | fails hu ho hp' => exact .fails hu ho ⟨hp, hp'⟩

theorem congr (h : Judges schema other x p) (hp : p ↔ r) : Judges schema other x r := by
  rwa [← propext hp]

theorem bind_true {f : α → Except Failure β} (h : Judges schema False x p)
    (hf : ∀ a, Judges schema other (f a) True) : Judges schema other (x >>= f) p :=
  (h.bind hf).congr (and_iff_left trivial)

theorem weaken (h : Judges schema False x p) : Judges schema other x p := by
  cases h with
  | ok hp => exact .ok hp
  | blames hb hn => exact .blames hb hn
  | fails _ himpossible => exact himpossible.elim

end Judges

theorem Comparison.ofText?_isSome_iff (operator : String) :
    (ofText? operator).isSome ↔ lower operator ∈ texts := by
  unfold ofText? ofLower? texts
  split <;> simp_all

namespace Select

variable {q q' : Select} {c : Call}

theorem judges_findTable (q : Select) (name : String) :
    Judges q.schema False (q.findTable name) (q.schema.table? name).isSome := by
  unfold findTable
  cases h : q.schema.table? name with
  | some t => exact .ok rfl
  | none => exact .blames (.table h) (by simp)

theorem judges_findColumn (q : Select) (reference : String) :
    Judges q.schema False (q.findColumn reference) (q.schema.Knows q.base.name reference) := by
  unfold findColumn tableAndColumn Schema.Knows
  obtain ⟨table, column⟩ := (cut '.' reference).getD (q.base.name, reference)
  unfold findTable Schema.columnNames
  dsimp only
  cases h : q.schema.table? table with
  | none => exact .blames (.table h) (by simp)
  | some t =>
    change Judges q.schema False (if column ∈ t.columnNames then _ else _) (column ∈ t.columnNames)
    by_cases hc : column ∈ t.columnNames
    · rw [if_pos hc]
      exact .ok hc
    · rw [if_neg hc]
      exact .blames (.column h hc) hc

theorem Finds.findColumn {reference : String} (h : q.Finds reference) :
    q.findColumn reference = .ok (.named q.base.name reference) := by
  obtain ⟨c, hc⟩ := h
  rw [hc]
  unfold Select.findColumn at hc
  obtain ⟨t, -, hc⟩ := ok_of_bind hc
  change (if (q.tableAndColumn reference).2 ∈ t.columnNames then _ else _ :
    Except Failure ColumnRef) = _ at hc
  split at hc
  · exact hc.symm
  · cases hc

theorem finds_of_knows {reference : String} (h : q.schema.Knows q.base.name reference) :
    q.Finds reference := by
  have hjudges := q.judges_findColumn reference
  cases hc : q.findColumn reference with
  | ok c => exact ⟨c, hc⟩
  | error e =>
    rw [hc] at hjudges
    cases hjudges with
    | blames _ hn => exact absurd h hn
    | fails _ himpossible => exact himpossible.elim

theorem judges_findComparison (schema : Schema) (operator : String) :
    Judges schema False (findComparison operator) (lower operator ∈ Comparison.texts) := by
  have hiff := Comparison.ofText?_isSome_iff operator
  unfold findComparison
  cases h : Comparison.ofText? operator with
  | some comparison => exact .ok (hiff.mp (by simp [h]))
  | none =>
    have hn : lower operator ∉ Comparison.texts := fun hm => by simpa [h] using hiff.mpr hm
    exact .blames (.operator hn) hn

theorem judges_findOutput (q : Select) (entry : String) : Judges q.schema False
    (q.findOutput entry) (∀ column ∈ entryColumn? entry, q.schema.Knows q.base.name column) := by
  rw [findOutput_eq]
  refine Judges.map ?_
  unfold findExpr entryColumn? reference?
  by_cases hr : isReference (trim (entrySource entry).toList) = true
  · rw [if_pos hr, if_pos hr]
    have hfound := (q.judges_findColumn (stripped (entrySource entry))).map (f := OutputExpr.column)
    exact hfound.congr (by simp)
  · rw [if_neg hr, if_neg hr]
    exact .ok nofun

theorem judges_findOutputs (q : Select) (entries : List String) :
    Judges q.schema False (q.findOutputs entries) (∀ entry ∈ entries,
      ∀ column ∈ entryColumn? entry, q.schema.Knows q.base.name column) := by
  induction entries with
  | nil => exact .ok nofun
  | cons entry entries ih =>
    rw [List.forall_mem_cons]
    exact (q.judges_findOutput entry).bind fun output => ih.map (f := (output :: ·))

theorem judges_findTest (q : Select) (column operator : String) (value : Value) :
    Judges q.schema (¬∃ s, value = .text s) (q.findTest column operator value)
      (lower operator ∈ Comparison.texts ∧ q.schema.Knows q.base.name column) := by
  refine (judges_findComparison q.schema operator).bind fun comparison => ?_
  refine (q.judges_findColumn column).bind_true fun ref => ?_
  unfold Test.ofComparison
  split <;> first | exact .ok trivial | exact .fails rfl (by simp) trivial

theorem judges_findMember (q : Select) (column : String) (values : Except Value (List Value))
    (negated : Bool) : Judges q.schema (¬∃ vs, values = .ok vs)
      (q.findMember column values negated) (q.schema.Knows q.base.name column) := by
  refine (q.judges_findColumn column).bind_true fun ref => ?_
  cases values with
  | ok vs => exact .ok trivial
  | error v => exact .fails rfl (by simp) trivial

theorem judges_step (q : Select) (hb : c.IsBounded) :
    Judges q.schema (¬c.IsProper) (q.step c) (c.IsKnown q.schema q.base.name) := by
  cases c with
  | filter column operator value | orFilter column operator value
  | filterNot column operator value => exact (q.judges_findTest column operator value).map
  | filterIn column values => exact (q.judges_findMember column values false).map
  | filterNotIn column values => exact (q.judges_findMember column values true).map
  | filterNull column | filterNotNull column | orderBy column =>
    exact (q.judges_findColumn column).weaken.map
  | filterBetween column bounds =>
    obtain ⟨low, high, rfl⟩ := hb
    exact (q.judges_findColumn column).weaken.map
      (f := fun ref => q.addTest (.between ref low high false))
  | filterNotBetween column bounds =>
    obtain ⟨low, high, rfl⟩ := hb
    exact (q.judges_findColumn column).weaken.map
      (f := fun ref => q.addTest (.between ref low high true))
  | join table first operator second joinKind =>
    refine (q.judges_findTable table).bind fun t => (judges_findComparison _ operator).bind
      fun comparison => (q.judges_findColumn first).bind fun left =>
        (q.judges_findColumn second).bind_true fun right => ?_
    cases joinKind with
    | ok kind => exact .ok trivial
    | error v => exact .fails rfl (by simp [Call.IsProper]) trivial
  | select entries => exact (q.judges_findOutputs entries).weaken.map

/-- What becomes of a query by a call that it takes. -/
inductive Takes (q : Select) : Call → Select → Prop
  | test {c : Call} (t : Test) : c.part = .clauses → c.isPlain = true → Takes q c (q.addTest t)
  | alternative {column operator : String} {v : Value} (t : Test) :
      Takes q (.orFilter column operator v) { q with clauses := orLast t q.clauses }
  | join {table first operator second : String} {kind : JoinKind} (t : TableDef) (on : JoinOn) :
      Takes q (.join table first operator second (.ok kind))
        { q with source := joinSource q.source t on kind }
  | select {entries : List String} {outputs : List Output} : q.findOutputs entries = .ok outputs →
      Takes q (.select entries) { q with outputs }
  | order {column direction : String} (ref : ColumnRef) (d : Direction) :
      Takes q (.orderBy column direction) { q with orders := q.orders ++ [(ref, d)] }

theorem takes_of_step (h : q.step c = .ok q') : q.Takes c q' := by
  cases c with
  | filter | filterNot | filterIn | filterNotIn | filterNull | filterNotNull =>
    obtain ⟨found, -, rfl⟩ := ok_of_map h
    exact .test _ rfl rfl
  | filterBetween | filterNotBetween =>
    obtain ⟨bounds, -, h⟩ := ok_of_bind h
    obtain ⟨c, -, h⟩ := ok_of_bind h
    cases h
    exact .test _ rfl rfl
  | orFilter =>
    obtain ⟨t, -, rfl⟩ := ok_of_map h
    exact .alternative t
  | join table first operator second joinKind =>
    obtain ⟨t, -, h⟩ := ok_of_bind h
    obtain ⟨comparison, -, h⟩ := ok_of_bind h
    obtain ⟨left, -, h⟩ := ok_of_bind h
    obtain ⟨right, -, h⟩ := ok_of_bind h
    cases joinKind with
    | error v => cases h
    | ok kind =>
      cases h
      exact .join t ⟨left, comparison, right⟩
  | select =>
    obtain ⟨outputs, ho, rfl⟩ := ok_of_map h
    exact .select ho
  | orderBy =>
    obtain ⟨ref, -, rfl⟩ := ok_of_map h
    exact .order ref _

theorem Takes.same (h : q.Takes c q') : q'.schema = q.schema ∧ q'.base = q.base ∧
    ∀ part ≠ c.part, part.Same q q' := by
  have hother : ∀ {own : Part}, (∀ part ≠ own, part.Same q q') → c.part = own →
      ∀ part ≠ c.part, part.Same q q' := fun hall he part hp => hall part (he ▸ hp)
  cases h with
  | test t hc =>
    refine ⟨rfl, rfl, hother (fun part (hp : part ≠ .clauses) => ?_) hc⟩
    cases part with
    | clauses => exact absurd rfl hp
    | outputs | source | orders => rfl
  | alternative | join | select | order =>
    refine ⟨rfl, rfl, fun part hp => ?_⟩
    cases part <;> first | rfl | exact absurd rfl hp

/-- A query after some calls; those that fail do not end the run. -/
def afterCalls (calls : List Call) (q : Select) : Select :=
  calls.foldl (fun q c => after (QueryTarget.call c) q) q

theorem call_eq (q : Select) (c : Call) : QueryTarget.call c q = match q.step c with
    | .ok q' => .ok () q'
    | .error e => .error e q := rfl

theorem frame_afterCalls (calls : List Call) (q : Select) :
    (q.afterCalls calls).schema = q.schema ∧ (q.afterCalls calls).base = q.base := by
  induction calls generalizing q with
  | nil => exact ⟨rfl, rfl⟩
  | cons c calls ih =>
    obtain ⟨hs, hb⟩ := ih (after (QueryTarget.call c) q)
    suffices hone : (after (QueryTarget.call c) q).schema = q.schema ∧
        (after (QueryTarget.call c) q).base = q.base from ⟨hs.trans hone.1, hb.trans hone.2⟩
    unfold after
    rw [call_eq]
    cases hq : q.step c with
    | ok q' => exact ⟨(takes_of_step hq).same.1, (takes_of_step hq).same.2.1⟩
    | error e => exact ⟨rfl, rfl⟩

/-- Whatever was called before, a call that fails leaves the query as it was. It is refused for a
table, a column or an operator exactly if it names one that is not known, and the refusal blames
such a one; a call with proper values is refused for nothing else. A call that is taken changes no
part of the query but the one that it is about. -/
theorem refused_iff_unknown (schema : Schema) (base : TableDef) (history : List Call) (c : Call) :
    let q := (Select.new schema base).afterCalls history
    (∀ e q', QueryTarget.call c q = .error e q' → q' = q) ∧
    (c.IsBounded → ((∃ e q', QueryTarget.call c q = .error e q' ∧ e.isUnknown = true) ↔
      ¬c.IsKnown schema base.name)) ∧
    (c.IsBounded → ∀ e q', QueryTarget.call c q = .error e q' →
      (e.isUnknown = true → e.Blames schema) ∧ (c.IsProper → e.isUnknown = true)) ∧
    ∀ q', QueryTarget.call c q = .ok () q' → q'.schema = schema ∧ q'.base = base ∧
      ∀ part ≠ c.part, part.Same q q' := by
  obtain ⟨hschema, hbase⟩ := frame_afterCalls history (Select.new schema base)
  have hjudges := fun hb => judges_step (c := c) ((Select.new schema base).afterCalls history) hb
  simp only [hschema, hbase] at hjudges
  simp only [call_eq]
  cases hq : ((Select.new schema base).afterCalls history).step c with
  | ok q' =>
    simp only [hq] at hjudges
    dsimp only
    refine ⟨nofun, fun hb => ⟨nofun, fun hn => ?_⟩, nofun, ?_⟩
    · cases hjudges hb with
      | ok hknown => exact absurd hknown hn
    · rintro _ ⟨⟩
      obtain ⟨hs, hb, hsame⟩ := (takes_of_step hq).same
      exact ⟨hs.trans hschema, hb.trans hbase, hsame⟩
  | error e =>
    simp only [hq] at hjudges
    refine ⟨?_, fun hb => ⟨?_, fun hn => ?_⟩, fun hb => ?_, nofun⟩
    · rintro _ _ ⟨⟩
      rfl
    · rintro ⟨_, _, ⟨⟩, hu⟩
      cases hjudges hb with
      | blames _ hn => exact hn
      | fails hf => cases hf.symm.trans hu
    · cases hjudges hb with
      | blames hblames => exact ⟨e, _, rfl, hblames.isUnknown⟩
      | fails _ _ hknown => exact absurd hknown hn
    · rintro _ _ ⟨⟩
      cases hjudges hb with
      | blames hblames => exact ⟨fun _ => hblames, fun _ => hblames.isUnknown⟩
      | fails hf himproper =>
        exact ⟨fun hu => (nomatch hf.symm.trans hu), fun hp => absurd hp himproper⟩

theorem refused_iff_unknown_pictures :
    let q := Desk.allUsers.afterCalls
      [.filterNull "users.ghost", .filter "name" "LIKE" (.text "a%")]
    let c : Call := .join "user_pictures" "users.pic_id" "=" "user_pictures.ghost" (.ok .inner)
    q.clauses.length = 1 ∧ c.IsBounded ∧ c.IsProper ∧
      ∃ e, QueryTarget.call c q = .error e q ∧ e.Blames Demo.schema := by
  obtain ⟨hsame, hiff, hblames, -⟩ := refused_iff_unknown Demo.schema Demo.user.table
    [.filterNull "users.ghost", .filter "name" "LIKE" (.text "a%")]
    (.join "user_pictures" "users.pic_id" "=" "user_pictures.ghost" (.ok .inner))
  obtain ⟨e, q', hcall, hu⟩ := (hiff trivial).mpr (by decide +kernel)
  obtain rfl := hsame e q' hcall
  exact ⟨by decide +kernel, trivial, ⟨.inner, rfl⟩, e, hcall, (hblames trivial e _ hcall).1 hu⟩

end Select

end Winnow
