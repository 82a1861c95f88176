import Winnow.Proofs.TextProofRules
import Winnow.Proofs.ListedColumns

namespace Winnow

variable {Q α β : Type}

namespace Catalog

/-- The column behind a condition with what the condition says of it; nothing if the column may not
be used or the expression does not compile. -/
def compiled? (cat : Catalog) (use : Use) (compile : String → String → Option α) (c : Condition) :
    Option (FoundColumn × α) :=
  (cat.columnOf? use c.column).bind fun found =>
    (compile found.column c.expression).map fun a => (found, a)

/-- What a text comes to. The limit counts conditions, compiled or not. -/
def compiled (cat : Catalog) (use : Use) (compile : String → String → Option α)
    (raw : Option String) (limit : Option Int) : List (FoundColumn × α) :=
  (cat.conditions use raw limit).filterMap (cat.compiled? use compile)

/-- A call for the sake of a relation: its columns with those selected so far, one of its hops, or
a guard on one of its tables. -/
inductive Prepares (cat : Catalog) (relation : String) : Call → Prop
  | select {rel : Relation} (j : Joins) : cat.book.relation? (.text relation) = some rel →
      Prepares cat relation (.select (Desk.chosen cat (rel.entries.map normalizeEntry) j).selected)
  | join {rel : Relation} {hop : Hop} : cat.book.relation? (.text relation) = some rel →
      hop ∈ cat.hops rel → Prepares cat relation (hop.call rel.joinKind)
  | guard {rel : Relation} {table : String} : cat.book.relation? (.text relation) = some rel →
      table ∈ rel.softDelete → Prepares cat relation (cat.guardCall table)

/-- The calls of a text that comes to these columns and what is said of them: one after the other,
each is sent after the calls that its relation needs. -/
inductive SentFor (cat : Catalog) (sent : α → List Call) :
    List (FoundColumn × α) → List Call → Prop
  | nil : SentFor cat sent [] []
  | cons {found : FoundColumn} {a : α} {rest : List (FoundColumn × α)} {before calls : List Call} :
      (∀ c ∈ before, ∃ relation, found.relation = some relation ∧ cat.Prepares relation c) →
      SentFor cat sent rest calls →
      SentFor cat sent ((found, a) :: rest) (before ++ (sent a ++ calls))

end Catalog

namespace Desk

/-- An open desk with a memory of its book and a query that takes every call. -/
structure Stands [QueryTarget Q] (cat : Catalog) (d : Desk (Logged Q)) : Prop where
  isOpen : d.session.isOpen = true
  willing : Willing d.session.query
  memory : cat.book.Reaches d.memory

variable [QueryTarget Q] {cat : Catalog} {use : Use}

/-- A step that succeeds and sends calls, all of which are taken; `R` says which ones go with its
answer. -/
def Issues (cat : Catalog) (step : Build (Logged Q) α) (R : α → List Call → Prop) : Prop :=
  ∀ d, Stands cat d → ∃ a e calls, step d = .ok a e ∧ Stands cat e ∧
    e.log = d.log ++ calls.map (⟨·, true⟩) ∧ R a calls

namespace Issues

variable {R : α → List Call → Prop} {S : β → List Call → Prop} {step : Build (Logged Q) α}

theorem pure {a : α} (h : R a []) : Issues cat (pure a : Build (Logged Q) α) R :=
  fun d hd => ⟨a, d, [], rfl, hd, (List.append_nil _).symm, h⟩

theorem bind {next : α → Build (Logged Q) β} (hs : Issues cat step R)
    (hn : ∀ a first, R a first → Issues cat (next a) fun b second => S b (first ++ second)) :
    Issues cat (step >>= next) S := by
  intro d hd
  obtain ⟨a, e, first, hok, he, hlog, hr⟩ := hs d hd
  obtain ⟨b, f, second, hok', hf, hlog', hs⟩ := hn a first hr e he
  refine ⟨b, f, first ++ second, (bind_of_ok hok).trans hok', hf, ?_, hs⟩
  rw [hlog', hlog, List.map_append, List.append_assoc]

theorem mono {R' : α → List Call → Prop} (hs : Issues cat step R)
    (h : ∀ a calls, R a calls → R' a calls) : Issues cat step R' := by
  intro d hd
  obtain ⟨a, e, calls, hok, he, hlog, hr⟩ := hs d hd
  exact ⟨a, e, calls, hok, he, hlog, h a calls hr⟩

theorem silent {next : α → Build (Logged Q) β} {v : α}
    (hs : Issues cat step fun a calls => a = v ∧ calls = []) (hn : Issues cat (next v) S) :
    Issues cat (step >>= next) S := by
  refine hs.bind ?_
  rintro a _ ⟨rfl, rfl⟩
  exact hn

end Issues

theorem issues_note (n : Note) :
    Issues (Q := Q) cat (note n) fun u calls => u = () ∧ calls = [] :=
  fun _ h => ⟨(), _, [], rfl, ⟨h.isOpen, h.willing, h.memory⟩, (List.append_nil _).symm, rfl, rfl⟩

theorem issues_enter : Issues (Q := Q) cat enter fun u calls => u = () ∧ calls = [] :=
  fun d h => ⟨(), d.entered, [], enter_of_open h.isOpen, ⟨rfl, h.willing, h.memory⟩,
    (List.append_nil _).symm, rfl, rfl⟩

theorem issues_joins {R : α → List Call → Prop} {next : Joins → Build (Logged Q) α}
    (h : ∀ j, Issues cat (next j) R) : Issues cat (joins >>= next) R :=
  fun d hd => h d.session.joins d hd

theorem issues_setJoins (j : Joins) :
    Issues (Q := Q) cat (setJoins j) fun u calls => u = () ∧ calls = [] :=
  fun _ h => ⟨(), _, [], rfl, ⟨h.isOpen, h.willing, h.memory⟩, (List.append_nil _).symm, rfl, rfl⟩

theorem issues_issueAll (cs : List Call) :
    Issues (Q := Q) cat (issueAll cs) fun _ calls => calls = cs := by
  intro d h
  obtain ⟨q, hq, hw, hlog⟩ := issueAll_of_willing h.willing cs
  exact ⟨(), _, cs, hq, ⟨h.isOpen, hw, h.memory⟩, hlog, rfl⟩

theorem issues_issue (c : Call) : Issues (Q := Q) cat (issue c) fun _ calls => calls = [c] := by
  intro d h
  obtain ⟨q, hq, hw, hlog⟩ := issue_of_willing h.willing c
  exact ⟨(), _, [c], hq, ⟨h.isOpen, hw, h.memory⟩, hlog, rfl⟩

theorem issues_column (use : Use) (given : String) :
    Issues (Q := Q) cat (column cat use given)
      fun found calls => found = cat.columnOf? use given ∧ calls = [] := by
  intro d h
  obtain ⟨m, notes, hm, hok⟩ := column_eq h.memory use given
  exact ⟨_, _, [], hok, ⟨h.isOpen, h.willing, hm⟩, (List.append_nil _).symm, rfl, rfl⟩

theorem issues_route (name : RelationName) :
    Issues (Q := Q) cat (route cat (.named name))
      fun r calls => r = cat.book.route (.named name) ∧ calls = [] :=
  fun _ h => ⟨_, _, [], rfl, ⟨h.isOpen, h.willing, h.memory.consultName name⟩,
    (List.append_nil _).symm, RelationBook.consultName_answer h.memory.faithful name, rfl⟩

theorem issues_selectEntries (entries : List String) :
    Issues (Q := Q) cat (selectEntries cat entries)
      fun _ calls => ∀ c ∈ calls, ∃ j, c = .select (chosen cat entries j).selected := by
  intro d h
  obtain ⟨d₀, hs, hm, hd⟩ := selectEntries_eq cat entries d
  have hstands : Stands cat (d₀.withJoins (chosen cat entries d.session.joins)) := by
    obtain ⟨_, _, _, _⟩ := d₀
    cases hs
    cases hm
    exact ⟨h.isOpen, h.willing, h.memory⟩
  have hlog : (d₀.withJoins (chosen cat entries d.session.joins)).log = d.log :=
    congrArg (·.query.log) hs
  rw [hd, ← hlog]
  split
  next => exact ⟨(), _, [], rfl, hstands, (List.append_nil _).symm, by simp⟩
  next =>
    refine ((issues_issue _).mono fun _ calls he c hc => ?_) _ hstands
    rw [he] at hc
    exact ⟨d.session.joins, List.mem_singleton.mp hc⟩

theorem issues_joinRules (permitted : Call → Prop) :
    JoinRules (Q := Logged Q) (fun step => Issues cat step fun _ calls => ∀ c ∈ calls, permitted c)
      permitted where
  pure _ := .pure (by simp)
  bind hs hn := hs.bind fun a first hfirst => (hn a).mono fun _ second hsecond c hc =>
    (List.mem_append.mp hc).elim (hfirst c) (hsecond c)
  note n := (issues_note n).mono fun _ _ h => by simp [h.2]
  enter := issues_enter.mono fun _ _ h => by simp [h.2]
  joins := issues_joins
  change _ := issues_joins fun _ => (issues_setJoins _).mono fun _ _ h => by simp [h.2]
  issue h := (issues_issue _).mono fun _ _ hc => by simpa [hc] using h

theorem issues_join (relation : String) :
    Issues (Q := Q) cat (join cat (.named (.text relation)))
      fun _ calls => ∀ c ∈ calls, cat.Prepares relation c := by
  have rules := @issues_joinRules Q _ cat (cat.Prepares relation)
  refine rules.join (· = cat.book.route (.named (.text relation))) ?_ ?_ ?_
  · intro α next hnext
    exact (issues_route _).silent (hnext _ rfl)
  · intro rel r known _ _
    refine (issues_selectEntries _).mono fun _ calls h c hc => ?_
    obtain ⟨j, rfl⟩ := h c hc
    exact .select j known
  · rintro rel _ known rfl _
    rw [joinKind_of_known known, Catalog.hops_of_relation? known]
    exact rules.joinHops (fun hop hm => .join known hm) fun _ _ table hs _ => .guard known hs

section Texts

variable {compile : String → String → Option α} {sent : α → List Call}

/-- What the texts of some conditions send and give back, by what the conditions come to. -/
def Comes (cat : Catalog) (sent : α → List Call) (found : List (FoundColumn × α))
    (applied : List α) (calls : List Call) : Prop :=
  applied = found.map Prod.snd ∧ cat.SentFor sent found calls

theorem issues_send {send : α → Build (Logged Q) Unit} {found : FoundColumn} {a : α}
    (hsend : Issues cat (send a) fun _ calls => calls = sent a) {others : List (FoundColumn × α)}
    {rest : Build (Logged Q) (List α)} (hrest : Issues cat rest (Comes cat sent others))
    {before : List Call}
    (hbefore : ∀ c ∈ before, ∃ relation, found.relation = some relation ∧
      cat.Prepares relation c) :
    Issues cat (do
      enter
      send a
      let applied ← rest
      return a :: applied) fun applied calls =>
        Comes cat sent ((found, a) :: others) applied (before ++ calls) := by
  refine issues_enter.silent (hsend.bind ?_)
  rintro _ _ rfl
  refine hrest.bind fun applied calls ⟨happlied, hcalls⟩ => .pure ⟨?_, ?_⟩
  · rw [happlied, List.map_cons]
  · rw [List.append_nil]
    exact .cons hbefore hcalls

theorem issues_work {send : α → Build (Logged Q) Unit}
    (hsend : ∀ column expression a, compile column expression = some a →
      Issues cat (send a) fun _ calls => calls = sent a) (segments : List Segment) :
    Issues cat (work cat use compile send segments) (Comes cat sent
      ((segments.filterMap Segment.condition?).filterMap (cat.compiled? use compile))) := by
  induction segments with
  | nil => exact .pure ⟨rfl, .nil⟩
  | cons segment rest ih =>
    cases segment with
    | malformed text => exact (issues_note _).silent ih
    | condition c =>
      refine (issues_column use c.column).silent ?_
      change Issues cat _ (Comes cat sent
        ((c :: rest.filterMap Segment.condition?).filterMap (cat.compiled? use compile)))
      cases hf : cat.columnOf? use c.column with
      | none =>
        rw [List.filterMap_cons_none (by simp [Catalog.compiled?, hf])]
        exact (issues_note _).silent ih
      | some found =>
        cases hc : compile found.column c.expression with
        | none =>
          rw [List.filterMap_cons_none (by simp [Catalog.compiled?, hf, hc])]
          simp only [hc]
          exact (issues_note _).silent ih
        | some a =>
          rw [List.filterMap_cons_some (b := (found, a)) (by simp [Catalog.compiled?, hf, hc])]
          simp only [hc]
          refine (issues_note _).silent ?_
          cases hr : found.relation with
          | none =>
            have hnothing : ∀ call ∈ ([] : List Call), ∃ relation,
                found.relation = some relation ∧ cat.Prepares relation call := by simp
            exact issues_send (hsend _ _ a hc) ih hnothing
          | some relation =>
            exact (issues_join relation).bind fun _ before hbefore =>
              issues_send (hsend _ _ a hc) ih fun c hm => ⟨relation, hr, hbefore c hm⟩

theorem issues_workText (hs : cat.separator ≠ "") {send : α → Build (Logged Q) Unit}
    (hsend : ∀ column expression a, compile column expression = some a →
      Issues cat (send a) fun _ calls => calls = sent a) (raw : Option String)
    (limit : Option Int) :
    Issues cat (workText cat use compile send raw limit)
      (Comes cat sent (cat.compiled use compile raw limit)) := by
  obtain ⟨segments, hscan⟩ := Segment.scan_ok hs (some (limit.getD (cat.limit use)))
    (raw.getD "")
  unfold workText Catalog.compiled
  rw [hscan, Catalog.conditions_of_scan hscan]
  exact issues_work hsend segments

end Texts

/-- Conditions of which nothing comes are worked off without the session, whatever its query is. -/
theorem work_of_uncompiled {compile : String → String → Option α} (send : α → Build Q Unit)
    {segments : List Segment}
    (hnone : ∀ c ∈ segments.filterMap Segment.condition?, cat.compiled? use compile c = none)
    {d : Desk Q} (hm : cat.book.Reaches d.memory) :
    ∃ d', work cat use compile send segments d = .ok [] d' ∧ d'.session = d.session := by
  have hnote : ∀ (n : Note) {d : Desk Q}, cat.book.Reaches d.memory →
      cat.book.Reaches ({ d with notes := d.notes ++ [n] } : Desk Q).memory := fun _ _ h => h
  induction segments generalizing d with
  | nil => exact ⟨d, rfl, rfl⟩
  | cons segment rest ih =>
    cases segment with
    | malformed text => exact ih hnone (hnote (.malformedSegment text) hm)
    | condition c =>
      simp only [List.filterMap_cons, Segment.condition?] at hnone
      obtain ⟨hc, hrest⟩ := List.forall_mem_cons.mp hnone
      obtain ⟨m, notes, hm', hcolumn⟩ := column_eq hm use c.column
      unfold work
      rw [bind_of_ok hcolumn]
      cases hf : cat.columnOf? use c.column with
      | none => exact ih hrest (hnote _ hm')
      | some found =>
        have hcompile : compile found.column c.expression = none := by
          simpa [Catalog.compiled?, hf] using hc
        simp only [hcompile]
        exact ih hrest (hnote _ hm')

theorem workText_of_uncompiled {compile : String → String → Option α} (send : α → Build Q Unit)
    {raw : Option String} {limit : Option Int}
    (hnone : ∀ c ∈ cat.conditions use raw limit, cat.compiled? use compile c = none) {d : Desk Q}
    (hm : cat.book.Reaches d.memory) :
    ∃ d', d'.session = d.session ∧ ((∃ a, workText cat use compile send raw limit d = .ok a d') ∨
      workText cat use compile send raw limit d = .error .emptySeparator d') := by
  unfold workText
  cases hscan : Segment.scan cat.separator (some (limit.getD (cat.limit use))) (raw.getD "") with
  | error e =>
    obtain ⟨rfl, -⟩ := Catalog.conditions_of_scan_error hscan
    exact ⟨d, rfl, Or.inr rfl⟩
  | ok segments =>
    rw [Catalog.conditions_of_scan hscan] at hnone
    obtain ⟨d', hw, hs⟩ := work_of_uncompiled send hnone hm
    exact ⟨d', hs, Or.inl ⟨[], hw⟩⟩

section Sessions

variable {compile : String → String → Option α} {sent : α → List Call} {d : Desk (Logged Q)}

/-- What a text comes to is sent and returned, on any open desk. A text that comes to nothing
leaves the session alone. -/
theorem workText_determined (hs : cat.separator ≠ "") {send : α → Build (Logged Q) Unit}
    (hsend : ∀ column expression a, compile column expression = some a →
      Issues cat (send a) fun _ calls => calls = sent a) (hd : Stands cat d)
    (raw : Option String) (limit : Option Int) :
    ∃ e calls, workText cat use compile send raw limit d =
        .ok ((cat.compiled use compile raw limit).map Prod.snd) e ∧
      e.log = d.log ++ calls.map (⟨·, true⟩) ∧
      cat.SentFor sent (cat.compiled use compile raw limit) calls ∧
      (cat.compiled use compile raw limit = [] → e.session = d.session) := by
  obtain ⟨_, e, calls, hok, -, hlog, rfl, hsent⟩ := issues_workText hs hsend raw limit d hd
  refine ⟨e, calls, hok, hlog, hsent, fun hnone => ?_⟩
  obtain ⟨d', hsession, ⟨a, ha⟩ | he⟩ := workText_of_uncompiled send
    (List.filterMap_eq_nil_iff.mp hnone) hd.memory
  · cases hok.symm.trans ha
    exact hsession
  · cases hok.symm.trans he

theorem issues_sendPredicate {column expression : String} {p : Predicate}
    (h : Predicate.compile column expression = some p) :
    Issues (Q := Q) cat (sendPredicate p) fun _ calls => calls = p.sent := by
  obtain ⟨calls, hcalls⟩ := calls_ok h
  unfold sendPredicate Predicate.sent
  rw [hcalls]
  exact issues_issueAll calls

/-- What is filtered and sorted by, and in which order it is sent, is settled by the catalog, the
text and the limit alone: the session may have joined and built what it likes. Conditions that are
not allowed or not understood count towards the limit, and where only such ones are left the
session is not touched. -/
theorem text_determined (hs : cat.separator ≠ "") (hm : cat.book.Reaches d.memory)
    (ho : d.session.isOpen = true) (hw : Willing d.session.query.query) (raw : Option String)
    (limit : Option Int) :
    let predicates := cat.compiled .filter Predicate.compile raw limit
    let orders := cat.compiled .sort Order.compile raw limit
    (∃ e calls, filter cat raw limit d = .ok (predicates.map Prod.snd) e ∧
      e.log = d.log ++ calls.map (⟨·, true⟩) ∧
      cat.SentFor Predicate.sent predicates calls ∧
      (predicates = [] → e.session = d.session)) ∧
    ∃ e calls, sort cat raw limit d = .ok (orders.map Prod.snd) e ∧
      e.log = d.log ++ calls.map (⟨·, true⟩) ∧
      cat.SentFor Order.sent orders calls ∧
      (orders = [] → e.session = d.session) := by
  have hd : Stands cat d := ⟨ho, Logged.willing hw, hm⟩
  exact ⟨workText_determined hs (fun _ _ _ => issues_sendPredicate) hd raw limit,
    workText_determined hs (fun _ _ o _ => issues_issue _) hd raw limit⟩

end Sessions

/-- Besides what is malformed, a filter on the photo of a profile, two conditions that come to
nothing and a filter on the base table. -/
def mixedText : Option String :=
  some "junk@profile.photo:equal_x@secret:equal_1@id:equals_2@id:equal_5"

/-- The limit is used up by the two conditions that come to nothing, after the roles were joined as
well as before. As a sort text it comes to nothing. -/
theorem text_determined_users :
    let d := usersAfter [.join (.named (.text "role"))]
    Catalog.ofUsers.separator ≠ "" ∧ Catalog.ofUsers.book.Reaches d.memory ∧
      d.session.isOpen = true ∧ Willing d.session.query.query ∧
      (∃ e, filter .ofUsers mixedText (some 3) d =
        .ok [⟨"user_pictures.path", .equal, ["x"]⟩] e) ∧
      ∃ e, sort .ofUsers mixedText (some 3) d = .ok [] e ∧ e.session = d.session := by
  have hs : Catalog.ofUsers.separator ≠ "" := by decide
  have hm : Catalog.ofUsers.book.Reaches (usersAfter [.join (.named (.text "role"))]).memory :=
    (moves_run _ (by simp) .empty).2
  have ho : (usersAfter [.join (.named (.text "role"))]).session.isOpen = true := by
    decide +kernel
  have hw : Willing (usersAfter [.join (.named (.text "role"))]).session.query.query :=
    willing_recorder (by decide +kernel)
  have hfilter : Catalog.ofUsers.compiled .filter Predicate.compile mixedText (some 3) =
      [(⟨"user_pictures.path", .aliased, some "profile"⟩,
        ⟨"user_pictures.path", .equal, ["x"]⟩)] := by decide +kernel
  have hsort : Catalog.ofUsers.compiled .sort Order.compile mixedText (some 3) = [] := by
    decide +kernel
  obtain ⟨⟨e, -, hok, -⟩, e', -, hok', -, -, hsession⟩ :=
    text_determined hs hm ho hw mixedText (some 3)
  rw [hfilter] at hok
  rw [hsort] at hok'
  exact ⟨hs, hm, ho, hw, ⟨e, hok⟩, e', hok', hsession hsort⟩

end Desk

end Winnow
