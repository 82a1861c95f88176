import Winnow.Proofs.TextOutcome
import Winnow.Proofs.RepeatedJoin
import Winnow.Proofs.TestOrder

namespace Winnow

/-- What is added to a session: that its query is being built, an element of the `WHERE` list, or a
term of the order. -/
inductive Addition where
  | entry
  | clause (c : Clause)
  | order (o : ColumnRef × Direction)

namespace Addition

def isEntry : Addition → Bool
  | entry => true
  | _ => false

def clause? : Addition → Option Clause
  | clause c => some c
  | _ => none

def order? : Addition → Option (ColumnRef × Direction)
  | order o => some o
  | _ => none

def ofTest (t : Test) : Addition := .clause ⟨t, []⟩

end Addition

namespace Session

/-- A session with what is added to it. -/
def adding (s : Session Select) (added : List Addition) : Session Select :=
  { s with
    phase := if added.any (·.isEntry) then .building else s.phase
    query := { s.query with
      clauses := s.query.clauses ++ added.filterMap (·.clause?)
      orders := s.query.orders ++ added.filterMap (·.order?) } }

variable {s : Session Select}

theorem adding_nil (s : Session Select) : s.adding [] = s := by
  simp [adding]

theorem adding_append (s : Session Select) (xs ys : List Addition) :
    (s.adding xs).adding ys = s.adding (xs ++ ys) := by
  unfold adding
  simp only [List.any_append, List.filterMap_append, List.append_assoc]
  congr 1
  cases xs.any (·.isEntry) <;> cases ys.any (·.isEntry) <;> rfl

theorem adding_tests (s : Session Select) (tests : List Test) :
    s.adding (tests.map .ofTest) = { s with query := s.query.addTests tests } := by
  have hentry : (tests.map Addition.ofTest).any (·.isEntry) = false := by
    simp [Addition.ofTest, Addition.isEntry]
  have horder : (tests.map Addition.ofTest).filterMap (·.order?) = [] := by
    simp [Addition.ofTest, Addition.order?]
  have hclause : (tests.map Addition.ofTest).filterMap (·.clause?) = tests.map (⟨·, []⟩) := by
    rw [List.filterMap_map]
    exact congrFun List.filterMap_eq_map tests
  unfold adding
  simp only [hentry, horder, hclause, List.append_nil]
  rfl

theorem isOpen_adding (h : s.isOpen = true) (added : List Addition) :
    (s.adding added).isOpen = true := by
  unfold isOpen adding at *
  split
  · rfl
  · exact h

/-- The order in which things are added shows only in the `WHERE` list, if all terms of the order
come in their order. -/
theorem adding_perm {xs ys : List Addition} (h : xs.Perm ys)
    (horders : ys.filterMap (·.order?) = xs.filterMap (·.order?)) :
    s.adding ys = { s.adding xs with
      query := (s.adding xs).query.withClauses (s.adding ys).query.clauses } := by
  unfold adding
  rw [h.any_eq, horders]
  rfl

end Session

namespace Catalog

/-- What an action adds to a session. What it needs from relations is not counted. -/
def additions (cat : Catalog) (q : Select) : Action → List Addition
  | .filter raw limit => (cat.compiled .filter Predicate.compile raw limit).flatMap fun p =>
      .entry :: (p.2.tests (.named q.base.name p.1.column)).map .ofTest
  | .sort raw limit => (cat.compiled .sort Order.compile raw limit).flatMap fun p =>
      [.entry, .order (.named q.base.name p.1.column, p.2.direction)]
  | .search term =>
    match cat.searched q with
    | [] => []
    | first :: others =>
      if term.getD "" = "" then []
      else [.entry, .clause (Desk.searchClause (term.getD "") first others)]
  | _ => []

/-- The columns that clients may use and those that are searched are columns that a query knows. -/
structure Resolves (cat : Catalog) (q : Select) : Prop where
  granted : ∀ use column, cat.Grants use column → q.Finds column
  searchable : ∀ column ∈ cat.searchable, q.Finds (cat.book.qualify column)

end Catalog

namespace Desk

variable {Q α β : Type} {cat : Catalog} {name : String}

/-- All that a relation asks for was done in a session. -/
def HasApplied (cat : Catalog) (s : Session Q) (name : String) : Prop :=
  ∃ rel, cat.book.relationOf? (.named (.text name)) = some rel ∧
    Complete cat rel (cat.book.route (.named (.text name))).hops s

theorem reaches_of_applyRelation [QueryTarget Q] {ref : RelationRef} {r : Route} {d e : Desk Q}
    (hm : cat.book.Reaches d.memory) (hok : applyRelation cat ref d = .ok r e) :
    cat.book.Reaches e.memory := by
  have hgoes : Goes (Move cat anyAsks) (Has cat []) (applyRelation (Q := Q) cat ref) _ :=
    goes_applyRelation trivial
  exact (hgoes.of_ok ⟨hm, List.nil_subset _⟩ hok).2.2.memory

theorem hasApplied_of_join [QueryTarget Q] {make : Nat → Q} {d : Desk Q} {rel : Relation}
    (hm : cat.book.Reaches d.memory)
    (known : cat.book.relationOf? (.named (.text name)) = some rel)
    (hops : (cat.book.route (.named (.text name))).hops ≠ [])
    (hjoin : succeeds (join cat (.named (.text name))) d = true) (actions : List Action)
    (hr : Action.reset ∉ actions) :
    HasApplied cat (run cat make (.join (.named (.text name)) :: actions) d).session name := by
  obtain ⟨r, e, hok, -⟩ := of_succeeds_bind hjoin
  have hafter : after (Action.perform cat make (.join (.named (.text name)))) d = e := by
    change after (join cat (.named (.text name))) d = e
    unfold after
    rw [show join cat (.named (.text name)) d = .ok () e from bind_of_ok hok]
  have hmoves := (moves_run make hr (reaches_of_applyRelation hm hok)).1
  have hgrown : Extends e.session (run cat make actions e).session :=
    kept_of_moves (I := fun d' => Extends e.session d'.session)
      (fun _ _ hm h => h.trans hm.extends) hmoves (Extends.refl _)
  unfold run
  rw [List.foldl_cons, hafter]
  exact ⟨rel, known, (complete_of_applyRelation hm known hok hops).mono hgrown⟩

/-- The relations that the conditions of a filter or of an order need are applied. -/
def Needs (cat : Catalog) (s : Session Q) : Action → Prop
  | .filter raw limit => ∀ p ∈ cat.compiled .filter Predicate.compile raw limit,
      ∀ name ∈ p.1.relation, HasApplied cat s name
  | .sort raw limit => ∀ p ∈ cat.compiled .sort Order.compile raw limit,
      ∀ name ∈ p.1.relation, HasApplied cat s name
  | .search _ => True
  | _ => False

/-- A desk whose session is a given one with some additions. -/
structure At (cat : Catalog) (s : Session Select) (before : List Addition) (d : Desk Select) :
    Prop where
  session : d.session = s.adding before
  isOpen : d.session.isOpen = true
  memory : cat.book.Reaches d.memory

variable {s : Session Select} {before added : List Addition} {d e : Desk Select}

theorem At.adding (h : At cat s before d) (hs : e.session = d.session.adding added)
    (hm : cat.book.Reaches e.memory) : At cat s (before ++ added) e := by
  refine ⟨?_, hs ▸ Session.isOpen_adding h.isOpen added, hm⟩
  rw [hs, h.session, Session.adding_append]

theorem At.aside (h : At cat s before d) (hs : e.session = d.session)
    (hm : cat.book.Reaches e.memory) : At cat s before e :=
  ⟨hs.trans h.session, hs ▸ h.isOpen, hm⟩

theorem At.finds (h : At cat s before d) {column : String} (hf : s.query.Finds column) :
    d.session.query.findColumn column = .ok (.named s.query.base.name column) := by
  rw [h.session]
  exact (hf.congr rfl rfl : (s.adding before).query.Finds column).findColumn

def AddsTo (cat : Catalog) (s : Session Select) (step : Build Select α) (added : List Addition) :
    Prop :=
  ∀ before d, At cat s before d → ∃ a e, step d = .ok a e ∧ At cat s (before ++ added) e

namespace AddsTo

variable {step : Build Select α} {more : List Addition}

theorem pure {a : α} : AddsTo cat s (pure a : Build Select α) [] :=
  fun before d h => ⟨a, d, rfl, (List.append_nil before).symm ▸ h⟩

theorem bind {next : α → Build Select β} (hs : AddsTo cat s step added)
    (hn : ∀ a, AddsTo cat s (next a) more) : AddsTo cat s (step >>= next) (added ++ more) := by
  intro before d h
  obtain ⟨a, e, hok, he⟩ := hs before d h
  obtain ⟨b, f, hok', hf⟩ := hn a _ e he
  exact ⟨b, f, (bind_of_ok hok).trans hok', List.append_assoc before added more ▸ hf⟩

theorem silent {next : α → Build Select β} (hs : AddsTo cat s step [])
    (hn : ∀ a, AddsTo cat s (next a) added) : AddsTo cat s (step >>= next) added :=
  hs.bind hn

end AddsTo

theorem addsTo_note (n : Note) : AddsTo cat s (note n) [] :=
  fun _ _ h => ⟨(), _, rfl, h.adding (Session.adding_nil _).symm h.memory⟩

theorem addsTo_enter : AddsTo cat s enter [.entry] := by
  refine fun _ d h => ⟨(), d.entered, enter_of_open h.isOpen, h.adding ?_ h.memory⟩
  unfold entered Session.adding
  simp [Addition.isEntry, Addition.clause?, Addition.order?]

theorem addsTo_column {use : Use} {given : String} {next : Option FoundColumn → Build Select α}
    (hn : AddsTo cat s (next (cat.columnOf? use given)) added) :
    AddsTo cat s (column cat use given >>= next) added := by
  intro before d h
  obtain ⟨m, notes, hm, hok⟩ := column_eq h.memory use given
  rw [bind_of_ok hok]
  exact hn before _ (h.aside rfl hm)

theorem addsTo_join (applied : HasApplied cat s name) :
    AddsTo cat s (join cat (.named (.text name))) [] := by
  obtain ⟨rel, known, complete⟩ := applied
  intro before d h
  have hgrown : Extends s (s.adding before) := by
    refine ⟨List.Subset.refl _, List.Subset.refl _, fun hp => ?_⟩
    unfold Session.adding
    split
    · rfl
    · exact hp
  have hroute : route cat (.named (.text name)) d =
      .ok (cat.book.consultName (.text name) d.memory).answer.value _ := rfl
  obtain ⟨hvalue, hs, hm⟩ := route_of_ok h.memory hroute
  rw [hvalue] at hroute
  obtain ⟨e, hok, he⟩ := applyRelation_of_complete known hroute
    (hs ▸ h.session ▸ complete.mono hgrown)
  refine ⟨(), e, bind_of_ok hok, h.adding ?_ (reaches_of_applyRelation h.memory hok)⟩
  rw [he, hs, Session.adding_nil]

theorem addsTo_sendPredicate {column expression : String} {p : Predicate}
    (hp : Predicate.compile column expression = some p) (hf : s.query.Finds column) :
    AddsTo cat s (sendPredicate p)
      ((p.tests (.named s.query.base.name column)).map .ofTest) := by
  intro before d h
  refine ⟨(), _, sendPredicate_eq hp (h.finds hf), h.adding ?_ h.memory⟩
  exact (Session.adding_tests _ _).symm

theorem addsTo_sendOrder {column expression : String} {o : Order}
    (ho : Order.compile column expression = some o) (hf : s.query.Finds column) :
    AddsTo cat s (sendOrder o) [.order (.named s.query.base.name column, o.direction)] := by
  obtain ⟨direction, -, rfl⟩ := Option.map_eq_some_iff.mp ho
  intro before d h
  have hread : (Direction.read? direction.name).getD .ascending = direction := by
    cases direction <;> decide
  have hstep : d.session.query.step (.orderBy column direction.name) =
      .ok { d.session.query with
        orders := d.session.query.orders ++ [(.named s.query.base.name column, direction)] } := by
    simp only [Select.step, h.finds hf, hread]
    rfl
  refine ⟨(), _, issue_of_ok (Select.call_of_step hstep), h.adding ?_ h.memory⟩
  unfold withQuery Session.adding
  simp [Addition.isEntry, Addition.clause?, Addition.order?]

theorem addsTo_search (known : cat.Resolves s.query) (term : Option String) :
    AddsTo cat s (search cat term) (cat.additions s.query (.search term)) := by
  intro before d h
  by_cases hnothing : term.getD "" = "" ∨ cat.searchable = []
  · have hnone : cat.additions s.query (.search term) = [] := by
      unfold Catalog.additions
      rcases hnothing with hterm | hcolumns
      · simp only [hterm]
        split <;> rfl
      · simp only [Catalog.searched, hcolumns, List.map_nil]
    rw [hnone]
    exact ⟨(), d, search_of_nothing hnothing, h.adding (Session.adding_nil _).symm h.memory⟩
  · obtain ⟨hterm, hcolumns⟩ := not_or.mp hnothing
    obtain ⟨t, rfl, ht⟩ := exists_of_getD_ne hterm
    have hsame : cat.searched d.session.query = cat.searched s.query := by
      rw [h.session]
      rfl
    cases hs : cat.searched s.query with
    | nil => exact absurd (List.map_eq_nil_iff.mp hs) hcolumns
    | cons first others =>
      have hfinds : ∀ column ∈ cat.searchable,
          d.session.query.Finds (cat.book.qualify column) :=
        fun column hm => ⟨_, h.finds (known.searchable column hm)⟩
      refine ⟨(), _, search_of_term h.isOpen hfinds ht (hsame.trans hs), h.adding ?_ h.memory⟩
      simp only [Catalog.additions, hs, Option.getD_some, ht, ↓reduceIte]
      unfold withQuery entered Session.adding Select.addClause
      simp [Addition.isEntry, Addition.clause?, Addition.order?]

section Texts

variable {use : Use} {compile : String → String → Option α} {send : α → Build Select Unit}

theorem addsTo_work (made : ColumnRef → α → List Addition) (known : cat.Resolves s.query)
    (hsend : ∀ column expression a, compile column expression = some a → s.query.Finds column →
      AddsTo cat s (send a) (made (.named s.query.base.name column) a))
    {segments : List Segment}
    (applied : ∀ p ∈ (segments.filterMap Segment.condition?).filterMap (cat.compiled? use compile),
      ∀ name ∈ p.1.relation, HasApplied cat s name) :
    AddsTo cat s (work cat use compile send segments)
      (((segments.filterMap Segment.condition?).filterMap (cat.compiled? use compile)).flatMap
        fun p => .entry :: made (.named s.query.base.name p.1.column) p.2) := by
  -- a segment that is dropped adds a note; one that is applied finds its relation joined
  induction segments with
  | nil => exact .pure
  | cons segment rest ih =>
    cases segment with
    | malformed text => exact (addsTo_note _).silent fun _ => ih applied
    | condition c =>
      have hcondition : (Segment.condition c :: rest).filterMap Segment.condition? =
          c :: rest.filterMap Segment.condition? := rfl
      rw [hcondition] at applied ⊢
      refine addsTo_column ?_
      cases hf : cat.columnOf? use c.column with
      | none =>
        have hnone : cat.compiled? use compile c = none := by simp [Catalog.compiled?, hf]
        rw [List.filterMap_cons_none hnone] at applied ⊢
        exact (addsTo_note _).silent fun _ => ih applied
      | some found =>
        cases hc : compile found.column c.expression with
        | none =>
          have hnone : cat.compiled? use compile c = none := by simp [Catalog.compiled?, hf, hc]
          rw [List.filterMap_cons_none hnone] at applied ⊢
          simp only [hc]
          exact (addsTo_note _).silent fun _ => ih applied
        | some a =>
          have hsome : cat.compiled? use compile c = some (found, a) := by
            simp [Catalog.compiled?, hf, hc]
          rw [List.filterMap_cons_some hsome] at applied ⊢
          obtain ⟨hrelation, hrest⟩ := List.forall_mem_cons.mp applied
          have hfinds := known.granted _ _ (Catalog.columnOf?_some hf).1
          have hsent := addsTo_enter.bind fun _ => (hsend _ _ a hc hfinds).bind fun _ =>
            (ih hrest).bind fun applied => AddsTo.pure (a := a :: applied)
          rw [List.append_nil] at hsent
          simp only [hc]
          refine (addsTo_note _).silent fun _ => ?_
          cases hr : found.relation with
          | none => exact hsent
          | some name => exact (addsTo_join (hrelation name hr)).silent fun _ => hsent

/-- What a step leaves, whether it succeeds or not, is the session with what it adds. It succeeds
if there is a separator. -/
def Leaves (cat : Catalog) (s : Session Select) (step : Build Select α) (added : List Addition) :
    Prop :=
  ∀ before d, At cat s before d → At cat s (before ++ added) (after step d) ∧
    (cat.separator ≠ "" → succeeds step d = true)

theorem AddsTo.leaves {step : Build Select α} (h : AddsTo cat s step added) :
    Leaves cat s step added := by
  intro before d hd
  obtain ⟨a, e, hok, he⟩ := h before d hd
  unfold after succeeds
  rw [hok]
  exact ⟨he, fun _ => rfl⟩

/-- A text adds what it comes to. Without a separator it cannot be read, and comes to nothing. -/
theorem leaves_workText (made : ColumnRef → α → List Addition) (known : cat.Resolves s.query)
    (hsend : ∀ column expression a, compile column expression = some a → s.query.Finds column →
      AddsTo cat s (send a) (made (.named s.query.base.name column) a))
    {raw : Option String} {limit : Option Int}
    (applied : ∀ p ∈ cat.compiled use compile raw limit,
      ∀ name ∈ p.1.relation, HasApplied cat s name) :
    Leaves cat s (do let _ ← workText cat use compile send raw limit; return ())
      ((cat.compiled use compile raw limit).flatMap fun p =>
        .entry :: made (.named s.query.base.name p.1.column) p.2) := by
  unfold workText
  unfold Catalog.compiled at applied ⊢
  cases hscan : Segment.scan cat.separator (some (limit.getD (cat.limit use))) (raw.getD "") with
  | ok segments =>
    rw [Catalog.conditions_of_scan hscan] at applied ⊢
    have hwork := (addsTo_work made known hsend applied).bind fun _ => AddsTo.pure (a := ())
    rw [List.append_nil] at hwork
    exact hwork.leaves
  | error e =>
    rw [(Catalog.conditions_of_scan_error hscan).2]
    intro before d h
    refine ⟨h.adding (Session.adding_nil _).symm h.memory, fun hs => ?_⟩
    obtain ⟨segments, hok⟩ := Segment.scan_ok hs (some (limit.getD (cat.limit use))) (raw.getD "")
    cases hscan.symm.trans hok

end Texts

variable {make : Nat → Select}

theorem leaves_perform (known : cat.Resolves s.query) {action : Action}
    (needs : Needs cat s action) :
    Leaves cat s (action.perform cat make) (cat.additions s.query action) := by
  cases action with
  | filter raw limit =>
    exact leaves_workText (fun ref (p : Predicate) => (p.tests ref).map .ofTest) known
      (fun _ _ _ => addsTo_sendPredicate) needs
  | sort raw limit =>
    exact leaves_workText (fun ref (o : Order) => [.order (ref, o.direction)]) known
      (fun _ _ _ => addsTo_sendOrder) needs
  | search term => exact (addsTo_search known term).leaves
  | join | joins | reset => exact needs.elim

theorem leaves_run (make : Nat → Select) (known : cat.Resolves s.query) {actions : List Action}
    (needs : ∀ action ∈ actions, Needs cat s action) (h : At cat s before d) :
    At cat s (before ++ actions.flatMap (cat.additions s.query)) (run cat make actions d) ∧
      (cat.separator ≠ "" →
        actions.forM (·.perform cat make) d = .ok () (run cat make actions d)) := by
  induction actions generalizing before d with
  | nil => exact ⟨(List.append_nil before).symm ▸ h, fun _ => rfl⟩
  | cons action actions ih =>
    obtain ⟨haction, hrest⟩ := List.forall_mem_cons.mp needs
    have hleaves : Leaves cat s (action.perform cat make) _ := leaves_perform known haction
    obtain ⟨hone, hsucceeds⟩ := hleaves before d h
    obtain ⟨hall, hsucceed⟩ := ih hrest hone
    rw [List.flatMap_cons, ← List.append_assoc]
    refine ⟨hall, fun hs => ?_⟩
    obtain ⟨u, hok⟩ := exists_of_succeeds (hsucceeds hs)
    exact (bind_of_ok hok).trans (hsucceed hs)

end Desk

theorem flatMap_of_perm {α β : Type} {f : α → List β} {xs ys : List α} (h : xs.Perm ys)
    (one : (ys.filter fun a => !(f a).isEmpty).length ≤ 1) : xs.flatMap f = ys.flatMap f := by
  have hfilter : ∀ zs : List α, (zs.filter fun a => !(f a).isEmpty).flatMap f = zs.flatMap f := by
    intro zs
    induction zs with
    | nil => rfl
    | cons a zs ih => cases hf : f a <;> simp [hf, ih]
  have hsame : (xs.filter fun a => !(f a).isEmpty) = ys.filter fun a => !(f a).isEmpty := by
    have hperm := h.filter fun a => !(f a).isEmpty
    generalize (ys.filter fun a => !(f a).isEmpty) = zs at hperm one
    match zs, one with
    | [], _ => exact List.perm_nil.mp hperm
    | [a], _ => exact List.perm_singleton.mp hperm
  rw [← hfilter xs, ← hfilter ys, hsame]

namespace Catalog

variable {cat : Catalog} {q : Select}

variable {raw raw' : Option String} {limit limit' : Option Int} {term : Option String}

theorem orders_filter : (cat.additions q (.filter raw limit)).filterMap (·.order?) = [] := by
  unfold additions
  rw [List.filterMap_flatMap]
  refine List.flatMap_eq_nil_iff.mpr fun p _ => ?_
  simp [Addition.order?, Addition.ofTest]

theorem orders_search : (cat.additions q (.search term)).filterMap (·.order?) = [] := by
  unfold additions
  dsimp only
  split
  · rfl
  · split <;> rfl

theorem orders_of_perm {actions : List Action}
    (h : actions.Perm [.filter raw limit, .sort raw' limit', .search term]) :
    (actions.flatMap (cat.additions q)).filterMap (·.order?) =
      (cat.additions q (.sort raw' limit')).filterMap (·.order?) := by
  have hone : ([Action.filter raw limit, .sort raw' limit', .search term].filter fun action =>
      !((cat.additions q action).filterMap (·.order?)).isEmpty).length ≤ 1 := by
    simp only [List.filter_cons, List.filter_nil, orders_filter, orders_search, List.isEmpty_nil,
      Bool.not_true, Bool.false_eq_true, ↓reduceIte]
    split <;> simp
  rw [List.filterMap_flatMap, flatMap_of_perm h hone]
  simp only [List.flatMap_cons, List.flatMap_nil, orders_filter, orders_search, List.nil_append,
    List.append_nil]

end Catalog

namespace Desk

variable {cat : Catalog} {d : Desk Select} {raw raw' : Option String} {limit limit' : Option Int}
variable {term : Option String}

/-- On a session that joined what their conditions need, a filter, an order and a search may be
called in any order: each adds what it adds alone, and the session is the same, but for the order
of the elements of its `WHERE` list. So the rows that its query looks at are the same, too. Where
the outputs are columns, so is what the query gives, as long as the database takes it: in another
order of the tests, it may refuse an outer join that names a table to its right. -/
theorem calls_commute (isOpen : d.session.isOpen = true) (hm : cat.book.Reaches d.memory)
    (known : cat.Resolves d.session.query) (filtered : Needs cat d.session (.filter raw limit))
    (sorted : Needs cat d.session (.sort raw' limit')) {first second : List Action}
    (hfirst : first.Perm [.filter raw limit, .sort raw' limit', .search term])
    (hsecond : second.Perm [.filter raw limit, .sort raw' limit', .search term])
    (make : Nat → Select) :
    let e := run cat make first d
    let f := run cat make second d
    let q := e.session.query
    (cat.separator ≠ "" → first.forM (·.perform cat make) d = .ok () e) ∧
    e.session = d.session.adding (first.flatMap (cat.additions d.session.query)) ∧
    ∃ clauses, q.clauses.Perm clauses ∧
      f.session = { e.session with query := { q with clauses } } ∧
      ∀ ts, SameRows (q.matched ts) (f.session.query.matched ts) ∧
        ∀ rows, q.isComputed = false → q.fetch ts {} = .ok rows →
          (∃ rows', f.session.query.fetch ts {} = .ok rows' ∧ rows.Perm rows') ∨
            f.session.query.fetch ts {} = .error (.rejected .namesRight) := by
  intro e f q
  have hneeds : ∀ action ∈ [Action.filter raw limit, .sort raw' limit', .search term],
      Needs cat d.session action := by
    simp only [List.forall_mem_cons]
    exact ⟨filtered, sorted, trivial, nofun⟩
  have hat : At cat d.session [] d := ⟨(Session.adding_nil _).symm, isOpen, hm⟩
  obtain ⟨he, hsucceeds⟩ := leaves_run make known
    (fun action ha => hneeds action (hfirst.mem_iff.mp ha)) hat
  obtain ⟨hf, -⟩ := leaves_run make known
    (fun action ha => hneeds action (hsecond.mem_iff.mp ha)) hat
  have hperm := hfirst.trans hsecond.symm
  have horders : (second.flatMap (cat.additions d.session.query)).filterMap (·.order?) =
      (first.flatMap (cat.additions d.session.query)).filterMap (·.order?) :=
    (Catalog.orders_of_perm hsecond).trans (Catalog.orders_of_perm hfirst).symm
  obtain ⟨clauses, hclauses, hsession⟩ : ∃ clauses, q.clauses.Perm clauses ∧
      f.session = { e.session with query := q.withClauses clauses } := by
    refine ⟨f.session.query.clauses, ?_, ?_⟩
    · have hadded := (hperm.flatMap_right (cat.additions d.session.query)).filterMap (·.clause?)
      rw [show q = _ from congrArg (·.query) he.session, hf.session]
      exact hadded.append_left _
    · rw [show q = _ from congrArg (·.query) he.session, he.session, hf.session]
      exact Session.adding_perm (hperm.flatMap_right _) horders
  refine ⟨hsucceeds, he.session, clauses, hclauses, hsession, fun ts => ?_⟩
  rw [hsession]
  exact ⟨(Select.matched_shuffled hclauses ts).sameRows,
    fun rows hcolumns hq => Select.fetch_shuffled hclauses hcolumns hq⟩

def photographed : Desk Select :=
  run shownUsers (fun _ => allUsers) [.join (.named (.text "profile"))]
    (opened (fun _ => allUsers) {})

theorem calls_commute_users :
    let filtered := Action.filter (some "profile.photo:is_not-null@id:above_0") none
    let sorted := Action.sort (some "id:desc") none
    let searched := Action.search (some "a")
    let e := run shownUsers (fun _ => allUsers) [filtered, sorted, searched] photographed
    let f := run shownUsers (fun _ => allUsers) [searched, sorted, filtered] photographed
    photographed.session.isOpen = true ∧ shownUsers.book.Reaches photographed.memory ∧
      shownUsers.Resolves photographed.session.query ∧
      Needs shownUsers photographed.session filtered ∧
      Needs shownUsers photographed.session sorted ∧
      SameRows (e.session.query.matched Demo.tables) (f.session.query.matched Demo.tables) := by
  intro filtered sorted searched e f
  have hjoin : succeeds (join shownUsers (.named (.text "profile")))
      (opened (fun _ => allUsers) {}) = true := by decide +kernel
  obtain ⟨rel, known⟩ : ∃ rel, shownUsers.book.relationOf? (.named (.text "profile")) = some rel :=
    ⟨_, rfl⟩
  have happlied : HasApplied shownUsers photographed.session "profile" :=
    hasApplied_of_join .empty known (by decide +kernel) hjoin [] (by simp)
  have hm : shownUsers.book.Reaches photographed.memory := (moves_run _ (by simp) .empty).2
  have hopen : photographed.session.isOpen = true := by decide +kernel
  have hfits : Fits shownUsers allUsers photographed :=
    fits_run agrees_shownUsers (by decide) (by simp [Action.IsNamed])
      ⟨rfl, rfl, rfl, .empty, nofun⟩
  have hresolves : shownUsers.Resolves photographed.session.query :=
    ⟨fun use column h => (agrees_shownUsers.granted use column h).congr hfits.schema hfits.base,
      fun column h => (agrees_shownUsers.searchable column h).congr hfits.schema hfits.base⟩
  have hneeds : Needs shownUsers photographed.session filtered := by
    have hnames : ∀ p ∈ shownUsers.compiled .filter Predicate.compile
        (some "profile.photo:is_not-null@id:above_0") none,
        ∀ name ∈ p.1.relation, name = "profile" := by decide +kernel
    exact fun p hp name hname => hnames p hp name hname ▸ happlied
  have hneeds' : Needs shownUsers photographed.session sorted := by
    have hnames : ∀ p ∈ shownUsers.compiled .sort Order.compile (some "id:desc") none,
        ∀ name ∈ p.1.relation, name = "profile" := by decide +kernel
    exact fun p hp name hname => hnames p hp name hname ▸ happlied
  have hfirst : [filtered, sorted, searched].Perm [filtered, sorted, searched] := .refl _
  have hsecond : [searched, sorted, filtered].Perm [filtered, sorted, searched] :=
    List.reverse_perm [filtered, sorted, searched]
  obtain ⟨-, -, clauses, -, -, hrows⟩ :=
    calls_commute hopen hm hresolves hneeds hneeds' hfirst hsecond fun _ => allUsers
  exact ⟨hopen, hm, hresolves, hneeds, hneeds', (hrows Demo.tables).1⟩

/-- Users with the articles of their role. The hops come in an odd order: the articles are joined
before the roles, whom their condition names. -/
def writingUsers : Catalog where
  book := ⟨"users", [("writings", {
    chain := [("users.pic_id", "user_pictures.id"), ("roles.id", "articles.author_id"),
      ("users.role_id", "roles.id")]
    joinKind := .left })]⟩
  filterable := ["articles.title"]
  searchable := ["name"]

/-- A search before the filter makes the database refuse the query. A test that some column is not
null lets it take the left join of its table for an inner one, which may name the roles further on.
But it counts only as the first test. -/
theorem search_first_refused :
    let d := run writingUsers (fun _ => allUsers) [.join (.named (.text "writings"))]
      (opened (fun _ => allUsers) {})
    let filtered := Action.filter (some "articles.title:is_not-null") none
    let searched := Action.search (some "Alan")
    let e := run writingUsers (fun _ => allUsers) [filtered, .sort none none, searched] d
    let f := run writingUsers (fun _ => allUsers) [searched, .sort none none, filtered] d
    d.session.isOpen = true ∧
      (∀ column ∈ writingUsers.filterable ++ writingUsers.searchable,
        d.session.query.Finds (writingUsers.book.qualify column)) ∧
      (writingUsers.compiled .filter Predicate.compile (some "articles.title:is_not-null") none).map
        (·.1.relation) = [none] ∧
      (e.session.query.fetch Demo.tables {}).toOption.map List.length = some 1 ∧
      (f.session.query.fetch Demo.tables {}).toOption.isNone = true := by
  decide +kernel

end Desk

end Winnow
