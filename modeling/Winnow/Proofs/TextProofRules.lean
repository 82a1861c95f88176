import Winnow.Proofs.TextReach
import Winnow.Proofs.PredicateTests

namespace Winnow.Desk

variable {Q α : Type}

/-- A property of steps that holds of the small ones and of one step after another. -/
structure Steps (G : ∀ {α : Type}, Build Q α → Prop) : Prop where
  pure {α : Type} (a : α) : G (pure a)
  bind {α β : Type} {step : Build Q α} {next : α → Build Q β} :
    G step → (∀ a, G (next a)) → G (step >>= next)
  note (n : Note) : G (note n)
  enter : G enter

/-- Such a property for which it does not matter what was asked before: the column behind a
reference is the one that it has without a memory. -/
structure Rules (cat : Catalog) (G : ∀ {α : Type}, Build Q α → Prop) : Prop extends Steps G where
  column {α : Type} {use : Use} {given : String} {next : Option FoundColumn → Build Q α} :
    G (next (cat.columnOf? use given)) → G (column cat use given >>= next)

/-- Such a property of the steps that join a relation by calls that are permitted. -/
structure JoinRules (G : ∀ {α : Type}, Build Q α → Prop) [QueryTarget Q] (permitted : Call → Prop) :
    Prop extends Steps G where
  joins {α : Type} {next : Joins → Build Q α} : (∀ j, G (next j)) → G (joins >>= next)
  change {f : Joins → Joins} : (∀ j, (f j).selected = j.selected) →
    G (do setJoins (f (← Desk.joins)))
  issue {c : Call} : permitted c → G (issue c)

/-- What a text of a client may make: calls on a column that is behind a reference, and joins of
the relation that the reference names. -/
structure Permits (cat : Catalog) (G : ∀ {α : Type}, Build Q α → Prop) [QueryTarget Q]
    (use : Use) (sends : String → Call → Prop) : Prop where
  scan (limit : Option Int) (raw : String) : G (ofExcept (Segment.scan cat.separator limit raw))
  call {given : String} {found : FoundColumn} {c : Call} : cat.columnOf? use given = some found →
    sends found.column c → G (issue c)
  join {given relation : String} {found : FoundColumn} : cat.columnOf? use given = some found →
    found.relation = some relation → G (join cat (.named (.text relation)))

namespace Rules

variable [QueryTarget Q] {cat : Catalog} {G : ∀ {α : Type}, Build Q α → Prop}
variable {use : Use} {sends : String → Call → Prop} {compile : String → String → Option α}
variable {send : α → Build Q Unit}

theorem issueAll (rules : Rules cat G) {calls : List Call} (h : ∀ c ∈ calls, G (issue c)) :
    G (issueAll calls) := by
  induction calls with
  | nil => exact rules.pure ()
  | cons c calls ih => exact rules.bind (h c (by simp)) fun _ => ih fun c hc => h c (by simp [hc])

theorem work (rules : Rules cat G) (permits : Permits cat G use sends)
    (hsend : ∀ column expression a, compile column expression = some a →
      (∀ c, sends column c → G (issue c)) → G (send a)) (segments : List Segment) :
    G (work cat use compile send segments) := by
  induction segments with
  | nil => exact rules.pure []
  | cons s rest ih =>
    cases s with
    | malformed text => exact rules.bind (rules.note _) fun _ => ih
    | condition c =>
      refine rules.column ?_
      cases hf : cat.columnOf? use c.column with
      | none => exact rules.bind (rules.note _) fun _ => ih
      | some found =>
        cases hc : compile found.column c.expression with
        | none =>
          simp only [hc]
          exact rules.bind (rules.note _) fun _ => ih
        | some a =>
          simp only [hc]
          have hrest := rules.bind rules.enter fun _ =>
            rules.bind (hsend _ _ a hc fun c hs => permits.call hf hs) fun _ =>
              rules.bind ih fun applied => rules.pure (a :: applied)
          refine rules.bind (rules.note _) fun _ => ?_
          cases hr : found.relation with
          | none => exact hrest
          | some relation => exact rules.bind (permits.join hf hr) fun _ => hrest

theorem workText (rules : Rules cat G) (permits : Permits cat G use sends)
    (hsend : ∀ column expression a, compile column expression = some a →
      (∀ c, sends column c → G (issue c)) → G (send a)) (raw : Option String)
    (limit : Option Int) : G (workText cat use compile send raw limit) :=
  rules.bind (permits.scan _ _) fun segments => rules.work permits hsend segments

theorem filter (rules : Rules cat G)
    (permits : Permits cat G .filter fun s c => ∀ ref, ∃ test, Call.Adds s ref c test)
    (raw : Option String) (limit : Option Int) : G (filter cat raw limit) := by
  refine rules.workText permits (fun column expression p hp hcalls => ?_) raw limit
  obtain ⟨calls, hc⟩ := calls_ok hp
  have hadds : ∀ c ∈ calls, ∀ ref, ∃ test, Call.Adds p.column ref c test :=
    fun c hm ref => Call.Adds.exists_of_mem (Predicate.adds_of_calls ref hc) hm
  rw [(Predicate.compiles_of_compile hp).2] at hadds
  unfold sendPredicate
  rw [hc]
  exact rules.issueAll fun c hm => hcalls c (hadds c hm)

theorem sort (rules : Rules cat G)
    (permits : Permits cat G .sort fun s c =>
      ∃ direction : Direction, c = .orderBy s direction.name)
    (raw : Option String) (limit : Option Int) : G (sort cat raw limit) := by
  refine rules.workText permits (fun column expression o ho hcalls => ?_) raw limit
  rw [← (Order.compiles_of_compile ho).2] at hcalls
  exact hcalls _ ⟨o.direction, rfl⟩

theorem search (rules : Rules cat G) {term : Option String}
    (hcalls : ∀ s, ∀ c ∈ searchCalls cat s, G (issue c)) : G (search cat term) := by
  unfold Desk.search
  cases term with
  | none => exact rules.pure ()
  | some s =>
    simp only
    split
    next => exact rules.pure ()
    next => exact rules.bind rules.enter fun _ => rules.issueAll (hcalls s)

theorem joinAll (rules : Rules cat G) {refs : List RelationRef}
    (hjoin : ∀ ref ∈ refs, G (join cat ref)) : G (joinAll cat refs) := by
  induction refs with
  | nil => exact rules.pure ()
  | cons ref refs ih =>
    have hrest := ih fun ref hr => hjoin ref (by simp [hr])
    have hone := hjoin ref (by simp)
    unfold Desk.joinAll
    split
    next => exact rules.bind hone fun _ => hrest
    next => exact rules.bind hone fun _ => hrest
    next => exact rules.bind (rules.pure ()) fun _ => hrest

end Rules

namespace JoinRules

variable [QueryTarget Q] {cat : Catalog} {G : ∀ {α : Type}, Build Q α → Prop}
variable {permitted : Call → Prop}

theorem guardAll (rules : JoinRules G permitted) {tables : List String}
    (hguard : ∀ table ∈ tables, permitted (cat.guardCall table)) : G (guardAll cat tables) := by
  induction tables with
  | nil => exact rules.pure ()
  | cons table tables ih =>
    have hone : G (guard cat table) := by
      refine rules.joins fun j => ?_
      split
      · exact rules.bind rules.enter fun _ =>
          rules.bind (rules.issue (hguard table (by simp))) fun _ => rules.change fun _ => rfl
      · exact rules.pure ()
    exact rules.bind hone fun _ => ih fun t ht => hguard t (by simp [ht])

theorem joinHop (rules : JoinRules G permitted) {rel : Relation} {kind : JoinKind} {first : Bool}
    {hop : Hop} (hjoin : permitted (hop.call kind))
    (hguard : ∀ table ∈ guardedBy rel first hop, permitted (cat.guardCall table)) :
    G (joinHop cat rel kind first hop) := by
  refine rules.joins fun j => ?_
  split
  · have htable : G (do setJoins ((← Desk.joins).addTable hop.toTable)) :=
      rules.change fun _ => rfl
    have hall := rules.bind (rules.issue hjoin) fun _ => rules.bind htable fun _ =>
      rules.bind (rules.note (.joined hop.toTable hop.fromColumn hop.toColumn kind)) fun _ =>
        rules.guardAll hguard
    simp only [bind_assoc] at hall
    exact hall
  · exact rules.pure ()

theorem joinHops (rules : JoinRules G permitted) {rel : Relation} {kind : JoinKind} {first : Bool}
    {hops : List Hop} (hjoin : ∀ hop ∈ hops, permitted (hop.call kind))
    (hguard : ∀ hop ∈ hops, ∀ table ∈ rel.softDelete, table ∈ [hop.fromTable, hop.toTable] →
      permitted (cat.guardCall table)) : G (joinHops cat rel kind first hops) := by
  induction hops generalizing first with
  | nil => exact rules.pure ()
  | cons hop hops ih =>
    refine rules.bind (rules.joinHop (hjoin hop (by simp)) fun table ht => ?_) fun _ =>
      ih (fun h hm => hjoin h (by simp [hm])) fun h hm => hguard h (by simp [hm])
    obtain ⟨hs, hside⟩ := mem_guardedBy.mp ht
    refine hguard hop (by simp) table hs ?_
    rcases hside with rfl | ⟨-, rfl⟩ <;> simp

/-- A relation for which something is left to do is selected from and joined hop by hop; `answers`
are the routes that may be found for it. -/
theorem join (rules : JoinRules G permitted) {ref : RelationRef} (answers : Route → Prop)
    (hroute : ∀ {α : Type} {next : Route → Build Q α}, (∀ r, answers r → G (next r)) →
      G (route cat ref >>= next))
    (hselect : ∀ rel r, cat.book.relationOf? ref = some rel → answers r → r.hops ≠ [] →
      G (selectEntries cat (rel.entries.map normalizeEntry)))
    (hhops : ∀ rel r, cat.book.relationOf? ref = some rel → answers r → r.hops ≠ [] →
      G (Desk.joinHops cat rel r.joinKind true r.hops)) : G (join cat ref) := by
  have happly : G (applyRelation cat ref) := by
    refine hroute fun r hr => ?_
    cases known : cat.book.relationOf? ref with
    | none => exact rules.pure r
    | some rel =>
      refine rules.joins fun j => ?_
      split
      next => exact rules.pure r
      next hskip =>
        have hne : r.hops ≠ [] := by
          intro he
          simp [he] at hskip
        exact rules.bind rules.enter fun _ => rules.bind (hselect rel r known hr hne) fun _ =>
          rules.bind (hhops rel r known hr hne) fun _ => rules.pure r
  exact rules.bind happly fun _ => rules.pure ()

end JoinRules

end Winnow.Desk
