import Mathlib.Data.Multiset.Basic
import Winnow.Proofs.AcceptedCalls
import Winnow.Proofs.OuterJoinWidening

open List (Forall₂)

namespace Winnow

variable {ts : Tables} {env env' a b : Env} {on : JoinOn} {tables : List TableDef}

/-- What stands side by side in a row, in whatever order. -/
def Env.bag (env : Env) : Multiset Bound := env

/-- Rows that are the same up to their order and the order of the tables in each of them. -/
def SameRows (xs ys : List Env) : Prop := (xs.map Env.bag).Perm (ys.map Env.bag)

namespace Textbook

/-- Whether two rows match. -/
def meets (on : JoinOn) (a b : Env) : Bool := (on.eval (a ++ b)).isTrue

/-- The rows of both sides that match, side by side. -/
def pairs (on : JoinOn) (left right : List Env) : List Env :=
  left.flatMap fun a => (right.filter (meets on a)).map (a ++ ·)

/-- A row of nulls for each of some tables. -/
def nulls (tables : List TableDef) : Env := tables.map fun t => ⟨t, t.nullRow⟩

/-- The rows of a side that match nothing stay in an outer join, beside nulls. -/
def join (on : JoinOn) (leftNulls rightNulls : Env) (left right : List Env) :
    JoinKind → List Env
  | .inner => pairs on left right
  | .left => pairs on left right ++
      (left.filter fun a => !right.any (meets on a)).map (· ++ rightNulls)
  | .right => pairs on left right ++
      (right.filter fun b => !left.any fun a => meets on a b).map (leftNulls ++ ·)

def tableRows (ts : Tables) (t : TableDef) : List Env :=
  (ts.rowsOf t.name).map fun row => [⟨t, row⟩]

end Textbook

/-- What a join adds to a query. -/
structure Added where
  table : TableDef
  on : JoinOn
  kind : JoinKind
  deriving Repr

/-- The rows after some joins of tables with rows, one join after the other. -/
def Textbook.fold (ts : Tables) (tables : List TableDef) (rows : List Env) :
    List Added → List Env
  | [] => rows
  | new :: rest => fold ts (tables ++ [new.table])
      (join new.on (nulls tables) (nulls [new.table]) rows (tableRows ts new.table) new.kind) rest

section Lists

variable {α β γ : Type}

theorem map_filter_eq_flatMap (p : α → Bool) (f : α → β) (xs : List α) :
    (xs.filter p).map f = xs.flatMap fun a => if p a then [f a] else [] := by
  induction xs with
  | nil => rfl
  | cons a xs ih =>
    rw [List.flatMap_cons, ← ih]
    cases hp : p a <;> simp [hp]

theorem flatMap_ite_perm {p : α → Bool} {g : α → List β} (h : ∀ a, p a = true → g a = [])
    (f : α → β) (xs : List α) :
    (xs.flatMap fun a => if p a then [f a] else g a).Perm
      (xs.flatMap g ++ (xs.filter p).map f) := by
  have heach : (fun a => if p a then [f a] else g a) =
      fun a => g a ++ if p a then [f a] else [] := by
    funext a
    cases hp : p a with
    | true => simp [h a hp]
    | false => simp
  rw [heach, map_filter_eq_flatMap]
  exact (List.flatMap_append_perm xs g _).symm

theorem flatMap_exchange (p : α → β → Bool) (f : α → β → γ) (xs : List α) (ys : List β) :
    (xs.flatMap fun a => (ys.filter (p a)).map (f a)).Perm
      (ys.flatMap fun b => (xs.filter (p · b)).map (f · b)) := by
  induction xs with
  | nil => simp
  | cons a xs ih =>
    have heach : (fun b => ((a :: xs).filter (p · b)).map (f · b)) =
        fun b => (if p a b then [f a b] else []) ++ (xs.filter (p · b)).map (f · b) := by
      funext b
      cases hp : p a b <;> simp [hp]
    rw [heach, List.flatMap_cons, map_filter_eq_flatMap]
    exact (ih.append_left _).trans (List.flatMap_append_perm ys _ _)

/-- What is made of lists that look the same up to their order, element by element, looks the
same. -/
theorem flatMap_of_look {δ : Type} {look : α → γ} {look' : β → δ} {f g : α → List β}
    {xs ys : List α} (h : (xs.map look).Perm (ys.map look))
    (hfg : ∀ a ∈ xs, ∀ b ∈ ys, look b = look a → ((f a).map look').Perm ((g b).map look')) :
    ((xs.flatMap f).map look').Perm ((ys.flatMap g).map look') := by
  induction xs generalizing ys with
  | nil =>
    have hnone : ys = [] := List.map_eq_nil_iff.mp (List.nil_perm.mp h)
    rw [hnone]
    exact .refl []
  | cons a xs ih =>
    obtain ⟨b, hb, hab⟩ := List.mem_map.mp (h.subset (List.mem_map_of_mem List.mem_cons_self))
    obtain ⟨front, back, rfl⟩ := List.append_of_mem hb
    have hmid := h.trans (List.perm_middle.map look)
    rw [List.map_cons, List.map_cons, hab] at hmid
    have hrest : ((xs.flatMap f).map look').Perm (((front ++ back).flatMap g).map look') := by
      refine ih hmid.cons_inv fun a' ha' b' hb' => hfg a' (List.mem_cons_of_mem _ ha') b' ?_
      rcases List.mem_append.mp hb' with hb' | hb'
      · exact List.mem_append_left _ hb'
      · exact List.mem_append_right _ (List.mem_cons_of_mem _ hb')
    have hfirst := hfg a List.mem_cons_self b hb hab
    have hmoved : ((front ++ b :: back).flatMap g).Perm ((b :: (front ++ back)).flatMap g) :=
      List.perm_middle.flatMap_right g
    refine List.Perm.trans ?_ (hmoved.symm.map look')
    rw [List.flatMap_cons, List.flatMap_cons, List.map_append, List.map_append]
    exact hfirst.append hrest

end Lists

theorem find?_of_perm (h : env.Perm env') (distinct : (env.map (·.table.name)).Nodup)
    (c : ColumnRef) : env'.find? c = env.find? c := by
  induction h with
  | nil => rfl
  | cons x _ ih =>
    have hrest := ih (List.nodup_cons.mp distinct).2
    unfold Env.find? at hrest ⊢
    rw [List.find?_cons, List.find?_cons, hrest]
  | swap x y rest =>
    have hne : y.table.name ≠ x.table.name := by
      intro he
      have := (List.nodup_cons.mp distinct).1
      simp [he] at this
    unfold Env.find?
    by_cases hx : x.table.name = c.table
    · have hy : y.table.name ≠ c.table := hx ▸ hne
      simp [hx, hy]
    · simp [List.find?_cons, hx]
  | trans h _ ih ih' =>
    have hmid := (h.map (·.table.name)).nodup distinct
    rw [ih' hmid, ih distinct]

namespace SameRows

variable {xs ys zs ws : List Env}

theorem refl (xs : List Env) : SameRows xs xs := List.Perm.refl _

theorem symm (h : SameRows xs ys) : SameRows ys xs := List.Perm.symm h

theorem trans (h : SameRows xs ys) (h' : SameRows ys zs) : SameRows xs zs := List.Perm.trans h h'

theorem of_perm (h : xs.Perm ys) : SameRows xs ys := h.map _

theorem append (h : SameRows xs ys) (h' : SameRows zs ws) : SameRows (xs ++ zs) (ys ++ ws) := by
  unfold SameRows
  rw [List.map_append, List.map_append]
  exact List.Perm.append h h'

theorem exists_perm (h : SameRows xs ys) (ha : a ∈ xs) : ∃ b ∈ ys, b.Perm a := by
  obtain ⟨b, hb, hbag⟩ := List.mem_map.mp (h.subset (List.mem_map_of_mem ha))
  exact ⟨b, hb, Multiset.coe_eq_coe.mp hbag⟩

theorem any_eq {p q : Env → Bool} (h : SameRows xs ys)
    (hpq : ∀ a ∈ xs, ∀ b ∈ ys, b.Perm a → q b = p a) : ys.any q = xs.any p := by
  apply Bool.eq_iff_iff.mpr
  rw [List.any_eq_true, List.any_eq_true]
  constructor
  · rintro ⟨b, hb, hq⟩
    obtain ⟨a, ha, hab⟩ := h.symm.exists_perm hb
    exact ⟨a, ha, hpq a ha b hb hab.symm ▸ hq⟩
  · rintro ⟨a, ha, hp⟩
    obtain ⟨b, hb, hab⟩ := h.exists_perm ha
    exact ⟨b, hb, (hpq a ha b hb hab).trans hp⟩

theorem flatMap {f g : Env → List Env} (h : SameRows xs ys)
    (hfg : ∀ a ∈ xs, ∀ b ∈ ys, b.Perm a → SameRows (f a) (g b)) :
    SameRows (xs.flatMap f) (ys.flatMap g) :=
  flatMap_of_look h fun a ha b hb hab => hfg a ha b hb (Multiset.coe_eq_coe.mp hab)

theorem filter_map {p q : Env → Bool} {f g : Env → Env} (h : SameRows xs ys)
    (hpq : ∀ a ∈ xs, ∀ b ∈ ys, b.Perm a → q b = p a ∧ (g b).Perm (f a)) :
    SameRows ((xs.filter p).map f) ((ys.filter q).map g) := by
  rw [map_filter_eq_flatMap, map_filter_eq_flatMap]
  refine h.flatMap fun a ha b hb hab => ?_
  obtain ⟨hp, hf⟩ := hpq a ha b hb hab
  rw [hp]
  split
  · exact List.Perm.of_eq (congrArg (fun x => [x]) (Multiset.coe_eq_coe.mpr hf.symm))
  · exact refl []

end SameRows

namespace Textbook

variable {left left' right rows : List Env} {leftNulls rightNulls : Env}

def Distinct (left right : List Env) : Prop :=
  ∀ a ∈ left, ∀ b ∈ right, ((a ++ b).map (·.table.name)).Nodup

theorem meets_of_perm {a' b' : Env} (h : (a' ++ b').Perm (a ++ b))
    (distinct : ((a ++ b).map (·.table.name)).Nodup) : meets on a' b' = meets on a b := by
  have hfind := find?_of_perm h.symm distinct
  unfold meets
  rw [JoinOn.eval_congr (hfind on.left) (hfind on.right)]

theorem join_congr (h : SameRows left left') (apart : Distinct left right) {leftNulls' : Env}
    (hnulls : leftNulls'.Perm leftNulls) (kind : JoinKind) :
    SameRows (join on leftNulls rightNulls left right kind)
      (join on leftNulls' rightNulls left' right kind) := by
  have hsame : SameRows right right := .refl right
  have hmeets : ∀ a ∈ left, ∀ a' ∈ left', a'.Perm a → ∀ b ∈ right, ∀ b' ∈ right, b'.Perm b →
      meets on a' b' = meets on a b :=
    fun a ha a' _ hp b hb b' _ hp' => meets_of_perm (hp.append hp') (apart a ha b hb)
  have hpairs : SameRows (pairs on left right) (pairs on left' right) :=
    h.flatMap fun a ha a' ha' hp => hsame.filter_map fun b hb b' hb' hp' =>
      ⟨hmeets a ha a' ha' hp b hb b' hb' hp', hp.append hp'⟩
  cases kind with
  | inner => exact hpairs
  | left =>
    refine hpairs.append (h.filter_map fun a ha a' ha' hp => ⟨?_, hp.append_right _⟩)
    rw [hsame.any_eq (hmeets a ha a' ha' hp)]
  | right =>
    refine hpairs.append (hsame.filter_map fun b hb b' hb' hp' => ⟨?_, hnulls.append hp'⟩)
    rw [h.any_eq fun a ha a' ha' hp => hmeets a ha a' ha' hp b hb b' hb' hp']

theorem join_swap (apart : Distinct left right) :
    SameRows (join on rightNulls leftNulls right left .left)
      (join on leftNulls rightNulls left right .right) := by
  have hleft : SameRows left left := .refl left
  have hright : SameRows right right := .refl right
  have hrow : ∀ {a a' b b' : Env}, a'.Perm a → b'.Perm b → (a' ++ b').Perm (b ++ a) :=
    fun ha hb => (ha.append hb).trans List.perm_append_comm
  have hmeets : ∀ a ∈ left, ∀ a' ∈ left, a'.Perm a → ∀ b ∈ right, ∀ b' ∈ right, b'.Perm b →
      meets on a' b' = meets on b a := by
    intro a ha a' _ hp b hb b' _ hp'
    have hnames : ((a ++ b).map (·.table.name)).Perm ((b ++ a).map (·.table.name)) :=
      List.perm_append_comm.map _
    exact meets_of_perm (hrow hp hp') (hnames.nodup (apart a ha b hb))
  have hpairs : SameRows (pairs on right left) (pairs on left right) := by
    refine (SameRows.of_perm (flatMap_exchange (meets on) (· ++ ·) right left)).trans ?_
    exact hleft.flatMap fun a ha a' ha' hp => hright.filter_map fun b hb b' hb' hp' =>
      ⟨hmeets a ha a' ha' hp b hb b' hb' hp', hrow hp hp'⟩
  refine hpairs.append (hright.filter_map fun b hb b' hb' hp' => ⟨?_, hrow (.refl _) hp'⟩)
  rw [hleft.any_eq fun a ha a' ha' hp => hmeets a ha a' ha' hp b hb b' hb' hp']

end Textbook

namespace Source

open Textbook

variable {left right : List Env} {s : Source} {t : TableDef}

theorem joins_eq_meets (h : on.isWithin ((a ++ b).map (·.table)) = true) :
    joins on (a ++ b) = meets on a b := by
  unfold joins
  rw [h]
  rfl

theorem flatMap_joinRow (outer : Bool) (rightNulls leftNulls : Env)
    (within : ∀ a ∈ left, ∀ b ∈ right, on.isWithin ((a ++ b).map (·.table)) = true) :
    (left.flatMap (joinRow on outer rightNulls right)).Perm
      (Textbook.join on leftNulls rightNulls left right (if outer then .left else .inner)) := by
  have hfound : ∀ a ∈ left, right.filter (fun b => joins on (a ++ b)) = right.filter (meets on a) :=
    fun a ha => List.filter_congr fun b hb => joins_eq_meets (within a ha b hb)
  cases outer with
  | false =>
    refine List.Perm.of_eq (List.flatMap_congr fun a ha => ?_)
    unfold joinRow
    rw [hfound a ha]
    rfl
  | true =>
    have hrows : left.flatMap (joinRow on true rightNulls right) = left.flatMap fun a =>
        if !right.any (meets on a) then [a ++ rightNulls]
        else (right.filter (meets on a)).map (a ++ ·) := by
      refine List.flatMap_congr fun a ha => ?_
      unfold joinRow
      rw [hfound a ha]
      have hempty : (right.filter (meets on a)).isEmpty = !right.any (meets on a) := by
        rw [Bool.eq_iff_iff]
        simp [List.isEmpty_iff]
      simp only [hempty, Bool.true_and]
    rw [hrows]
    refine flatMap_ite_perm (fun a h => ?_) (· ++ rightNulls) left
    have hnone : right.filter (meets on a) = [] := by simpa using h
    rw [hnone, List.map_nil]

theorem rows_join {l r : Source} {outer : Bool} (h : r.late = []) :
    (join l r on outer).rows ts =
      (l.rows ts).flatMap (joinRow on outer (nulls r.tables) (r.rows ts)) := by
  have hall : (r.rows ts).filter r.keepsLate = r.rows ts := by
    refine List.filter_eq_self.mpr fun env _ => ?_
    unfold keepsLate
    rw [h]
    rfl
  change (l.rows ts).flatMap (joinRow on outer r.nullEnv ((r.rows ts).filter r.keepsLate)) = _
  rw [hall]
  rfl

theorem late_join {l r : Source} {outer : Bool} (h : on.isWithin (l.tables ++ r.tables) = true) :
    (join l r on outer).late = l.late := by
  rw [late, if_pos h, List.append_nil]

/-- A source that stands for rows of tables which were joined in this order, with all conditions
looked at. -/
structure Means (ts : Tables) (tables : List TableDef) (rows : List Env) (s : Source) : Prop where
  tables : s.tables.Perm tables
  rows : SameRows (s.rows ts) rows
  late : s.late = []

theorem Means.join {rows : List Env} (h : Means ts tables rows s)
    (distinct : ((tables ++ [t]).map (·.name)).Nodup)
    (within : on.isWithin (tables ++ [t]) = true) (kind : JoinKind) :
    Means ts (tables ++ [t])
      (Textbook.join on (nulls tables) (nulls [t]) rows (tableRows ts t) kind)
      (Select.joinSource s t on kind) := by
  have htables : (s.tables ++ [t]).Perm (tables ++ [t]) := h.tables.append_right [t]
  have hpair : ∀ a ∈ s.rows ts, ∀ b ∈ tableRows ts t, (a ++ b).map (·.table) = s.tables ++ [t] := by
    intro a ha b hb
    obtain ⟨row, -, rfl⟩ := List.mem_map.mp hb
    rw [List.map_append, tables_of_mem_rows ha]
    rfl
  have apart : Distinct (s.rows ts) (tableRows ts t) := by
    intro a ha b hb
    have hnames := (htables.map (·.name)).symm.nodup distinct
    rw [← hpair a ha b hb, List.map_map] at hnames
    exact hnames
  have hwithin : ∀ l : List TableDef, l.Perm (tables ++ [t]) → on.isWithin l = true := by
    intro l hl
    rw [JoinOn.isWithin_iff] at within ⊢
    exact fun name hn => (hl.map (·.name)).mem_iff.mpr (within name hn)
  have hnulls : (nulls tables).Perm (nulls s.tables) := h.tables.symm.map _
  have hcongr : SameRows
      (Textbook.join on (nulls s.tables) (nulls [t]) (s.rows ts) (tableRows ts t) kind)
      (Textbook.join on (nulls tables) (nulls [t]) rows (tableRows ts t) kind) :=
    join_congr h.rows apart hnulls kind
  have hplain : ∀ outer, ((Source.join s (.table t) on outer).rows ts).Perm
      (Textbook.join on (nulls s.tables) (nulls [t]) (s.rows ts) (tableRows ts t)
        (if outer then .left else .inner)) := by
    intro outer
    rw [rows_join rfl]
    exact flatMap_joinRow outer _ _ fun a ha b hb => hwithin _ (hpair a ha b hb ▸ htables)
  cases kind with
  | inner =>
    refine ⟨htables, (SameRows.of_perm (hplain false)).trans hcongr, ?_⟩
    rw [Select.joinSource, late_join (hwithin _ htables), h.late]
  | left =>
    refine ⟨htables, (SameRows.of_perm (hplain true)).trans hcongr, ?_⟩
    rw [Select.joinSource, late_join (hwithin _ htables), h.late]
  | right =>
    -- the new table is on the left of the tree, and all that was joined before on its right
    have hturned : ((Source.table t).tables ++ s.tables).Perm (tables ++ [t]) :=
      List.perm_append_comm.trans htables
    have hrows : ((Source.join (.table t) s on true).rows ts).Perm
        (Textbook.join on (nulls [t]) (nulls s.tables) (tableRows ts t) (s.rows ts) .left) := by
      rw [rows_join h.late]
      refine flatMap_joinRow true _ _ fun b hb a ha => hwithin _ ?_
      have hcomm : ((b ++ a).map (·.table)).Perm ((a ++ b).map (·.table)) :=
        List.perm_append_comm.map _
      exact hcomm.trans (hpair a ha b hb ▸ htables)
    refine ⟨hturned, ((SameRows.of_perm hrows).trans (join_swap apart)).trans hcongr, ?_⟩
    rw [Select.joinSource, late_join (hwithin _ hturned)]
    rfl

end Source

/-- A call for a join, of a type that there is. -/
structure Joining where
  table : String
  first : String
  operator : String
  second : String
  kind : JoinKind

namespace Joining

def call (j : Joining) : Call := .join j.table j.first j.operator j.second (.ok j.kind)

/-- What a join asks for. -/
structure Adds (schema : Schema) (base : String) (j : Joining) (new : Added) : Prop where
  table : schema.table? j.table = some new.table
  left : new.on.left = .named base j.first
  comparison : Comparison.ofText? j.operator = some new.on.comparison
  right : new.on.right = .named base j.second
  kind : new.kind = j.kind

/-- Whether the condition of each join names only tables joined so far and the new one. -/
def Scoped (base : String) (names : List String) : List Joining → Prop
  | [] => True
  | j :: rest =>
    (∀ reference ∈ [j.first, j.second],
      (ColumnRef.named base reference).table ∈ names ++ [j.table]) ∧
      Scoped base (names ++ [j.table]) rest

instance decidableScoped (base : String) :
    (names : List String) → (joins : List Joining) → Decidable (Scoped base names joins)
  | _, [] => isTrue trivial
  | names, j :: rest =>
    have := decidableScoped base (names ++ [j.table]) rest
    inferInstanceAs (Decidable (_ ∧ _))

end Joining

namespace Select

variable {q : Select} {j : Joining}

theorem step_joining (known : j.call.IsKnown q.schema q.base.name) :
    ∃ new, j.Adds q.schema q.base.name new ∧ q.step j.call =
      .ok { q with source := joinSource q.source new.table new.on new.kind } := by
  obtain ⟨htable, hoperator, hfirst, hsecond⟩ := known
  obtain ⟨t, ht⟩ := Option.isSome_iff_exists.mp htable
  obtain ⟨comparison, hc⟩ :=
    Option.isSome_iff_exists.mp ((Comparison.ofText?_isSome_iff j.operator).mpr hoperator)
  refine ⟨⟨t, ⟨.named q.base.name j.first, comparison, .named q.base.name j.second⟩, j.kind⟩,
    ⟨ht, rfl, hc, rfl, rfl⟩, ?_⟩
  have hfound : q.findTable j.table = .ok t := by
    unfold findTable
    rw [ht]
  have hcompares : findComparison j.operator = .ok comparison := by
    unfold findComparison
    rw [hc]
  unfold Joining.call
  simp only [step, hfound, hcompares, (finds_of_knows hfirst).findColumn,
    (finds_of_knows hsecond).findColumn]
  rfl

/-- Joins that are called one after the other build a tree of the rows that the textbook gives. -/
theorem means_joins (tables : List TableDef) {joins : List Joining}
    (known : ∀ j ∈ joins, j.call.IsKnown q.schema q.base.name)
    (distinct : (tables.map (·.name) ++ joins.map (·.table)).Nodup)
    (within : Joining.Scoped q.base.name (tables.map (·.name)) joins) :
    ∃ source added, Forall₂ (Joining.Adds q.schema q.base.name) joins added ∧
      Repository.callAll (joins.map (·.call)) q = .ok () { q with source } ∧
      ∀ ts rows, q.source.Means ts tables rows →
        source.Means ts (tables ++ added.map (·.table)) (Textbook.fold ts tables rows added) := by
  induction joins generalizing q tables with
  | nil =>
    refine ⟨q.source, [], .nil, rfl, fun ts rows h => ?_⟩
    rw [List.map_nil, List.append_nil]
    exact h
  | cons j joins ih =>
    obtain ⟨hj, hknown⟩ := List.forall_mem_cons.mp known
    obtain ⟨hnames, hrest⟩ := within
    obtain ⟨new, hadds, hstep⟩ := step_joining hj
    have hname : new.table.name = j.table := by simpa using List.find?_some hadds.table
    have htables : (tables ++ [new.table]).map (·.name) = tables.map (·.name) ++ [j.table] := by
      rw [List.map_append, ← hname]
      rfl
    have hdistinct : ((tables ++ [new.table]).map (·.name) ++ joins.map (·.table)).Nodup := by
      rw [htables, List.append_assoc]
      exact distinct
    obtain ⟨source, added, hadded, hcalls, hmeans⟩ :=
      ih (q := { q with source := joinSource q.source new.table new.on new.kind }) _ hknown
        hdistinct (htables ▸ hrest)
    refine ⟨source, new :: added, .cons hadds hadded, ?_, fun ts rows h => ?_⟩
    · rw [List.map_cons, Repository.callAll_cons hstep]
      exact hcalls
    · have hwithin : new.on.isWithin (tables ++ [new.table]) = true := by
        rw [JoinOn.isWithin_iff, htables]
        unfold JoinOn.names
        rw [hadds.left, hadds.right]
        simpa using hnames
      have hone := h.join (hdistinct.sublist (List.sublist_append_left _ _)) hwithin new.kind
      have hall := hmeans ts _ hone
      rw [List.append_assoc] at hall
      exact hall

/-- On a query of its table alone, joins of whatever types to tables of different names are taken,
and whatever the tables hold, the rows of the tree that they build are those of the textbook joins,
one after the other: a right join keeps every row of its table, wherever it stands among the
joins. -/
theorem joins_as_textbook {q : Select} (alone : q.source = .table q.base) {joins : List Joining}
    (known : ∀ j ∈ joins, j.call.IsKnown q.schema q.base.name)
    (distinct : (q.base.name :: joins.map (·.table)).Nodup)
    (within : Joining.Scoped q.base.name [q.base.name] joins) :
    ∃ source added, Forall₂ (Joining.Adds q.schema q.base.name) joins added ∧
      Repository.callAll (joins.map (·.call)) q = .ok () { q with source } ∧
      source.late = [] ∧
      ∀ ts, SameRows (source.rows ts)
        (Textbook.fold ts [q.base] (Textbook.tableRows ts q.base) added) := by
  obtain ⟨source, added, hadded, hcalls, hmeans⟩ :=
    means_joins [q.base] known distinct within
  have hbase : ∀ ts, q.source.Means ts [q.base] (Textbook.tableRows ts q.base) := by
    intro ts
    rw [alone]
    exact ⟨.refl _, .refl _, rfl⟩
  exact ⟨source, added, hadded, hcalls, (hmeans [] _ (hbase [])).late,
    fun ts => (hmeans ts _ (hbase ts)).rows⟩

/-- Users with their pictures, if any, then all articles, whoever wrote them, then the roles. -/
def mixedJoins : List Joining :=
  [⟨"user_pictures", "pic_id", "=", "user_pictures.id", .left⟩,
    ⟨"articles", "users.id", "=", "articles.author_id", .right⟩,
    ⟨"roles", "users.role_id", "=", "roles.id", .left⟩]

theorem joins_as_textbook_users :
    Desk.allUsers.source = .table Desk.allUsers.base ∧
      (∀ j ∈ mixedJoins, j.call.IsKnown Desk.allUsers.schema Desk.allUsers.base.name) ∧
      (Desk.allUsers.base.name :: mixedJoins.map (·.table)).Nodup ∧
      Joining.Scoped Desk.allUsers.base.name [Desk.allUsers.base.name] mixedJoins ∧
      ∃ source added, Repository.callAll (mixedJoins.map (·.call)) Desk.allUsers =
          .ok () { Desk.allUsers with source } ∧
        SameRows (source.rows Demo.tables) (Textbook.fold Demo.tables [Demo.user.table]
          (Textbook.tableRows Demo.tables Demo.user.table) added) := by
  have known : ∀ j ∈ mixedJoins,
      j.call.IsKnown Desk.allUsers.schema Desk.allUsers.base.name := by
    intro j hj
    unfold Joining.call
    revert j
    decide +kernel
  have distinct : (Desk.allUsers.base.name :: mixedJoins.map (·.table)).Nodup := by decide
  have within : Joining.Scoped Desk.allUsers.base.name [Desk.allUsers.base.name] mixedJoins := by
    decide +kernel
  obtain ⟨source, added, -, hcalls, -, hrows⟩ :=
    joins_as_textbook (q := Desk.allUsers) rfl known distinct within
  exact ⟨rfl, known, distinct, within, source, added, hcalls, hrows Demo.tables⟩

end Select

end Winnow
