import Winnow.Proofs.SingleTableFetch
import Winnow.Proofs.SearchGroups
import Winnow.Proofs.TextbookJoins

namespace Winnow

variable {ts : Tables} {a b : Env}

/-- What a row tells: what stands in it, and what is found in it for a column. -/
def Env.look (env : Env) : Multiset Bound × (ColumnRef → Option Bound) := (env.bag, env.find?)

theorem find?_of_look (h : b.look = a.look) (c : ColumnRef) : b.find? c = a.find? c :=
  congrFun (congrArg Prod.snd h) c

theorem look_snoc (h : b.look = a.look) (x : Bound) :
    Env.look (b ++ [x]) = Env.look (a ++ [x]) := by
  refine Prod.ext ?_ (funext fun c => ?_)
  · have hbag : b.Perm a := Multiset.coe_eq_coe.mp (congrArg Prod.fst h)
    exact Multiset.coe_eq_coe.mpr (hbag.append_right [x])
  · change Env.find? (b ++ [x]) c = Env.find? (a ++ [x]) c
    rw [find?_snoc, find?_snoc, find?_of_look h]

theorem look_swap (h : b.look = a.look) {x y : Bound} (hne : x.table.name ≠ y.table.name) :
    Env.look (b ++ [y] ++ [x]) = Env.look (a ++ [x] ++ [y]) := by
  refine Prod.ext ?_ (funext fun c => ?_)
  · have hbag : b.Perm a := Multiset.coe_eq_coe.mp (congrArg Prod.fst h)
    refine Multiset.coe_eq_coe.mpr ?_
    rw [List.append_assoc, List.append_assoc]
    exact hbag.append (List.Perm.swap x y [])
  · change Env.find? (b ++ [y] ++ [x]) c = Env.find? (a ++ [x] ++ [y]) c
    rw [find?_snoc, find?_snoc, find?_snoc, find?_snoc, find?_of_look h, Option.or_assoc,
      Option.or_assoc]
    congr 1
    by_cases hx : x.table.name = c.table
    · have hy : y.table.name ≠ c.table := fun hy => hne (hx.trans hy.symm)
      simp [hx, hy]
    · simp [hx]

def LookSame (xs ys : List Env) : Prop := (xs.map Env.look).Perm (ys.map Env.look)

namespace LookSame

variable {xs ys : List Env}

theorem sameRows (h : LookSame xs ys) : SameRows xs ys := by
  have hbags := h.map Prod.fst
  rwa [List.map_map, List.map_map] at hbags

theorem flatMap {f g : Env → List Env} (h : LookSame xs ys)
    (hfg : ∀ a b, b.look = a.look → LookSame (f a) (g b)) :
    LookSame (xs.flatMap f) (ys.flatMap g) :=
  flatMap_of_look h fun a _ b _ hab => hfg a b hab

theorem filter {p p' : Env → Bool} (h : LookSame xs ys)
    (hp : ∀ a b, b.look = a.look → p' b = p a) : LookSame (xs.filter p) (ys.filter p') := by
  rw [← List.map_id (xs.filter p), ← List.map_id (ys.filter p'), map_filter_eq_flatMap,
    map_filter_eq_flatMap]
  refine h.flatMap fun a b hab => ?_
  rw [hp a b hab]
  split
  · exact List.Perm.of_eq (congrArg (fun l => [l]) hab.symm)
  · exact List.Perm.refl []

theorem map {γ : Type} {f : Env → γ} (h : LookSame xs ys)
    (hf : ∀ a b, b.look = a.look → f b = f a) : (xs.map f).Perm (ys.map f) := by
  rw [List.map_eq_flatMap, List.map_eq_flatMap]
  have hsame : ((xs.flatMap fun a => [f a]).map id).Perm ((ys.flatMap fun b => [f b]).map id) :=
    flatMap_of_look h fun a _ b _ hab => List.Perm.of_eq (by rw [hf a b hab])
  rwa [List.map_id, List.map_id] at hsame

theorem beside (h : LookSame xs ys) (t : TableDef) :
    LookSame (xs.flatMap fun env => (ts.rowsOf t.name).map fun row => env ++ [⟨t, row⟩])
      (ys.flatMap fun env => (ts.rowsOf t.name).map fun row => env ++ [⟨t, row⟩]) := by
  refine h.flatMap fun a b hab => List.Perm.of_eq ?_
  rw [List.map_map, List.map_map]
  exact List.map_congr_left fun row _ => (look_snoc hab _).symm

theorem crossRows (h : LookSame xs ys) (tables : List TableDef) :
    LookSame (crossRows ts xs tables) (crossRows ts ys tables) := by
  induction tables generalizing xs ys with
  | nil => exact h
  | cons t tables ih => exact ih (h.beside t)

theorem swap (h : LookSame xs ys) {t u : TableDef} (hne : t.name ≠ u.name) :
    LookSame (Winnow.crossRows ts xs [t, u]) (Winnow.crossRows ts ys [u, t]) := by
  have htwo : ∀ (zs : List Env) (t u : TableDef), Winnow.crossRows ts zs [t, u] =
      zs.flatMap fun env => (ts.rowsOf t.name).flatMap fun row =>
        (ts.rowsOf u.name).map fun row' => env ++ [⟨t, row⟩] ++ [⟨u, row'⟩] := by
    intro zs t u
    rw [crossRows_cons, crossRows_cons, List.flatMap_assoc]
    exact List.flatMap_congr fun env _ => List.flatMap_map _ _ _
  rw [htwo, htwo]
  refine h.flatMap fun a b hab => ?_
  unfold LookSame
  rw [List.map_flatMap, List.map_flatMap]
  simp only [List.map_map, Function.comp_def]
  have hexchange := flatMap_exchange (fun _ _ => true)
    (fun row row' => Env.look (a ++ [⟨t, row⟩] ++ [⟨u, row'⟩]))
    (ts.rowsOf t.name) (ts.rowsOf u.name)
  simp only [List.filter_true] at hexchange
  refine hexchange.trans (List.Perm.of_eq (List.flatMap_congr fun row' _ => ?_))
  exact List.map_congr_left fun row _ => (look_swap hab hne).symm

theorem crossRows_perm {tables tables' : List TableDef} (hperm : tables.Perm tables')
    (distinct : (tables.map (·.name)).Nodup) (h : LookSame xs ys) :
    LookSame (Winnow.crossRows ts xs tables) (Winnow.crossRows ts ys tables') := by
  induction hperm generalizing xs ys with
  | nil => exact h
  | cons t _ ih => exact ih (List.nodup_cons.mp distinct).2 (h.beside t)
  | swap t u rest =>
    have hne : u.name ≠ t.name := by
      intro he
      have := (List.nodup_cons.mp distinct).1
      simp [he] at this
    have hboth : LookSame (Winnow.crossRows ts xs [u, t]) (Winnow.crossRows ts ys [t, u]) :=
      h.swap hne
    exact hboth.crossRows rest
  | trans first _ ih ih' =>
    exact (ih distinct h).trans (ih' ((first.map _).nodup distinct) (List.Perm.refl _))

end LookSame

theorem ColumnRef.checkIn_perm {tables tables' : List TableDef} (h : tables.Perm tables')
    (c : ColumnRef) : c.checkIn tables' = c.checkIn tables := by
  have hlength := (h.filter fun t => t.name = c.table).length_eq
  unfold ColumnRef.checkIn
  generalize tables.filter (·.name = c.table) = l at hlength
  generalize tables'.filter (·.name = c.table) = l' at hlength
  -- the check looks only at whether there is none, one or more
  rcases l with _ | ⟨t, _ | ⟨u, l⟩⟩ <;> rcases l' with _ | ⟨t', _ | ⟨u', l'⟩⟩ <;>
    first | rfl | simp at hlength

theorem checkEach_perm {α : Type} {check : α → Except Failure Unit} {xs ys : List α}
    (h : xs.Perm ys) (hx : checkEach check xs = .ok ()) : checkEach check ys = .ok () :=
  checkEach_ok fun _ hy => checkEach_mem hx (h.mem_iff.mpr hy)

theorem Bindings.checkPassed_eq (values : Bindings) :
    values.checkPassed = checkEach (fun p => p.2.checkPassed p.1) values := by
  induction values with
  | nil => rfl
  | cons p values ih =>
    unfold checkPassed checkEach
    rw [ih]

theorem Bindings.checkStorable_eq (values : Bindings) :
    values.checkStorable = checkEach (fun p => p.2.checkStorable) values := by
  induction values with
  | nil => rfl
  | cons p values ih =>
    unfold checkStorable checkEach
    rw [ih]

namespace Select

variable {q : Select} {clauses : List Clause}

def withClauses (q : Select) (clauses : List Clause) : Select := { q with clauses }

theorem beside_shuffled (h : q.clauses.Perm clauses) :
    q.beside.Perm (q.withClauses clauses).beside := by
  have hmentioned : q.mentioned.Perm (q.withClauses clauses).mentioned :=
    (h.flatMap_right _).append_left _
  have hdistinct : q.mentioned.eraseDups.Perm (q.withClauses clauses).mentioned.eraseDups := by
    refine (List.perm_ext_iff_of_nodup (nodup_eraseDups _) (nodup_eraseDups _)).mpr fun name => ?_
    rw [List.mem_eraseDups, List.mem_eraseDups]
    exact hmentioned.mem_iff
  exact (hdistinct.filter _).filterMap _

theorem nodup_names_beside (q : Select) : (q.beside.map (·.name)).Nodup := by
  refine q.nodup_beside.map_on fun t ht u hu hname => ?_
  have hsame := (mem_beside ht).1.symm.trans (hname ▸ (mem_beside hu).1)
  exact Option.some.inj hsame

theorem tables_shuffled (h : q.clauses.Perm clauses) :
    q.tables.Perm (q.withClauses clauses).tables := (beside_shuffled h).append_left _

theorem holds_shuffled (h : q.clauses.Perm clauses) (hab : b.look = a.look) :
    (q.withClauses clauses).holds b = q.holds a := by
  have hsame : q.holds b = q.holds a :=
    holds_congr fun clause _ t _ => find?_of_look hab t.column
  rw [← hsame]
  exact h.symm.all_eq

theorem matched_shuffled (h : q.clauses.Perm clauses) (ts : Tables) :
    LookSame (q.matched ts) ((q.withClauses clauses).matched ts) := by
  have hcross : LookSame (crossRows ts (q.source.rows ts) q.beside)
      (crossRows ts (q.source.rows ts) (q.withClauses clauses).beside) :=
    LookSame.crossRows_perm (beside_shuffled h) q.nodup_names_beside (List.Perm.refl _)
  refine (hcross.filter fun a b hab => ?_).filter fun a b hab => holds_shuffled h hab
  exact Source.keepsLate_congr rfl fun c _ => find?_of_look hab c

theorem values_shuffled (h : q.clauses.Perm clauses) (ts : Tables) :
    (q.values ts).Perm ((q.withClauses clauses).values ts) := by
  have hmap := (matched_shuffled h ts).map (f := fun env => q.named.1.map (outputValue env)) ?_
  · exact (((List.mergeSort_perm _ _).map _).trans hmap).trans
      ((List.mergeSort_perm _ _).symm.map _)
  · intro a b hab
    refine List.map_congr_left fun o _ => ?_
    unfold outputValue Env.type Env.cell
    cases o.expr with
    | column c => simp only [find?_of_look hab]
    | raw text => rfl

/-- A query that is accepted is accepted with its tests in another order, unless an outer join then
looks to its right. -/
theorem check_shuffled (h : q.clauses.Perm clauses) (hq : q.check = .ok ()) :
    (q.withClauses clauses).check = .ok () ∨
      (q.withClauses clauses).check = .error (.rejected .namesRight) := by
  obtain ⟨hnested, houtputs, htests, hcolumns, horders, hsides, -⟩ := checkNames_eq_ok.mp hq
  have hcheck : (q.withClauses clauses).checkColumn = q.checkColumn :=
    funext fun c => c.checkIn_perm (tables_shuffled h)
  have houtput : (q.withClauses clauses).checkOutput = q.checkOutput := by
    funext o
    unfold checkOutput
    rw [hcheck]
  have htests' : checkEach q.checkColumn (clauses.flatMap fun c => c.tests.map (·.column)) =
      .ok () := checkEach_perm (h.flatMap_right _) htests
  have hrest : (q.withClauses clauses).check = Joined.check clauses
      ((q.withClauses clauses).beside.map (·.name)) q.source.parts := by
    unfold check checkNames
    rw [houtput, hcheck]
    change (do
      q.source.checkNested
      checkEach q.checkOutput q.named.1
      checkEach q.checkColumn (clauses.flatMap fun c => c.tests.map (·.column))
      checkEach q.checkColumn q.source.columns
      checkEach q.checkColumn (q.orders.map (·.1))
      q.source.checkSides
      Joined.check clauses _ q.source.parts : Except Failure Unit) = _
    rw [hnested, houtputs, htests', hcolumns, horders, hsides]
    rfl
  rw [hrest]
  unfold Joined.check
  split
  · exact Or.inr rfl
  · exact Or.inl rfl

theorem checkKeys_perm {keys : List String} {rows rows' found : List Row} (h : rows.Perm rows')
    (hrows : checkKeys keys rows = .ok found) : checkKeys keys rows' = .ok rows' := by
  unfold checkKeys at hrows ⊢
  rw [h.isEmpty_eq] at hrows
  split at hrows
  · cases hrows
  next hkeys => rw [if_neg hkeys]

/-- What a query gives, if its outputs are columns, it gives with its tests in another order,
unless an outer join then looks to its right. -/
theorem fetch_shuffled (h : q.clauses.Perm clauses) (hcolumns : q.isComputed = false)
    {rows : List Row} (hq : q.fetch ts {} = .ok rows) :
    (∃ rows', (q.withClauses clauses).fetch ts {} = .ok rows' ∧ rows.Perm rows') ∨
      (q.withClauses clauses).fetch ts {} = .error (.rejected .namesRight) := by
  have hcolumns' : (q.withClauses clauses).isComputed = false := hcolumns
  have hbindings : q.bindings.Perm (q.withClauses clauses).bindings := h.flatMap_right _
  unfold fetch at hq ⊢
  rw [if_neg (by simp [hcolumns])] at hq
  rw [if_neg (by simp [hcolumns'])]
  obtain ⟨_, hrun, hkeys⟩ := ok_of_bind hq
  obtain ⟨hpassed, hcheck, hstorable⟩ := checkRun_eq_ok.mp hrun
  have hpassed' : (q.withClauses clauses).bindings.checkPassed = .ok () := by
    rw [Bindings.checkPassed_eq] at hpassed ⊢
    exact checkEach_perm hbindings hpassed
  have hstorable' : Bindings.checkStorable ((q.withClauses clauses).bindings ++ []) = .ok () := by
    rw [Bindings.checkStorable_eq] at hstorable ⊢
    exact checkEach_perm (hbindings.append_right _) hstorable
  rcases check_shuffled h hcheck with hcheck' | hrejected
  · have hrun' : (q.withClauses clauses).checkRun {} = .ok () :=
      checkRun_eq_ok.mpr ⟨hpassed', hcheck', hstorable'⟩
    have hrows := (values_shuffled h ts).map q.keys.zip
    refine Or.inl ⟨_, ?_, rows_of_checkKeys hkeys ▸ hrows⟩
    rw [hrun']
    exact checkKeys_perm hrows hkeys
  · refine Or.inr ?_
    unfold checkRun
    rw [hpassed', hrejected]
    rfl

end Select

end Winnow
