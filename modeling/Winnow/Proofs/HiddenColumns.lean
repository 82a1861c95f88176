import Mathlib.Data.List.Nodup
import Winnow.Proofs.TrashedRows

namespace Winnow

/-- The name that an output asks for; raw text asks for none. -/
def Output.name? (o : Output) : Option String :=
  match o.label, o.expr with
  | some label, _ => some label
  | none, .column c => some c.column
  | none, .raw _ => none

theorem lookup_nameOutput {taken : Taken} {numbers : Numbering} {o : Output} {name : String}
    (hfree : taken.names.lookup name = none) (hne : o.name? ≠ some name) :
    (nameOutput taken numbers o).2.1.names.lookup name = none := by
  have hadd : ∀ other column, name ≠ other →
      (taken.add other column).names.lookup name = none := by
    intro other column h
    unfold Taken.add
    split
    · exact hfree
    · rw [List.lookup_cons, beq_eq_false_iff_ne.mpr h]
      exact hfree
  obtain ⟨expr, label⟩ := o
  cases expr with
  | raw text =>
    cases label with
    | none => exact hfree
    | some label => exact hadd label none fun h => hne (congrArg some h.symm)
  | column c =>
    cases label with
    | some label => exact hadd label none fun h => hne (congrArg some h.symm)
    | none =>
      have hcolumn : name ≠ c.column := fun h => hne (congrArg some h.symm)
      simp only [nameOutput]
      split
      · exact hadd c.column (some c) hcolumn
      · split <;> exact hfree

namespace Repository

variable {r : Repository} {q : Select} {ts : Tables} {db : Database}

/-- A column of the base table that is hidden and selected without an alias. -/
def hides (r : Repository) (o : Output) : Bool :=
  match o.expr, o.label with
  | .column c, none => decide (c.table = r.model.table.name ∧ c.column ∈ r.model.hidden)
  | _, _ => false

/-- No output before a hidden column asks for the name of that column. -/
def HiddenFirst (r : Repository) (q : Select) : Prop :=
  q.selected.Pairwise fun p o => r.hides o = true → p.name? ≠ o.name?

instance : Decidable (r.HiddenFirst q) :=
  inferInstanceAs (Decidable (List.Pairwise (fun p o => r.hides o = true → p.name? ≠ o.name?) _))

/-- The entries of a row that come from outputs which are not hidden. -/
def openEntries (r : Repository) (q : Select) (row : Row) : Row :=
  ((q.selected.zip row).filter fun p => !r.hides p.1).map (·.2)

theorem hides_iff {o : Output} : r.hides o = true ↔ ∃ c : ColumnRef, o = ⟨.column c, none⟩ ∧
    c.table = r.model.table.name ∧ c.column ∈ r.model.hidden := by
  obtain ⟨expr, label⟩ := o
  cases expr <;> cases label <;> simp [hides]

theorem mem_concealedKeys {key : String} :
    key ∈ r.concealedKeys q ↔ ∃ o ∈ q.selected, r.hides o = true ∧ o.name? = some key := by
  unfold concealedKeys
  rw [List.mem_filterMap]
  refine exists_congr fun o => and_congr_right fun _ => ?_
  obtain ⟨expr, label⟩ := o
  cases expr <;> cases label <;> simp [hides, Output.name?]

theorem named_of_hidden {os : List Output} {taken : Taken} {numbers : Numbering}
    (hp : os.Pairwise fun p o => r.hides o = true → p.name? ≠ o.name?)
    (hfree : ∀ o ∈ os, r.hides o = true → ∀ name, o.name? = some name →
      taken.names.lookup name = none) :
    List.Forall₂ (fun o (n : NamedOutput) => r.hides o = true → o.name? = some n.key) os
      (nameOutputs taken numbers os).1 := by
  induction os generalizing taken numbers with
  | nil => exact .nil
  | cons o os ih =>
    obtain ⟨hfirst, hrest⟩ := List.pairwise_cons.mp hp
    unfold nameOutputs
    refine .cons (fun hh => ?_) (ih hrest fun o' ho' hh name hn => ?_)
    · obtain ⟨c, rfl, -, -⟩ := hides_iff.mp hh
      simp only [nameOutput, hfree _ List.mem_cons_self hh c.column rfl]
      rfl
    · exact lookup_nameOutput (hfree o' (List.mem_cons_of_mem _ ho') hh name hn)
        fun h => hfirst o' ho' hh (h.trans hn.symm)

theorem key_of_hidden (hfirst : r.HiddenFirst q) {row : Row} (hkeys : row.map (·.1) = q.keys)
    {p : Output × (String × Value)} (hp : p ∈ q.selected.zip row) (hh : r.hides p.1 = true) :
    p.1.name? = some p.2.1 := by
  have hnamed : List.Forall₂ _ q.selected q.named.1 := named_of_hidden hfirst (by simp)
  obtain ⟨i, hi, rfl⟩ := List.getElem_of_mem hp
  have hin : i < q.selected.length ∧ i < row.length := by
    rw [List.length_zip] at hi
    omega
  have hlast : i < q.named.1.length := hnamed.length_eq ▸ hin.1
  have hentry : (row.map (·.1))[i]? = (q.named.1.map (·.key))[i]? := by rw [hkeys, Select.keys]
  simp only [List.getElem?_map, List.getElem?_eq_getElem hin.2, List.getElem?_eq_getElem hlast,
    Option.map_some, Option.some.injEq] at hentry
  rw [List.getElem_zip] at hh ⊢
  rw [hentry]
  exact (List.forall₂_iff_get.mp hnamed).2 i hin.1 hlast hh

/-- Where the hidden columns come first and no key is repeated, what is left out by its key is what
comes from a hidden column. -/
theorem conceal_eq (hfirst : r.HiddenFirst q) {row : Row} (hkeys : row.map (·.1) = q.keys)
    (distinct : q.keys.Nodup) : r.conceal q row = r.openEntries q row := by
  have hnamed : List.Forall₂ _ q.selected q.named.1 := named_of_hidden hfirst (by simp)
  have hlength : row.length = q.selected.length := by
    rw [hnamed.length_eq, ← List.length_map (f := (·.1)), hkeys, Select.keys, List.length_map]
  have hentries : (q.selected.zip row).map (·.2) = row := List.map_snd_zip (by omega)
  have houtputs : (q.selected.zip row).map (·.1) = q.selected := List.map_fst_zip (by omega)
  have hinj : ∀ p ∈ q.selected.zip row, ∀ p' ∈ q.selected.zip row, p.2.1 = p'.2.1 → p = p' := by
    rw [← hkeys, ← hentries, List.map_map] at distinct
    exact fun p hp p' hp' he => List.inj_on_of_nodup_map distinct hp hp' he
  have hiff : ∀ p ∈ q.selected.zip row, p.2.1 ∈ r.concealedKeys q ↔ r.hides p.1 = true := by
    intro p hp
    rw [mem_concealedKeys]
    constructor
    · rintro ⟨o, ho, hh, hname⟩
      rw [← houtputs] at ho
      obtain ⟨p', hp', rfl⟩ := List.mem_map.mp ho
      have hsame := (key_of_hidden hfirst hkeys hp' hh).symm.trans hname
      rwa [hinj p hp p' hp' (Option.some.inj hsame).symm]
    · exact fun hh => ⟨p.1, (List.of_mem_zip hp).1, hh, key_of_hidden hfirst hkeys hp hh⟩
  unfold conceal openEntries
  conv_lhs => rw [← hentries, List.filter_map]
  congr 1
  apply List.filter_congr
  intro p hp
  simp [hiff p hp]

end Repository

namespace Select

variable {q : Select} {ts : Tables} {w : Window} {rows : List Row} {row : Row}

/-- Where a query has an output that is more than a column, its rows come under the keys of its
outputs. -/
def KeepsKeys (q : Select) (ts : Tables) (w : Window) : Prop :=
  q.isComputed = true → ∀ rows, q.fetch ts w = .ok rows → ∀ row ∈ rows, row.map (·.1) = q.keys

theorem nodup_of_checkKeys {keys : List String} {found : List Row}
    (h : checkKeys keys rows = .ok found) (hrow : row ∈ rows) : keys.Nodup := by
  unfold checkKeys at h
  split at h
  · cases h
  next hn =>
    have hne : rows.isEmpty = false := List.isEmpty_eq_false_iff.mpr (List.ne_nil_of_mem hrow)
    simpa [hne] using hn

theorem row_of_columns (hcolumns : q.isComputed = false) (h : q.fetch ts w = .ok rows)
    (hrow : row ∈ rows) :
    q.keys.Nodup ∧ ∃ env ∈ q.matched ts, row = q.keys.zip (q.named.1.map (outputValue env)) := by
  unfold fetch at h
  rw [hcolumns] at h
  obtain ⟨_, -, h⟩ := ok_of_bind h
  obtain rfl := rows_of_checkKeys h
  refine ⟨nodup_of_checkKeys h hrow, ?_⟩
  obtain ⟨values, hv, rfl⟩ := List.mem_map.mp hrow
  obtain ⟨env, henv, rfl⟩ := List.mem_map.mp (mem_of_mem_window hv)
  exact ⟨env, List.mem_mergeSort.mp henv, rfl⟩

theorem keys_of_fetch (hkeys : q.KeepsKeys ts w) (h : q.fetch ts w = .ok rows)
    (hrow : row ∈ rows) : row.map (·.1) = q.keys ∧ q.keys.Nodup := by
  cases hc : q.isComputed with
  | false =>
    obtain ⟨distinct, env, -, rfl⟩ := row_of_columns hc h hrow
    exact ⟨List.map_fst_zip (by simp [keys]), distinct⟩
  | true =>
    refine ⟨hkeys hc rows h row hrow, ?_⟩
    have hfetch := h
    unfold fetch at h
    rw [hc] at h
    obtain ⟨answer, -, h⟩ := ok_of_bind h
    obtain rfl := rows_of_checkKeys h
    have hnodup := nodup_of_checkKeys h hrow
    obtain ⟨first, rest, hcons⟩ := List.exists_cons_of_ne_nil (List.ne_nil_of_mem hrow)
    rw [hcons] at hnodup
    rwa [← hkeys hc _ hfetch first (by rw [hcons]; exact List.mem_cons_self)]

end Select

namespace Repository

variable {r : Repository} {q : Select} {db : Database}

/-- The rows that an answer shows. -/
def Answer.items : Answer → List Row
  | .rows found => found
  | .row found => found.toList
  | .page p => p.items
  | .openPage p => p.items
  | .done | .number _ => []

theorem respects_buildListing (asked : Listing) :
    Respects (State.Alike r db) (r.buildListing asked) :=
  (respects_rules.search _).bind fun _ => (respects_rules.filter _ _).bind fun _ =>
    respects_rules.sort _ _

def Fetches (r : Repository) (requests : List Request) (ts : Tables) (q : Select) (shown : Row) :
    Prop :=
  ∃ w found, .rows w ∈ requests ∧ r.fetch w ts q = .ok found ∧ shown ∈ found

theorem fetches_openPage {s s' : State} {perPage : Option Int} {number : Int} {p : OpenPage}
    (h : r.openPage perPage number s = .ok p s') {shown : Row} (hshown : shown ∈ p.items) :
    r.Fetches [.rows (pageWindow (r.pageSize perPage) number 1)] s.database.current
      s.desk.session.query shown := by
  obtain ⟨found, size, hfound, -, rfl⟩ := of_openPage h
  exact ⟨_, found, List.mem_singleton.mpr rfl, hfound, List.mem_of_mem_take hshown⟩

theorem fetches_of_perform {op : Operation} {s s' : State} {a : Answer} (hs : s.Alike r db s)
    (hq : op.query? r s = some q) (h : op.perform r s = .ok a s') {shown : Row}
    (hshown : shown ∈ a.items) : r.Fetches (op.requests r) db.current q shown := by
  cases op with
  | all =>
    cases hq
    obtain ⟨found, hfound, rfl⟩ := of_map_ok h
    exact ⟨_, found, List.mem_singleton.mpr rfl, hs.database ▸ ok_of_execute hfound, hshown⟩
  | first =>
    cases hq
    obtain ⟨row, hrow, rfl⟩ := of_map_ok h
    obtain ⟨found, hfound, rfl⟩ := of_map_ok hrow
    exact ⟨_, found, List.mem_singleton.mpr rfl, hs.database ▸ ok_of_execute hfound,
      List.mem_of_mem_head? (Option.mem_toList.mp hshown)⟩
  | count =>
    obtain ⟨n, -, rfl⟩ := of_map_ok h
    cases hshown
  | page perPage number =>
    cases hq
    obtain ⟨p, hp, rfl⟩ := of_map_ok h
    obtain ⟨total, found, size, -, hfound, -, rfl⟩ := of_page hp
    exact ⟨_, found, by simp [Operation.requests], hs.database ▸ hfound, hshown⟩
  | openPage perPage number =>
    cases hq
    obtain ⟨p, hp, rfl⟩ := of_map_ok h
    exact hs.database ▸ fetches_openPage hp hshown
  | listing asked =>
    obtain ⟨p, hp, rfl⟩ := of_map_ok h
    rw [listing_eq] at hp
    cases hb : r.buildListing asked s with
    | error e t =>
      simp only [Operation.query?, hb] at hq
      cases hq
    | ok u t =>
      simp only [Operation.query?, hb, Option.some.injEq] at hq
      subst hq
      rw [bind_of_ok hb] at hp
      have ht := (respects_buildListing asked).of_ok hs hb
      exact ht.database ▸ fetches_openPage hp hshown
  | _ => cases hq

/-- Whatever was done before, a row that a result shows is a row of the query without the entries
of the hidden columns, and with all others. So it is where the hidden columns come first among the
outputs of their name, and rows with computed outputs come under the keys of the outputs. -/
theorem hidden_left_out {t : State} (ht : r.start db = .ok t) (before : List Operation)
    {op : Operation} (hq : op.query? r (r.run before t) = some q) (hfirst : r.HiddenFirst q)
    (hkeys : ∀ w, .rows w ∈ op.requests r → q.KeepsKeys db.current w) {a : Answer} {s' : State}
    (h : op.perform r (r.run before t) = .ok a s') :
    ∀ shown ∈ a.items, ∃ w rows row, .rows w ∈ op.requests r ∧ q.fetch db.current w = .ok rows ∧
      row ∈ rows ∧ row.map (·.1) = q.keys ∧ shown = r.openEntries q row ∧
      (q.isComputed = false →
        ∃ env ∈ q.matched db.current, row = q.keys.zip (q.named.1.map (Select.outputValue env))) := by
  intro shown hshown
  obtain ⟨w, found, hw, hfound, hmem⟩ := fetches_of_perform (alike_run ht before) hq h hshown
  obtain ⟨rows, hrows, rfl⟩ := ok_of_map hfound
  obtain ⟨row, hrow, rfl⟩ := List.mem_map.mp hmem
  obtain ⟨hrowKeys, distinct⟩ := Select.keys_of_fetch (hkeys w hw) hrows hrow
  exact ⟨w, rows, row, hw, hrows, hrow, hrowKeys, conceal_eq hfirst hrowKeys distinct,
    fun hc => (Select.row_of_columns hc hrows hrow).2⟩

def usersWith (entries : List String) : Repository :=
  define Demo.user Demo.schema {} [("role", { chain := [("users.role_id", "roles.id")], entries })]
    [] [] [] false

def firstUser : List Operation :=
  [.join (.named (.text "role")), .restrict "users.id" "=" (.int 1)]

def Answer.hasText (key text : String) (a : Answer) : Bool :=
  a.items.any fun row =>
    match row.lookup key with
    | some (.text s) => s = text
    | _ => false

def firstUserShows (entries : List String) (key text : String) : Bool :=
  match (usersWith entries).start (.ofTables Demo.tables) with
  | .ok t =>
    match Operation.all.perform (usersWith entries) ((usersWith entries).run firstUser t) with
    | .ok a _ => a.hasText key text
    | .error _ _ => false
  | .error _ => false

def roleAndPassword : List String := ["roles.title AS role", "users.password"]

theorem hidden_left_out_firstUser :
    firstUserShows roleAndPassword "role" "admin" = true ∧
      ∃ t q, (usersWith roleAndPassword).start (.ofTables Demo.tables) = .ok t ∧
        Operation.all.query? (usersWith roleAndPassword)
          ((usersWith roleAndPassword).run firstUser t) = some q ∧
        (usersWith roleAndPassword).HiddenFirst q ∧
        ∃ a s', Operation.all.perform (usersWith roleAndPassword)
            ((usersWith roleAndPassword).run firstUser t) = .ok a s' ∧
          ∀ shown ∈ a.items, ∃ row, row.map (·.1) = q.keys ∧
            shown = (usersWith roleAndPassword).openEntries q row := by
  have hshows : firstUserShows roleAndPassword "role" "admin" = true := by decide +kernel
  have hok : ((usersWith roleAndPassword).start (.ofTables Demo.tables)).isOk = true := by
    decide +kernel
  obtain ⟨t, ht⟩ := exists_of_isOk hok
  have hquery : (Operation.all.query? (usersWith roleAndPassword)
      ((usersWith roleAndPassword).run firstUser t)).map (fun q =>
        (decide ((usersWith roleAndPassword).HiddenFirst q), q.isComputed)) =
          some (true, false) := by
    rw [start_eq ht]
    decide +kernel
  have hsucceeds : succeeds (Operation.all.perform (usersWith roleAndPassword))
      ((usersWith roleAndPassword).run firstUser t) = true := by
    rw [start_eq ht]
    decide +kernel
  obtain ⟨q, hq, hfacts⟩ := Option.map_eq_some_iff.mp hquery
  obtain ⟨hfirst, hcolumns⟩ := Prod.mk.inj hfacts
  have hfirst := of_decide_eq_true hfirst
  obtain ⟨a, ha⟩ := exists_of_succeeds hsucceeds
  refine ⟨hshows, t, q, ht, hq, hfirst, a, _, ha, fun shown hshown => ?_⟩
  have hkeys : ∀ w, .rows w ∈ Operation.all.requests (usersWith roleAndPassword) →
      q.KeepsKeys Demo.tables w := by
    intro w _ hc
    rw [hcolumns] at hc
    cases hc
  obtain ⟨_, _, row, -, -, -, hrow, hopen, -⟩ :=
    hidden_left_out ht firstUser hq hfirst hkeys ha shown hshown
  exact ⟨row, hrow, hopen⟩

def titleAsPassword : List String := ["roles.title AS password", "users.password"]

/-- The hidden column is shown under a name of its own, and the title is left out. -/
theorem password_shown :
    "password" ∈ (usersWith titleAsPassword).model.hidden ∧
      firstUserShows titleAsPassword "password_1" "x" = true ∧
      firstUserShows titleAsPassword "password" "admin" = false := by
  refine ⟨by decide, by decide +kernel, by decide +kernel⟩

end Repository

end Winnow
