import Winnow.Proofs.RowOrigin

namespace Winnow

open Sql (Item Frame Fault)

variable {ε α β γ : Type}

theorem isOk_mapM {f : α → Except ε β} {xs : List α} :
    (xs.mapM f).isOk = xs.all fun x => (f x).isOk := by
  induction xs with
  | nil => rfl
  | cons x xs ih =>
    rw [List.mapM_cons, List.all_cons, ← ih]
    cases f x with
    | error e => rfl
    | ok y => cases xs.mapM f <;> rfl

/-- An expression whatever it is called; other items stay as they are. -/
def Sql.Item.unlabelled : Item → Item
  | .expr e _ _ => .expr e none ""
  | item => item

theorem itemExprs_unlabelled (items : List Item) :
    (items.map Item.unlabelled).filterMap Sql.Grouping.itemExpr? =
      items.filterMap Sql.Grouping.itemExpr? := by
  rw [List.filterMap_map]
  congr 1
  funext item
  cases item <;> rfl

theorem itemCells_unlabelled (db : Sql.Content) (fuel : Nat) (frames : List Frame)
    (items : List Item) : Sql.Evaluation.itemCells db fuel frames (items.map Item.unlabelled) =
      Sql.Evaluation.itemCells db fuel frames items := by
  cases fuel with
  | zero => simp only [Sql.Evaluation.itemCells]
  | succ fuel =>
    cases frames with
    | nil => simp only [Sql.Evaluation.itemCells]
    | cons frame outer =>
      simp only [Sql.Evaluation.itemCells, List.mapM_map]
      congr 2
      funext item
      cases item <;> rfl

namespace Select

variable {q : Select} {ts : Tables}

def unordered (q : Select) : Select := { q with orders := [] }

theorem isOk_itemNames_unlabelled (items : List Item) :
    (q.itemNames (items.map Item.unlabelled)).isOk = (q.itemNames items).isOk := by
  have hnames : ∀ items, (q.itemNames items).isOk =
      (items.mapM (Sql.Resolution.itemColumns q.scope true)).isOk := by
    intro items
    unfold itemNames
    cases items.mapM (Sql.Resolution.itemColumns q.scope true) <;> rfl
  rw [hnames, hnames, isOk_mapM, isOk_mapM, List.all_map]
  congr 1
  funext item
  cases item with
  | expr e label written => cases label <;> rfl
  | _ => rfl

theorem computedRows_unlabelled (distinct : Bool) (items : List Item) :
    q.computedRows ts distinct (items.map Item.unlabelled) = q.computedRows ts distinct items := by
  unfold computedRows
  simp only [itemCells_unlabelled, itemExprs_unlabelled]

theorem length_of_rows {x : Except Fault (List β)} {f g : List β → List γ}
    (h : ∀ found, (f found).length = (g found).length) :
    ((do return f (← x)).mapError Failure.rejected).map List.length =
      ((do return g (← x)).mapError Failure.rejected).map List.length := by
  cases x with
  | error e => rfl
  | ok found => exact congrArg Except.ok (h found)

theorem length_computedRows_unordered (distinct : Bool) (items : List Item) :
    (q.unordered.computedRows ts distinct items).map List.length =
      (q.computedRows ts distinct items).map List.length := by
  unfold computedRows
  simp only
  let isOne (n : Nat) : Prop :=
    (items.filterMap Sql.Grouping.itemExpr?).any (Sql.Grouping.isGathering n) = true
  by_cases hone : isOne q.steps
  · have hone' : isOne q.unordered.steps := hone
    rw [if_pos hone', if_pos hone]
    rfl
  · have hone' : ¬ isOne q.unordered.steps := hone
    rw [if_neg hone', if_neg hone]
    exact length_of_rows fun found => by simp only [List.length_map, List.length_mergeSort]

theorem checkNames_unordered {outputs : Except Failure Unit}
    (h : q.checkNames outputs = .ok ()) : q.unordered.checkNames outputs = .ok () := by
  obtain ⟨hnested, houtputs, htests, hjoins, -, hsides, hparts⟩ := checkNames_eq_ok.mp h
  exact checkNames_eq_ok.mpr ⟨hnested, houtputs, htests, hjoins, rfl, hsides, hparts⟩

theorem listAnswer_unordered {distinct : Bool} {items items' : List Item} {places : Nat}
    {a : Answer} (hsame : items.map Item.unlabelled = items'.map Item.unlabelled)
    (h : q.listAnswer ts {} distinct items places = .ok a) :
    ∃ a', q.unordered.listAnswer ts {} distinct items' places = .ok a' ∧
      a'.rows.length = a.rows.length := by
  obtain ⟨hnames, hchecked, hplaces, hstorable, hrows⟩ := listAnswer_eq_ok.mp h
  obtain ⟨names', hnames'⟩ : ∃ names', q.itemNames items' = .ok names' := by
    apply exists_of_isOk
    rw [← isOk_itemNames_unlabelled, ← hsame, isOk_itemNames_unlabelled, hnames]
    rfl
  have hchecked' : q.checkNames (q.checkItems items') = .ok () := by
    have hexprs : items'.filterMap Sql.Grouping.itemExpr? =
        items.filterMap Sql.Grouping.itemExpr? := by
      rw [← itemExprs_unlabelled, ← hsame, itemExprs_unlabelled]
    unfold checkItems at hchecked ⊢
    rwa [hexprs]
  have hlength := @length_computedRows_unordered q ts distinct items'
  rw [← @computedRows_unlabelled q, ← hsame, computedRows_unlabelled, hrows] at hlength
  obtain ⟨rows', hrows', hsize⟩ := ok_of_map hlength
  exact ⟨⟨names', rows'⟩, listAnswer_eq_ok.mpr
    ⟨hnames', checkNames_unordered hchecked', hplaces, hstorable, hrows'⟩, hsize⟩

/-- The database reads the statement that counts the rows as it reads the query: as a list of the
same expressions, whatever these are called. Columns alone are always read as they are meant. -/
def CountsSame (q : Select) : Prop :=
  q.isComputed = true → ∃ distinct items items' places,
    q.read (.rows {}) = .ok (.list distinct items places) ∧
    q.read .number = .ok (.list distinct items' places) ∧
    items.map Item.unlabelled = items'.map Item.unlabelled

theorem checkRun_unordered {w : Window} (h : q.checkRun w = .ok ()) :
    q.unordered.checkRun w = .ok () := by
  obtain ⟨hpassed, hchecked, hstorable⟩ := checkRun_eq_ok.mp h
  exact checkRun_eq_ok.mpr ⟨hpassed, checkNames_unordered hchecked, hstorable⟩

theorem answer_number {a : Answer} (hsame : q.CountsSame) (hc : q.isComputed = true)
    (h : q.answer ts (.rows {}) = .ok a) :
    q.answer ts .number = .ok (.ofCount a.rows.length) := by
  obtain ⟨distinct, items, items', places, hrows, hnumber, hitems⟩ := hsame hc
  unfold Select.answer at h ⊢
  obtain ⟨_, hpassed, h⟩ := ok_of_bind h
  rw [hrows] at h
  obtain ⟨a', ha', hlength⟩ := listAnswer_unordered hitems h
  have hcounted : listAnswer { q with orders := [] } ts {} distinct items' places = .ok a' := ha'
  rw [hpassed, hnumber, ← hlength]
  change (do
    let counted ← listAnswer { q with orders := [] } ts {} distinct items' places
    return Answer.ofCount counted.rows.length : Except Failure Answer) = _
  rw [hcounted]
  rfl

theorem count_of_fetch {rows : List Row} (hsame : q.CountsSame) (h : q.fetch ts {} = .ok rows) :
    q.count ts = .ok rows.length := by
  unfold fetch at h
  unfold count
  cases hc : q.isComputed with
  | false =>
    rw [hc] at h
    obtain ⟨_, hrun, h⟩ := ok_of_bind h
    have hrun' : checkRun { q with orders := [] } {} = .ok () := checkRun_unordered hrun
    rw [rows_of_checkKeys h, window_whole, List.length_map, hrun']
    rfl
  | true =>
    rw [hc] at h
    obtain ⟨a, ha, h⟩ := ok_of_bind h
    rw [rows_of_checkKeys h, window_whole, List.length_map, answer_number hsame hc ha]
    rfl

end Select

end Winnow
