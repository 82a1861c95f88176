import Mathlib.Algebra.Order.Field.Rat
import Winnow.Model.Record
import Winnow.Proofs.FailingSteps

namespace Winnow

/-- What the database goes by when it compares a cell. -/
inductive Worth where
  | number (q : ℚ)
  | infinite (negative : Bool)
  | nan
  | text (s : String)

namespace Binary64

theorem twoTo_cast {n : Int} (h : 0 ≤ n) : ((twoTo n.toNat : Nat) : ℚ) = 2 ^ n := by
  unfold twoTo
  rw [Nat.pow_eq, Nat.cast_pow, Nat.cast_ofNat, ← zpow_natCast, Int.toNat_of_nonneg h]

theorem compareScaled_eq_iff {a d b e : Int} :
    compareScaled a d b e = .eq ↔ (a : ℚ) * 2 ^ d = b * 2 ^ e := by
  have hleast : (2 : ℚ) ^ min d e ≠ 0 := zpow_ne_zero _ two_ne_zero
  have hscale : ∀ {x n : Int}, min d e ≤ n →
      ((x * twoTo (n - min d e).toNat : Int) : ℚ) * 2 ^ min d e = x * 2 ^ n := by
    intro x n hn
    rw [Int.cast_mul, Int.cast_natCast, twoTo_cast (by omega), mul_assoc, ← zpow_add₀ two_ne_zero,
      Int.sub_add_cancel]
  unfold compareScaled
  rw [compare_eq_iff_eq, ← Rat.intCast_inj, ← mul_left_inj' hleast, hscale (min_le_left d e),
    hscale (min_le_right d e)]

def worth : Binary64 → Worth
  | finite negative m e => .number (signed negative m * 2 ^ e)
  | infinite negative => .infinite negative
  | nan => .nan

theorem compare_eq_iff {x y : Binary64} : x.compare y = .eq ↔ x.worth = y.worth := by
  cases x with
  | finite s m d =>
    cases y with
    | finite t n e => simp [Binary64.compare, worth, compareScaled_eq_iff]
    | infinite negative => cases negative <;> simp [Binary64.compare, worth]
    | nan => simp [Binary64.compare, worth]
  | infinite s =>
    cases y with
    | finite t n e => cases s <;> simp [Binary64.compare, worth]
    | infinite t => cases s <;> cases t <;> simp [Binary64.compare, worth]
    | nan => cases s <;> simp [Binary64.compare, worth]
  | nan => cases y <;> simp [Binary64.compare, worth]

theorem compareInt_eq_iff {n : Int} {x : Binary64} :
    compareInt n x = .eq ↔ .number n = x.worth := by
  cases x with
  | finite s m e => simp [compareInt, worth, compareScaled_eq_iff]
  | infinite negative => cases negative <;> simp [compareInt, worth]
  | nan => simp [compareInt, worth]

end Binary64

namespace Cell

def worth? : Cell → Option Worth
  | null => none
  | int n => some (.number n)
  | real x => some x.worth
  | text s => some (.text s)

theorem compareNonNull_eq_iff {a b : Cell} (ha : a ≠ null) (hb : b ≠ null) :
    compareNonNull a b = .eq ↔ a.worth? = b.worth? := by
  cases a with
  | null => exact absurd rfl ha
  | int m =>
    cases b with
    | null => exact absurd rfl hb
    | int n => simp [compareNonNull, worth?]
    | real y => simp [compareNonNull, worth?, Binary64.compareInt_eq_iff]
    | text s => simp [compareNonNull, worth?]
  | real x =>
    cases b with
    | null => exact absurd rfl hb
    | int n =>
      have hswap : (Binary64.compareInt n x).swap = .eq ↔ Binary64.compareInt n x = .eq := by simp
      simp only [compareNonNull, worth?, hswap, Binary64.compareInt_eq_iff, Option.some.injEq]
      exact eq_comm
    | real y => simp [compareNonNull, worth?, Binary64.compare_eq_iff]
    | text s => cases x <;> simp [compareNonNull, worth?, Binary64.worth]
  | text s =>
    cases b with
    | null => exact absurd rfl hb
    | int n => simp [compareNonNull, worth?]
    | real y => cases y <;> simp [compareNonNull, worth?, Binary64.worth]
    | text t => simp [compareNonNull, worth?, compareOfLessAndEq_eq_eq]

theorem worth?_eq_none {a : Cell} : a.worth? = none ↔ a = null := by
  cases a <;> simp [worth?]

theorem same_iff {a b : Cell} : a.same b = true ↔ a ≠ null ∧ a.worth? = b.worth? := by
  unfold same order
  by_cases hnull : a = null ∨ b = null
  · rw [if_pos hnull]
    rcases hnull with rfl | rfl
    · simp
    · have hnone : (null : Cell).worth? = none := rfl
      simp [hnone, worth?_eq_none]
  · obtain ⟨ha, hb⟩ := not_or.mp hnull
    rw [if_neg hnull]
    simp [compareNonNull_eq_iff ha hb, ha]

theorem same_symm {a b : Cell} (h : a.same b = true) : b.same a = true := by
  obtain ⟨ha, hworth⟩ := same_iff.mp h
  refine same_iff.mpr ⟨fun hb => ha ?_, hworth.symm⟩
  rw [← worth?_eq_none, hworth, hb]
  rfl

theorem same_trans {a b c : Cell} (hab : a.same b = true) (hbc : b.same c = true) :
    a.same c = true :=
  same_iff.mpr ⟨(same_iff.mp hab).1, (same_iff.mp hab).2.trans (same_iff.mp hbc).2⟩

end Cell

theorem isTrue_compareBound_eq {t : ColumnType} {a b : Cell} :
    (compareBound t .eq a b).isTrue = a.same (b.met t) := by
  unfold compareBound Comparison.truth Truth.isTrue Cell.same
  cases a.order (b.met t) with
  | none => rfl
  | some o => cases o <;> rfl

namespace Model

variable {m : Model} {a b : List Cell} {parts : List Value}

theorem sameKey_iff : m.sameKey a b = true ↔
    ∀ key ∈ m.table.keys, (m.table.cell key.name a).same (m.table.cell key.name b) = true :=
  List.all_eq_true

theorem sameKey_symm (h : m.sameKey a b = true) : m.sameKey b a = true :=
  sameKey_iff.mpr fun key hk => Cell.same_symm (sameKey_iff.mp h key hk)

theorem sameKey_comm : m.sameKey a b = m.sameKey b a :=
  Bool.eq_iff_iff.mpr ⟨sameKey_symm, sameKey_symm⟩

theorem sameKey_of_hasKey (hlen : parts.length = m.table.keys.length)
    (ha : m.hasKey parts a = true) (hb : m.hasKey parts b = true) : m.sameKey a b = true := by
  refine sameKey_iff.mpr fun key hk => ?_
  obtain ⟨i, hi, rfl⟩ := List.mem_iff_getElem.mp hk
  have hpart : (m.table.keys[i], parts[i]) ∈ m.table.keys.zip parts :=
    List.mem_iff_getElem.mpr ⟨i, by rw [List.length_zip]; omega, List.getElem_zip⟩
  have hsame := fun row (h : m.hasKey parts row = true) => List.all_eq_true.mp h _ hpart
  simp only [isTrue_compareBound_eq] at hsame
  exact Cell.same_trans (hsame a ha) (Cell.same_symm (hsame b hb))

theorem length_of_keyOf {id : Value} (h : m.keyOf id = .ok parts) :
    parts.length = m.table.keys.length := by
  unfold keyOf at h
  split at h
  · cases h
  next given _ =>
    by_cases hlen : given.length = m.table.keys.length
    · rw [if_neg (not_not.mpr hlen)] at h
      obtain ⟨-, -, h⟩ := ok_of_bind h
      cases h
      exact hlen
    · rw [if_pos hlen] at h
      cases h

end Model

end Winnow
