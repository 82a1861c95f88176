import Mathlib.Tactic.Linarith
import Mathlib.Tactic.Ring
import Winnow.Page

namespace Winnow

variable {num den bound : Nat}

theorem roundHalfEven_le (hd : 0 < den) (h : num ≤ bound * den) :
    roundHalfEven num den ≤ bound := by
  have hq : num / den ≤ bound := Nat.div_le_of_le_mul (Nat.mul_comm bound den ▸ h)
  rcases Nat.lt_or_eq_of_le hq with hlt | heq
  · unfold roundHalfEven
    simp only
    split_ifs <;> omega
  · have hr : num % den = 0 := by
      have hsplit := Nat.div_add_mod num den
      rw [heq, Nat.mul_comm] at hsplit
      omega
    unfold roundHalfEven
    simp only [hr]
    rw [if_pos (by omega)]
    exact hq

/-- A quotient is not rounded down to a whole number from which it is more than one half away. -/
theorem lt_roundHalfEven (hd : 0 < den) (h : (2 * bound + 1) * den < 2 * num) :
    bound < roundHalfEven num den := by
  have hsplit := Nat.div_add_mod num den
  have hr := Nat.mod_lt num hd
  have hq : bound ≤ num / den := (Nat.le_div_iff_mul_le hd).mpr (by nlinarith)
  unfold roundHalfEven
  simp only
  rcases Nat.lt_or_eq_of_le hq with hlt | heq
  · split_ifs <;> omega
  · have hhalf : den < 2 * (num % den) := by
      rw [← heq] at hsplit
      nlinarith
    rw [if_neg (by omega), if_pos hhalf]
    omega

theorem roundHalfEven_mul (hd : 0 < den) : roundHalfEven (bound * den) den = bound := by
  unfold roundHalfEven
  simp only [Nat.mul_mod_left, Nat.mul_div_cancel _ hd]
  rw [if_pos (by omega)]

theorem ceilScaled_le_iff {m : Nat} {e : Int} (he : e < 0) :
    ceilScaled m e ≤ bound ↔ m ≤ bound * twoTo (-e).toNat := by
  have hpos := twoTo_pos (-e).toNat
  unfold ceilScaled
  rw [if_neg (by omega), ← Nat.lt_succ_iff, Nat.div_lt_iff_lt_mul hpos, Nat.succ_mul]
  omega

theorem ceilScaled_carry (e : Int) : ceilScaled (twoTo 52) (e + 1) = ceilScaled (twoTo 53) e := by
  have hmantissa : twoTo 53 = twoTo 52 * 2 := rfl
  rcases Int.lt_trichotomy e (-1) with he | rfl | he
  · have hscale : twoTo (-e).toNat = twoTo (-(e + 1)).toNat * 2 := by
      rw [← twoTo_succ]
      congr 1
      omega
    have hiff : ∀ b, ceilScaled (twoTo 52) (e + 1) ≤ b ↔ ceilScaled (twoTo 53) e ≤ b := by
      intro b
      rw [ceilScaled_le_iff (by omega), ceilScaled_le_iff (by omega), hscale, hmantissa,
        ← Nat.mul_assoc]
      omega
    exact Nat.le_antisymm ((hiff _).mpr (Nat.le_refl _)) ((hiff _).mp (Nat.le_refl _))
  · decide +kernel
  · have hscale : twoTo (e + 1).toNat = twoTo e.toNat * 2 := by
      rw [← twoTo_succ]
      congr 1
      omega
    unfold ceilScaled
    rw [if_pos (by omega), if_pos (by omega), hscale, hmantissa]
    ring

theorem twoTo_add (a b : Nat) : twoTo (a + b) = twoTo a * twoTo b := Nat.pow_add 2 a b

theorem le_scaled (hn : 0 < num) :
    twoTo 51 * (scaled num den (num.log2 - den.log2 - 52)).2 ≤
      (scaled num den (num.log2 - den.log2 - 52)).1 := by
  have hlow : twoTo num.log2 ≤ num := Nat.log2_self_le (by omega)
  have hhigh : den ≤ twoTo (den.log2 + 1) := Nat.le_of_lt Nat.lt_log2_self
  unfold scaled
  split_ifs with he
  · generalize hk : ((num.log2 : Int) - den.log2 - 52).toNat = k
    have hsum : num.log2 = 51 + (den.log2 + 1) + k := by omega
    calc twoTo 51 * (den * twoTo k)
        ≤ twoTo 51 * (twoTo (den.log2 + 1) * twoTo k) :=
          Nat.mul_le_mul_left _ (Nat.mul_le_mul_right _ hhigh)
      _ = twoTo num.log2 := by rw [← Nat.mul_assoc, ← twoTo_add, ← twoTo_add, ← hsum]
      _ ≤ num := hlow
  · generalize hk : (-((num.log2 : Int) - den.log2 - 52)).toNat = k
    have hsum : 51 + (den.log2 + 1) = num.log2 + k := by omega
    calc twoTo 51 * den ≤ twoTo 51 * twoTo (den.log2 + 1) := Nat.mul_le_mul_left _ hhigh
      _ = twoTo num.log2 * twoTo k := by rw [← twoTo_add, hsum, twoTo_add]
      _ ≤ num * twoTo k := Nat.mul_le_mul_right _ hlow

theorem le_scaled_pred {m : Nat} {e : Int} (h : m * (scaled num den e).2 ≤ (scaled num den e).1) :
    2 * m * (scaled num den (e - 1)).2 ≤ (scaled num den (e - 1)).1 := by
  unfold scaled at h ⊢
  rcases Int.lt_trichotomy e 0 with he | rfl | he
  · have hk : (-(e - 1)).toNat = (-e).toNat + 1 := by omega
    rw [if_neg (by omega)] at h ⊢
    rw [hk, twoTo_succ]
    simp only at h ⊢
    nlinarith
  · rw [if_pos (by omega)] at h
    rw [if_neg (by omega)]
    change m * (den * 1) ≤ num at h
    change 2 * m * den ≤ num * 2
    nlinarith
  · have hk : e.toNat = (e - 1).toNat + 1 := by omega
    rw [if_pos (by omega)] at h ⊢
    rw [hk, twoTo_succ] at h
    simp only at h ⊢
    nlinarith

theorem scaled_pos (hd : 0 < den) (e : Int) : 0 < (scaled num den e).2 := by
  unfold scaled
  split_ifs
  · exact Nat.mul_pos hd (twoTo_pos _)
  · exact hd

theorem log2_mono {a b : Nat} (h : a ≤ b) : a.log2 ≤ b.log2 := by
  by_cases ha : a = 0
  · simp [ha]
  · exact (Nat.le_log2 (by omega)).mpr ((Nat.log2_self_le ha).trans h)

theorem le_scaled_exponentFor (hd : 0 < den) (h : den ≤ num) :
    twoTo 52 * (scaled num den (exponentFor num den)).2 ≤
      (scaled num den (exponentFor num den)).1 := by
  have hlog := log2_mono h
  have hfirst := @le_scaled num den (by omega)
  unfold exponentFor leastExponent
  simp only
  generalize he : (num.log2 : Int) - den.log2 - 52 = e at hfirst ⊢
  split_ifs with hsmall
  · rw [max_eq_right (by omega)]
    exact le_scaled_pred hfirst
  · rw [max_eq_right (by omega)]
    exact (Nat.le_div_iff_mul_le (scaled_pos hd e)).mp (Nat.le_of_not_lt hsmall)

theorem exponentFor_le (num den : Nat) :
    exponentFor num den ≤ max leastExponent (num.log2 - den.log2 - 52) := by
  unfold exponentFor
  simp only
  split_ifs <;> omega

theorem ceil_roundRatio (num den : Nat) :
    ceilScaled (roundRatio num den).1 (roundRatio num den).2 =
      ceilScaled (roundHalfEven (scaled num den (exponentFor num den)).1
        (scaled num den (exponentFor num den)).2) (exponentFor num den) := by
  unfold roundRatio
  simp only
  split_ifs with hcarry
  · rw [hcarry]
    exact ceilScaled_carry _
  · rfl

theorem roundRatio_exponent_le (num den : Nat) :
    (roundRatio num den).2 ≤ exponentFor num den + 1 := by
  unfold roundRatio
  simp only
  split_ifs
  · exact Int.le_refl _
  · exact Int.le_add_one (Int.le_refl _)

theorem ceilScaled_mul (m k : Nat) : ceilScaled m (k : Int) = m * twoTo k := by
  unfold ceilScaled
  rw [if_pos (by omega)]
  rfl

/-- A quotient with bits after the point keeps the least whole number not below it: one half is
more than what the rounding can add or take away. -/
theorem ceil_of_fraction {k : Nat} (hk : 0 < k) (hd : 0 < den) (hn : num ≤ twoTo 53)
    (hlow : bound * den < num) (hhigh : num ≤ (bound + 1) * den)
    (hbits : twoTo 52 * den ≤ num * twoTo k) :
    ceilScaled (roundHalfEven (num * twoTo k) den) (-(k : Int)) = bound + 1 := by
  have hneg : -(k : Int) < 0 := by omega
  have hscale : (-(-(k : Int))).toNat = k := by omega
  have hpos := twoTo_pos k
  have hgap : bound * twoTo k * den + twoTo k ≤ num * twoTo k := by nlinarith
  have hsize : den ≤ 2 * twoTo k := by
    have hmost : num * twoTo k ≤ twoTo 53 * twoTo k := Nat.mul_le_mul_right _ hn
    have htwice : twoTo 53 = 2 * twoTo 52 := rfl
    have h52 : 0 < twoTo 52 := twoTo_pos 52
    rw [htwice] at hmost
    nlinarith
  refine Nat.le_antisymm ?_ (Nat.lt_of_not_le fun hle => ?_)
  · rw [ceilScaled_le_iff hneg, hscale]
    apply roundHalfEven_le hd
    nlinarith
  · rw [ceilScaled_le_iff hneg, hscale] at hle
    refine absurd hle (Nat.not_le_of_lt ?_)
    rcases Nat.lt_or_eq_of_le hsize with hlt | heq
    · apply lt_roundHalfEven hd
      nlinarith
    · -- only the largest numerator is left, and its quotient is whole
      have hwhole : num * twoTo k = twoTo 52 * den := by
        refine Nat.le_antisymm ?_ hbits
        rw [heq]
        calc num * twoTo k ≤ twoTo 53 * twoTo k := Nat.mul_le_mul_right _ hn
          _ = twoTo 52 * (2 * twoTo k) := by rw [← Nat.mul_assoc]; rfl
      rw [hwhole] at hgap ⊢
      rw [roundHalfEven_mul hd]
      exact Nat.lt_of_mul_lt_mul_right (a := den) (by omega)

theorem whole_of_bits {k : Nat} (hd : 0 < den) (hn : num ≤ twoTo 53)
    (hbits : twoTo 52 * (den * twoTo k) ≤ num) : ∃ m, num = m * (den * twoTo k) := by
  have hpos : 0 < den * twoTo k := Nat.mul_pos hd (twoTo_pos k)
  have htwice : twoTo 53 = twoTo 52 * 2 := rfl
  have hsize : den * twoTo k ≤ 2 :=
    Nat.le_of_mul_le_mul_left (htwice ▸ hbits.trans hn) (twoTo_pos 52)
  rcases (by omega : den * twoTo k = 1 ∨ den * twoTo k = 2) with h | h
  · exact ⟨num, by rw [h, Nat.mul_one]⟩
  · rw [h] at hbits ⊢
    exact ⟨twoTo 52, Nat.le_antisymm (htwice ▸ hn) hbits⟩

/-- Up to `2 ^ 53` the quotient of two numbers, rounded to a double, is rounded up to the same
whole number as the quotient itself. -/
theorem ceil_roundRatio_eq (hd : 0 < den) (h : den ≤ num) (hn : num ≤ twoTo 53) :
    ceilScaled (roundRatio num den).1 (roundRatio num den).2 = (num - 1) / den + 1 := by
  have hbits := le_scaled_exponentFor hd h
  rw [ceil_roundRatio]
  generalize exponentFor num den = e at hbits ⊢
  by_cases he : 0 ≤ e
  · obtain ⟨k, rfl⟩ := Int.eq_ofNat_of_zero_le he
    unfold scaled at hbits ⊢
    rw [if_pos he] at hbits ⊢
    simp only [Int.toNat_natCast] at hbits ⊢
    obtain ⟨m, rfl⟩ := whole_of_bits hd hn hbits
    have hpos : 0 < m * twoTo k := by
      refine Nat.pos_of_ne_zero fun hz => ?_
      rw [Nat.mul_left_comm, hz] at h
      omega
    have hlast := Nat.mul_sub_div 0 den (m * twoTo k) (Nat.mul_pos hd hpos)
    rw [Nat.zero_div] at hlast
    rw [roundHalfEven_mul (Nat.mul_pos hd (twoTo_pos k)), ceilScaled_mul, Nat.mul_left_comm, hlast]
    omega
  · obtain ⟨k, rfl⟩ : ∃ k : Nat, e = -(k : Int) := ⟨(-e).toNat, by omega⟩
    have hk : (-(-(k : Int))).toNat = k := by omega
    unfold scaled at hbits ⊢
    rw [if_neg he] at hbits ⊢
    simp only [hk] at hbits ⊢
    refine ceil_of_fraction (by omega) hd hn ?_ ?_ hbits
    · have := Nat.div_mul_le_self (num - 1) den
      omega
    · have := Nat.lt_div_mul_add hd (a := num - 1)
      rw [Nat.succ_mul]
      omega

theorem ceil_roundRatio_le (hd : 0 < den) (h : num ≤ den) :
    ceilScaled (roundRatio num den).1 (roundRatio num den).2 ≤ 1 := by
  have hlog := log2_mono h
  have he := exponentFor_le num den
  unfold leastExponent at he
  rw [ceil_roundRatio]
  generalize exponentFor num den = e at he ⊢
  unfold scaled
  rw [if_neg (by omega), ceilScaled_le_iff (by omega)]
  exact roundHalfEven_le hd (by nlinarith)

theorem lastPage_eq {total perPage : Nat} (hp : 0 < perPage) (ht : total ≤ twoTo 53) :
    lastPage total perPage = .ok ((total - 1) / perPage + 1) := by
  have hlog : total.log2 ≤ 53 := log2_mono ht
  have he := exponentFor_le total perPage
  have hcarry := roundRatio_exponent_le total perPage
  unfold leastExponent at he
  have hsmall : (roundRatio total perPage).2 < overflowExponent := by
    unfold overflowExponent
    omega
  unfold lastPage
  simp only
  rw [if_neg (by omega)]
  congr 1
  rcases Nat.le_total perPage total with h | h
  · rw [ceil_roundRatio_eq hp h ht]
    exact max_eq_right (Nat.le_add_left 1 _)
  · have hone := ceil_roundRatio_le hp h
    rw [Nat.div_eq_of_lt (by omega)]
    exact max_eq_left hone

theorem lt_last_iff {total perPage number : Nat} (hp : 0 < perPage) (hn : 0 < number) :
    number < (total - 1) / perPage + 1 ↔ number * perPage < total := by
  have hpos : 0 < number * perPage := Nat.mul_pos hn hp
  rw [Nat.lt_succ_iff, Nat.le_div_iff_mul_le hp]
  omega

end Winnow
