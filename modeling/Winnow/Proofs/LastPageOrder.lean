import Winnow.Proofs.RowKeys
import Winnow.Proofs.LastPage

namespace Winnow

variable {num den num' den' bound : Nat}

/-- A quotient is rounded up beyond a number exactly when it is nearer to the next one; half way,
when the next one is even. -/
theorem lt_roundHalfEven_iff (hd : 0 < den) : bound < roundHalfEven num den ↔
    (2 * bound + 1) * den < 2 * num ∨ (2 * bound + 1) * den = 2 * num ∧ bound % 2 = 1 := by
  have hsplit := Nat.div_add_mod num den
  have hr := Nat.mod_lt num hd
  have hhalf : (2 * bound + 1) * den = 2 * (den * bound) + den := by ring
  unfold roundHalfEven
  simp only
  rw [hhalf]
  generalize num / den = q at hsplit ⊢
  generalize num % den = r at hsplit hr ⊢
  rcases Nat.lt_trichotomy bound q with hlt | rfl | hlt
  · have hstep : den * bound + den ≤ den * q := Nat.mul_le_mul_left den hlt
    split_ifs <;> omega
  · split_ifs <;> omega
  · have hstep : den * q + den ≤ den * bound := Nat.mul_le_mul_left den hlt
    split_ifs <;> omega

theorem roundHalfEven_mono (hd : 0 < den) (hd' : 0 < den') (h : num * den' ≤ num' * den) :
    roundHalfEven num den ≤ roundHalfEven num' den' := by
  refine Nat.le_of_not_lt fun hlt => ?_
  have hbeyond := (lt_roundHalfEven_iff hd).mp hlt
  refine absurd ((lt_roundHalfEven_iff hd').mpr ?_) (Nat.lt_irrefl (roundHalfEven num' den'))
  generalize roundHalfEven num' den' = b at hbeyond ⊢
  -- the quotients are compared with half way above `b` over a common denominator
  have hle : 2 * num * den' ≤ 2 * num' * den := by nlinarith
  rcases hbeyond with hlt | ⟨heq, hodd⟩
  · refine .inl (Nat.lt_of_mul_lt_mul_right (a := den) ?_)
    calc (2 * b + 1) * den' * den = (2 * b + 1) * den * den' := by ring
      _ < 2 * num * den' := Nat.mul_lt_mul_of_pos_right hlt hd'
      _ ≤ 2 * num' * den := hle
  · have hle' : (2 * b + 1) * den' ≤ 2 * num' := by
      refine Nat.le_of_mul_le_mul_right ?_ hd
      calc (2 * b + 1) * den' * den = (2 * b + 1) * den * den' := by ring
        _ = 2 * num * den' := by rw [heq]
        _ ≤ 2 * num' * den := hle
    exact (Nat.lt_or_eq_of_le hle').imp id fun h => ⟨h, hodd⟩

theorem le_roundHalfEven (hd : 0 < den) (h : bound * den ≤ num) :
    bound ≤ roundHalfEven num den := by
  have hmono := roundHalfEven_mono hd hd (Nat.mul_le_mul_right den h)
  rwa [roundHalfEven_mul hd] at hmono

def dyadic (m : Nat) (e : Int) : ℚ := m * 2 ^ e

theorem two_zpow_pos (e : Int) : (0 : ℚ) < 2 ^ e := zpow_pos two_pos e

theorem two_zpow_mono {d e : Int} (h : d ≤ e) : (2 : ℚ) ^ d ≤ 2 ^ e :=
  zpow_le_zpow_right₀ one_le_two h

theorem cast_twoTo (k : Nat) : ((twoTo k : Nat) : ℚ) = 2 ^ (k : Int) :=
  Binary64.twoTo_cast (Int.natCast_nonneg k)

theorem dyadic_twoTo (k : Nat) (e : Int) : dyadic (twoTo k) e = 2 ^ (k + e) := by
  rw [dyadic, cast_twoTo, zpow_add₀ two_ne_zero]

theorem ceilScaled_le_iff_dyadic {m : Nat} {e : Int} :
    ceilScaled m e ≤ bound ↔ dyadic m e ≤ bound := by
  unfold dyadic
  by_cases he : 0 ≤ e
  · unfold ceilScaled
    rw [if_pos he, ← Binary64.twoTo_cast he]
    exact_mod_cast Iff.rfl
  · rw [ceilScaled_le_iff (by omega), ← Nat.cast_le (α := ℚ), Nat.cast_mul,
      Binary64.twoTo_cast (by omega), zpow_neg, ← div_eq_mul_inv, le_div_iff₀ (two_zpow_pos e)]

theorem mul_scaled_le_iff (hd : 0 < den) (e : Int) :
    bound * (scaled num den e).2 ≤ (scaled num den e).1 ↔ dyadic bound e ≤ num / den := by
  have hden : (0 : ℚ) < den := by exact_mod_cast hd
  unfold dyadic
  rw [le_div_iff₀ hden, ← Nat.cast_le (α := ℚ)]
  unfold scaled
  split_ifs with he
  · simp only [Nat.cast_mul, Binary64.twoTo_cast he]
    rw [mul_assoc, mul_comm (2 ^ e)]
  · simp only [Nat.cast_mul, Binary64.twoTo_cast (show 0 ≤ -e by omega), zpow_neg]
    rw [← div_eq_mul_inv, le_div_iff₀ (two_zpow_pos e), mul_right_comm]

theorem exponentFor_zero (den : Nat) : exponentFor 0 den < 0 := by
  have he := exponentFor_le 0 den
  have hlog : Nat.log2 0 = 0 := by decide
  unfold leastExponent at he
  omega

theorem quotient_lt (hd : 0 < den) : (num : ℚ) / den < 2 ^ (53 + exponentFor num den) := by
  have hden : (0 : ℚ) < den := by exact_mod_cast hd
  have hlog : (num : ℚ) / den < 2 ^ (53 + ((num.log2 : Int) - den.log2 - 52)) := by
    have hhigh : (num : ℚ) < 2 ^ ((num.log2 + 1 : Nat) : Int) := by
      rw [zpow_natCast]
      exact_mod_cast Nat.lt_log2_self
    have hlow : (2 : ℚ) ^ (den.log2 : Int) ≤ den := by
      rw [zpow_natCast]
      exact_mod_cast Nat.log2_self_le (by omega)
    rw [div_lt_iff₀ hden]
    calc (num : ℚ) < 2 ^ ((num.log2 + 1 : Nat) : Int) := hhigh
      _ = 2 ^ (53 + ((num.log2 : Int) - den.log2 - 52)) * 2 ^ (den.log2 : Int) := by
        rw [← zpow_add₀ two_ne_zero]
        congr 1
        omega
      _ ≤ 2 ^ (53 + ((num.log2 : Int) - den.log2 - 52)) * den :=
        mul_le_mul_of_nonneg_left hlow (two_zpow_pos _).le
  unfold exponentFor
  simp only
  generalize (num.log2 : Int) - den.log2 - 52 = e at hlog ⊢
  split_ifs with hbits
  · rw [Nat.div_lt_iff_lt_mul (scaled_pos hd e), ← Nat.not_le, mul_scaled_le_iff hd,
      not_le, dyadic_twoTo] at hbits
    exact hbits.trans_le (two_zpow_mono (by omega))
  · exact hlog.trans_le (two_zpow_mono (by omega))

theorem le_quotient (hn : 0 < num) (hd : 0 < den)
    (he : leastExponent < exponentFor num den) :
    (2 : ℚ) ^ (52 + exponentFor num den) ≤ num / den := by
  have hfirst := (mul_scaled_le_iff hd _).mp (@le_scaled num den hn)
  unfold exponentFor at he ⊢
  simp only at he ⊢
  generalize (num.log2 : Int) - den.log2 - 52 = e at hfirst he ⊢
  rw [dyadic_twoTo] at hfirst
  split_ifs at he ⊢ with hbits
  · rw [max_eq_right (by omega)]
    rwa [show 52 + (e - 1) = (51 : Nat) + e by omega]
  · rw [max_eq_right (by omega)]
    rw [Nat.not_lt, Nat.le_div_iff_mul_le (scaled_pos hd e), mul_scaled_le_iff hd,
      dyadic_twoTo] at hbits
    exact hbits

def mantissaFor (num den : Nat) : Nat :=
  roundHalfEven (scaled num den (exponentFor num den)).1 (scaled num den (exponentFor num den)).2

theorem mantissaFor_le (hd : 0 < den) : mantissaFor num den ≤ twoTo 53 := by
  refine roundHalfEven_le (scaled_pos hd _) (Nat.le_of_lt (Nat.lt_of_not_le fun hle => ?_))
  rw [mul_scaled_le_iff hd, dyadic_twoTo] at hle
  exact absurd (quotient_lt hd) (not_lt.mpr hle)

theorem le_mantissaFor (hn : 0 < num) (hd : 0 < den)
    (he : leastExponent < exponentFor num den) : twoTo 52 ≤ mantissaFor num den := by
  refine le_roundHalfEven (scaled_pos hd _) ((mul_scaled_le_iff hd _).mpr ?_)
  rw [dyadic_twoTo]
  exact le_quotient hn hd he

theorem dyadic_roundRatio (num den : Nat) :
    dyadic (roundRatio num den).1 (roundRatio num den).2 =
      dyadic (mantissaFor num den) (exponentFor num den) := by
  unfold roundRatio mantissaFor
  simp only
  split_ifs with hcarry
  · rw [hcarry, dyadic_twoTo, dyadic_twoTo]
    congr 1
    omega
  · rfl

theorem mantissaFor_zero (hd : 0 < den) : mantissaFor 0 den = 0 := by
  refine Nat.le_zero.mp (roundHalfEven_le (scaled_pos hd _) ?_)
  unfold scaled
  split_ifs <;> simp

theorem mul_scaled_mono (h : num * den' ≤ num' * den) (e : Int) :
    (scaled num den e).1 * (scaled num' den' e).2 ≤
      (scaled num' den' e).1 * (scaled num den e).2 := by
  unfold scaled
  split_ifs
  · calc num * (den' * twoTo e.toNat) = num * den' * twoTo e.toNat := by ring
      _ ≤ num' * den * twoTo e.toNat := Nat.mul_le_mul_right _ h
      _ = num' * (den * twoTo e.toNat) := by ring
  · calc num * twoTo (-e).toNat * den' = num * den' * twoTo (-e).toNat := by ring
      _ ≤ num' * den * twoTo (-e).toNat := Nat.mul_le_mul_right _ h
      _ = num' * twoTo (-e).toNat * den := by ring

theorem dyadic_roundRatio_mono (hd : 0 < den) (hd' : 0 < den') (h : num * den' ≤ num' * den) :
    dyadic (roundRatio num den).1 (roundRatio num den).2 ≤
      dyadic (roundRatio num' den').1 (roundRatio num' den').2 := by
  rw [dyadic_roundRatio, dyadic_roundRatio]
  rcases Nat.eq_zero_or_pos num with rfl | hn
  · rw [mantissaFor_zero hd, dyadic, Nat.cast_zero, zero_mul]
    exact mul_nonneg (Nat.cast_nonneg _) (two_zpow_pos _).le
  have hn' : 0 < num' := Nat.pos_of_mul_pos_right ((Nat.mul_pos hn hd').trans_le h)
  have hleast : ∀ a b, leastExponent ≤ exponentFor a b := fun a b => le_max_left _ _
  rcases Int.lt_trichotomy (exponentFor num den) (exponentFor num' den') with he | he | he
  · -- the smaller quotient stays below the power of two at which the larger one's bits begin
    have hlow := le_mantissaFor hn' hd' ((hleast num den).trans_lt he)
    calc dyadic (mantissaFor num den) (exponentFor num den)
        ≤ dyadic (twoTo 53) (exponentFor num den) :=
          mul_le_mul_of_nonneg_right (Nat.cast_le.mpr (mantissaFor_le hd)) (two_zpow_pos _).le
      _ ≤ dyadic (twoTo 52) (exponentFor num' den') := by
          rw [dyadic_twoTo, dyadic_twoTo]
          exact two_zpow_mono (by omega)
      _ ≤ dyadic (mantissaFor num' den') (exponentFor num' den') :=
          mul_le_mul_of_nonneg_right (Nat.cast_le.mpr hlow) (two_zpow_pos _).le
  · have hmantissa : mantissaFor num den ≤ mantissaFor num' den' := by
      unfold mantissaFor
      rw [he]
      exact roundHalfEven_mono (scaled_pos hd _) (scaled_pos hd' _) (mul_scaled_mono h _)
    rw [he]
    exact mul_le_mul_of_nonneg_right (Nat.cast_le.mpr hmantissa) (two_zpow_pos _).le
  · have hlow := le_quotient hn hd ((hleast num' den').trans_lt he)
    have hhigh : (num' : ℚ) / den' < 2 ^ (53 + exponentFor num' den') := quotient_lt hd'
    have hle : (num : ℚ) / den ≤ num' / den' := by
      rw [div_le_div_iff₀ (by exact_mod_cast hd) (by exact_mod_cast hd')]
      exact_mod_cast h
    have hpow : (2 : ℚ) ^ (53 + exponentFor num' den') ≤ 2 ^ (52 + exponentFor num den) :=
      two_zpow_mono (by omega)
    exact absurd (hhigh.trans_le (hpow.trans (hlow.trans hle))) (lt_irrefl _)

theorem ceil_roundRatio_mono (hd : 0 < den) (hd' : 0 < den') (h : num * den' ≤ num' * den) :
    ceilScaled (roundRatio num den).1 (roundRatio num den).2 ≤
      ceilScaled (roundRatio num' den').1 (roundRatio num' den').2 :=
  ceilScaled_le_iff_dyadic.mpr ((dyadic_roundRatio_mono hd hd' h).trans
    (ceilScaled_le_iff_dyadic.mp (Nat.le_refl _)))

/-- The least quotient that lies beyond every double: half way from the largest double to the next
power of two. -/
def leastOverflow : Nat := (twoTo 54 - 1) * twoTo 970

/-- With the exponent of the largest doubles, a mantissa gets a bit too many from half way on. -/
theorem le_mantissa_iff (hd : 0 < den) :
    twoTo 53 ≤ roundHalfEven num (den * twoTo 971) ↔ leastOverflow * den ≤ num := by
  have hodd : (twoTo 53 - 1) % 2 = 1 := by decide
  have hmost : 2 * (twoTo 53 - 1) + 1 = twoTo 54 - 1 := by decide
  have hpred : twoTo 53 = twoTo 53 - 1 + 1 := by decide
  have hhalf : (twoTo 54 - 1) * (den * twoTo 971) = 2 * (leastOverflow * den) := by
    unfold leastOverflow
    rw [twoTo_succ 970]
    ring
  rw [hpred, Nat.succ_le_iff, lt_roundHalfEven_iff (Nat.mul_pos hd (twoTo_pos 971)), hmost, hhalf]
  omega

theorem cast_leastOverflow_le_iff (hd : 0 < den) :
    (leastOverflow : ℚ) ≤ num / den ↔ leastOverflow * den ≤ num := by
  rw [le_div_iff₀ (by exact_mod_cast hd)]
  exact_mod_cast Iff.rfl

theorem leastOverflow_lt : (leastOverflow : ℚ) < 2 ^ ((54 + 970 : Nat) : Int) := by
  rw [← cast_twoTo, twoTo_add, Nat.cast_lt]
  exact Nat.mul_lt_mul_of_pos_right (by decide) (twoTo_pos 970)

theorem lt_leastOverflow : (2 : ℚ) ^ ((53 + 970 : Nat) : Int) < leastOverflow := by
  rw [← cast_twoTo, twoTo_add, Nat.cast_lt]
  exact Nat.mul_lt_mul_of_pos_right (by decide) (twoTo_pos 970)

theorem overflowExponent_le_iff (hd : 0 < den) :
    overflowExponent ≤ (roundRatio num den).2 ↔ leastOverflow * den ≤ num := by
  have hround : (roundRatio num den).2 =
      if mantissaFor num den = twoTo 53 then exponentFor num den + 1 else exponentFor num den := by
    unfold roundRatio mantissaFor
    simp only
    split_ifs <;> rfl
  rw [hround, ← cast_leastOverflow_le_iff hd]
  unfold overflowExponent
  rcases Int.lt_trichotomy (exponentFor num den) 971 with he | he | he
  · have hsmall : (num : ℚ) / den < leastOverflow :=
      (quotient_lt hd).trans ((two_zpow_mono (by omega)).trans_lt lt_leastOverflow)
    rw [iff_false_right (not_le.mpr hsmall)]
    split_ifs <;> omega
  · have hmantissa : mantissaFor num den = roundHalfEven num (den * twoTo 971) := by
      unfold mantissaFor
      rw [he]
      rfl
    rw [cast_leastOverflow_le_iff hd, ← le_mantissa_iff hd, ← hmantissa, he]
    have hle : mantissaFor num den ≤ twoTo 53 := mantissaFor_le hd
    split_ifs <;> omega
  · have hn : 0 < num := Nat.pos_of_ne_zero fun hz => by
      have := exponentFor_zero den
      rw [hz] at he
      omega
    have hlarge : (leastOverflow : ℚ) ≤ num / den :=
      (leastOverflow_lt.le.trans (two_zpow_mono (by omega))).trans
        (le_quotient hn hd (by unfold leastExponent; omega))
    rw [iff_true_right hlarge]
    split_ifs <;> omega

theorem lastPage_of_lt {total perPage : Nat} (hp : 0 < perPage)
    (h : total < leastOverflow * perPage) : lastPage total perPage =
      .ok (max 1 (ceilScaled (roundRatio total perPage).1 (roundRatio total perPage).2)) := by
  have hfits : ¬overflowExponent ≤ (roundRatio total perPage).2 := by
    rw [overflowExponent_le_iff hp]
    exact Nat.not_le_of_lt h
  unfold lastPage
  simp only
  rw [if_neg fun hover => hfits hover.2]

theorem lastPage_of_le {total perPage : Nat} (hp : 0 < perPage)
    (h : leastOverflow * perPage ≤ total) : lastPage total perPage = .error .quotientTooLarge := by
  have hpos : 0 < leastOverflow * perPage :=
    Nat.mul_pos (Nat.mul_pos (by decide) (twoTo_pos 970)) hp
  unfold lastPage
  simp only
  rw [if_pos ⟨by omega, (overflowExponent_le_iff hp).mpr h⟩]

theorem lastPage_mono {total perPage total' perPage' last : Nat} (hp : 0 < perPage)
    (hp' : 0 < perPage') (ht : total ≤ total') (hle : perPage' ≤ perPage)
    (h : lastPage total' perPage' = .ok last) :
    ∃ first, lastPage total perPage = .ok first ∧ first ≤ last := by
  have hlt : total' < leastOverflow * perPage' := Nat.lt_of_not_le fun hover => by
    rw [lastPage_of_le hp' hover] at h
    cases h
  rw [lastPage_of_lt hp' hlt] at h
  cases h
  refine ⟨_, lastPage_of_lt hp ?_, max_le_max_left 1 (ceil_roundRatio_mono hp hp' ?_)⟩
  · exact (ht.trans_lt hlt).trans_le (Nat.mul_le_mul_left _ hle)
  · exact Nat.mul_le_mul ht hle

theorem isLeast_last {total perPage : Nat} (hp : 0 < perPage) :
    IsLeast {n | 1 ≤ n ∧ total ≤ n * perPage} ((total - 1) / perPage + 1) := by
  refine ⟨⟨Nat.le_add_left 1 _, ?_⟩, fun n ⟨hn, htaken⟩ => ?_⟩
  · exact Nat.le_of_not_lt fun hlt =>
      Nat.lt_irrefl _ ((lt_last_iff hp (Nat.succ_pos _)).mpr hlt)
  · exact Nat.le_of_not_lt fun hlt =>
      Nat.not_lt_of_le htaken ((lt_last_iff hp hn).mp hlt)

/-- Up to `2 ^ 53` rows the last page is the least one that takes all of them. There is a last page
as long as the quotient of the rows and the size of a page does not lie beyond every double, and it
never decreases when there are more rows, nor when pages are smaller. -/
theorem Page.least_and_ascending (p : Page) (hp : 0 < p.perPage) :
    (p.total ≤ 2 ^ 53 → ∃ last, p.lastPage = .ok last ∧
        IsLeast {n | 1 ≤ n ∧ p.total ≤ n * p.perPage} last) ∧
      ((∃ last, p.lastPage = .ok last) ↔ p.total < leastOverflow * p.perPage) ∧
      ∀ q : Page, 0 < q.perPage → p.total ≤ q.total → q.perPage ≤ p.perPage →
        ∀ last, q.lastPage = .ok last → ∃ first, p.lastPage = .ok first ∧ first ≤ last := by
  refine ⟨fun ht => ⟨_, lastPage_eq hp ht, isLeast_last hp⟩, ⟨fun ⟨last, h⟩ => ?_, fun h => ?_⟩,
    fun q hq ht hle last h => lastPage_mono hp hq ht hle h⟩
  · refine Nat.lt_of_not_le fun hover => ?_
    rw [Page.lastPage, lastPage_of_le hp hover] at h
    cases h
  · exact ⟨_, lastPage_of_lt hp h⟩

def fullPages : Page where
  total := 2 ^ 53
  perPage := 3
  currentPage := 1

theorem Page.least_and_ascending_full : 0 < fullPages.perPage ∧
    fullPages.lastPage = .ok 3002399751580331 ∧
      IsLeast {n | 1 ≤ n ∧ 2 ^ 53 ≤ n * 3} 3002399751580331 ∧
      ∃ first, fullPages.lastPage = .ok first ∧ first ≤ 2 ^ 61 := by
  have hp : 0 < fullPages.perPage := by decide
  obtain ⟨hleast, -, hascending⟩ := fullPages.least_and_ascending hp
  have hlast : fullPages.lastPage = .ok 3002399751580331 := rfl
  obtain ⟨last, hl, hmin⟩ := hleast (by decide)
  cases hlast.symm.trans hl
  have hmore := hascending { fullPages with total := 2 ^ 62 + 1, perPage := 2 }
    (by decide) (by decide) (by decide) (2 ^ 61) rfl
  exact ⟨hp, hlast, hmin, hmore⟩

end Winnow
