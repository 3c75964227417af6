import Mathlib.Algebra.Order.Ring.Nat
import SourceGauge.Binary64.Rounding

/-!
# Ratios of counts

The ratio of two counts of 64 bits is a finite datum. Both counts are far below the greatest
datum, and the divisor does not round to zero, so crude bounds on the rounded counts are enough.
-/

namespace SourceGauge

/-- The nearest integer is the quotient or the next one, as the remainder is below or above half of
the divisor. -/
theorem roundQuotient_cases (tie : Tie) (num den : Nat) :
    roundQuotient tie num den = num / den ∧ 2 * (num % den) ≤ den ∨
      roundQuotient tie num den = num / den + 1 ∧ den ≤ 2 * (num % den) := by
  unfold roundQuotient
  dsimp only
  split
  · omega
  · split
    · omega
    · cases tie with
      | toEven =>
          change num / den + num / den % 2 = _ ∧ _ ∨ num / den + num / den % 2 = _ ∧ _
          omega
      | away =>
          change num / den + 1 = _ ∧ _ ∨ num / den + 1 = _ ∧ _
          omega

theorem le_roundQuotient (tie : Tie) (num den : Nat) : num / den ≤ roundQuotient tie num den := by
  rcases roundQuotient_cases tie num den with h | h <;> omega

theorem roundQuotient_le (tie : Tie) (num den : Nat) :
    roundQuotient tie num den ≤ num / den + 1 := by
  rcases roundQuotient_cases tie num den with h | h <;> omega

namespace Binary64

theorem unitExponent_bounds (num den : Nat) :
    (num.log2 : Int) - den.log2 - 53 ≤ unitExponent num den ∧
      unitExponent num den ≤ max ((num.log2 : Int) - den.log2 - 52) minExponent := by
  unfold unitExponent
  dsimp only
  split
  · omega
  · omega

/-- A quotient in its unit, rounded. -/
def unitCount (num den : Nat) : Nat :=
  roundQuotient .toEven (num * Nat.pow 2 (-unitExponent num den).toNat)
    (den * Nat.pow 2 (unitExponent num den).toNat)

/-- A quotient that is not too large rounds to a finite datum, in the next unit if rounding carries
over. -/
theorem ofRatio_cases {num den : Nat} (negative : Bool) (hne : num ≠ 0)
    (h : num.log2 ≤ den.log2 + 1022) :
    ofRatio negative num den = .finite negative (unitCount num den) (unitExponent num den) ∨
      unitCount num den = 2 * fullSignificand ∧
        ofRatio negative num den =
          .finite negative fullSignificand (unitExponent num den + 1) := by
  have hunit := (unitExponent_bounds num den).2
  unfold minExponent at hunit
  unfold ofRatio maxExponent
  rw [if_neg hne]
  dsimp only
  rw [← unitCount]
  by_cases hcarried : unitCount num den = 2 * fullSignificand
  · rw [if_pos hcarried, if_pos hcarried, if_neg (by omega)]
    exact Or.inr ⟨hcarried, rfl⟩
  · rw [if_neg hcarried, if_neg hcarried, if_neg (by omega)]
    exact Or.inl rfl

theorem ofRatio_finite {num den : Nat} (negative : Bool) (h : num.log2 ≤ den.log2 + 1022) :
    ∃ m e, ofRatio negative num den = .finite negative m e := by
  by_cases hzero : num = 0
  · subst hzero
    exact ⟨0, minExponent, rfl⟩
  · rcases ofRatio_cases negative hzero h with hdatum | ⟨-, hdatum⟩
    · exact ⟨_, _, hdatum⟩
    · exact ⟨_, _, hdatum⟩

theorem log2_lt_of_count {n : Nat} (hn : n < UInt64.size) : n.log2 < 64 := by
  by_cases hzero : n = 0
  · subst hzero
    decide
  · exact (Nat.log2_lt hzero).2 hn

/-- In the unit of its exponent a positive count is at least one. -/
theorem one_le_in_units {n : Nat} (hpos : 0 < n) :
    1 ≤ n * Nat.pow 2 (-unitExponent n 1).toNat / (1 * Nat.pow 2 (unitExponent n 1).toNat) := by
  have hunit := (unitExponent_bounds n 1).2
  have hone : Nat.log2 1 = 0 := by decide
  unfold minExponent at hunit
  generalize unitExponent n 1 = e at hunit
  rw [Nat.le_div_iff_mul_le (by simp), Nat.one_mul, Nat.one_mul]
  by_cases he : e ≤ 0
  · have hzero : e.toNat = 0 := by omega
    rw [hzero]
    exact Nat.mul_pos hpos (Nat.pow_pos (by decide))
  · have hzero : (-e).toNat = 0 := by omega
    rw [hzero]
    calc Nat.pow 2 e.toNat ≤ 2 ^ n.log2 := Nat.pow_le_pow_right (by decide) (by omega)
      _ ≤ n := Nat.log2_self_le (by omega)
      _ = n * Nat.pow 2 0 := (Nat.mul_one n).symm

/-- A positive count of 64 bits keeps a positive significand and a small exponent. -/
theorem ofNat_finite {n : Nat} (hpos : 0 < n) (hn : n < UInt64.size) :
    ∃ m e, ofNat n = .finite false m e ∧ 0 < m ∧ m ≤ 2 ^ 118 ∧ -53 ≤ e ∧ e ≤ 12 := by
  have hlog := log2_lt_of_count hn
  have hone : Nat.log2 1 = 0 := by decide
  obtain ⟨hlow, hhigh⟩ := unitExponent_bounds n 1
  unfold minExponent at hhigh
  rcases ofRatio_cases false hpos.ne' (by omega) with hdatum | ⟨-, hdatum⟩
  · have hnum : n * Nat.pow 2 (-unitExponent n 1).toNat ≤ 2 ^ 64 * 2 ^ 53 :=
      Nat.mul_le_mul hn.le (Nat.pow_le_pow_right (by decide) (by omega))
    have hpositive : 1 ≤ unitCount n 1 := (one_le_in_units hpos).trans (le_roundQuotient ..)
    have hbounded : unitCount n 1 ≤ 2 ^ 64 * 2 ^ 53 + 1 :=
      (roundQuotient_le ..).trans (Nat.succ_le_succ ((Nat.div_le_self _ _).trans hnum))
    exact ⟨_, _, hdatum, hpositive, by omega, by omega, by omega⟩
  · exact ⟨_, _, hdatum, by decide, by decide, by omega, by omega⟩

/-- The ratio of two counts of 64 bits is finite. -/
theorem ratio_finite {part whole : Nat} (hpart : part < UInt64.size)
    (hwhole : whole < UInt64.size) :
    ∃ negative m e, ratio part whole = .finite negative m e := by
  unfold ratio
  split
  · exact ⟨false, 0, minExponent, rfl⟩
  · rename_i hne
    obtain ⟨n, f, hn, hnpos, -, hf, -⟩ := ofNat_finite (Nat.pos_of_ne_zero hne) hwhole
    rw [hn]
    by_cases hzero : part = 0
    · subst hzero
      refine ⟨false, 0, minExponent, ?_⟩
      simp [ofNat, ofRatio, zero, div, numerator, hnpos.ne']
    · obtain ⟨m, e, hm, -, hmle, -, he⟩ := ofNat_finite (Nat.pos_of_ne_zero hzero) hpart
      rw [hm]
      have hnum : numerator m e * denominator f ≤ 2 ^ 118 * 2 ^ 12 * 2 ^ 53 :=
        Nat.mul_le_mul (Nat.mul_le_mul hmle (Nat.pow_le_pow_right (by decide) (by omega)))
          (Nat.pow_le_pow_right (by decide) (by omega))
      have hlog : (numerator m e * denominator f).log2 < 184 := by
        by_cases hnone : numerator m e * denominator f = 0
        · rw [hnone]
          decide
        · exact (Nat.log2_lt hnone).2 (lt_of_le_of_lt hnum (by decide))
      obtain ⟨q, k, hq⟩ := @ofRatio_finite (numerator m e * denominator f)
        (denominator e * numerator n f) false (by omega)
      exact ⟨false, q, k, by simpa [div, hnpos.ne'] using hq⟩

end Binary64

end SourceGauge
