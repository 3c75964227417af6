import Mathlib.Algebra.Order.Field.Power
import Mathlib.Data.Int.Log
import Mathlib.Data.Rat.Floor
import Mathlib.Tactic.FieldSimp
import Mathlib.Tactic.GCongr
import Mathlib.Tactic.Linarith
import Mathlib.Tactic.Positivity
import SourceGauge.Proofs.CountRatios

/-!
# The nearest datum

Rounding to a datum, as a statement about rational numbers: the result depends on the quotient
only, it is at most half a unit away from it, and a count of 53 bits stays as it is.
-/

namespace SourceGauge

/-! ## Nearest integers -/

theorem roundQuotient_mul (tie : Tie) (num den : Nat) {k : Nat} (hk : 0 < k) :
    roundQuotient tie (num * k) (den * k) = roundQuotient tie num den := by
  have hlt : 2 * (num % den * k) < den * k ↔ 2 * (num % den) < den := by
    rw [← Nat.mul_assoc, Nat.mul_lt_mul_right hk]
  have hgt : den * k < 2 * (num % den * k) ↔ den < 2 * (num % den) := by
    rw [← Nat.mul_assoc, Nat.mul_lt_mul_right hk]
  unfold roundQuotient
  simp only [Nat.mul_div_mul_right _ _ hk, Nat.mul_mod_mul_right, hlt, hgt]

theorem roundQuotient_congr (tie : Tie) {num den num' den' : Nat} (hden : 0 < den)
    (hden' : 0 < den') (h : num * den' = num' * den) :
    roundQuotient tie num den = roundQuotient tie num' den' := by
  calc roundQuotient tie num den = roundQuotient tie (num * den') (den * den') :=
        (roundQuotient_mul tie num den hden').symm
    _ = roundQuotient tie (num' * den) (den' * den) := by rw [h, Nat.mul_comm den den']
    _ = roundQuotient tie num' den' := roundQuotient_mul tie num' den' hden

theorem roundQuotient_near (tie : Tie) (num : Nat) {den : Nat} (hden : 0 < den) :
    |(roundQuotient tie num den : ℚ) - num / den| ≤ 1 / 2 := by
  have hpos : (0 : ℚ) < den := by exact_mod_cast hden
  have hsplit : (num : ℚ) / den = (num / den : ℕ) + (num % den : ℕ) / den := by
    have hnum : (num : ℚ) = den * (num / den : ℕ) + (num % den : ℕ) := by
      exact_mod_cast (Nat.div_add_mod num den).symm
    field_simp
    exact hnum
  have hrest : ((num % den : ℕ) : ℚ) / den < 1 := by
    rw [div_lt_one hpos]
    exact_mod_cast Nat.mod_lt num hden
  have hrest' : (0 : ℚ) ≤ (num % den : ℕ) / den := by positivity
  rw [hsplit, abs_le]
  rcases roundQuotient_cases tie num den with ⟨heq, hhalf⟩ | ⟨heq, hhalf⟩
  · have hle : ((num % den : ℕ) : ℚ) / den ≤ 1 / 2 := by
      rw [div_le_div_iff₀ hpos two_pos, one_mul]
      exact_mod_cast (Nat.mul_comm _ _).trans_le hhalf
    rw [heq]
    constructor <;> linarith
  · have hge : 1 / 2 ≤ ((num % den : ℕ) : ℚ) / den := by
      rw [div_le_div_iff₀ two_pos hpos, one_mul]
      exact_mod_cast hhalf.trans_eq (Nat.mul_comm _ _)
    rw [heq]
    push_cast
    constructor <;> linarith

/-- Away from the halves the rule for ties does not matter. -/
theorem roundQuotient_eq_of_near (tie : Tie) {num den n : Nat} (hden : 0 < den)
    (h : |(n : ℚ) - num / den| < 1 / 2) : roundQuotient tie num den = n := by
  have hnear := roundQuotient_near tie num hden
  rw [abs_le] at hnear
  rw [abs_lt] at h
  have hlow : ((roundQuotient tie num den : ℕ) : ℚ) < (n + 1 : ℕ) := by
    push_cast
    linarith
  have hhigh : (n : ℚ) < (roundQuotient tie num den + 1 : ℕ) := by
    push_cast
    linarith
  have := Nat.cast_lt.1 hlow
  have := Nat.cast_lt.1 hhigh
  omega

namespace Binary64

/-! ## Powers of two -/

theorem two_zpow_eq (e : Int) : (2 : ℚ) ^ e = 2 ^ e.toNat / 2 ^ (-e).toNat := by
  rcases le_total 0 e with he | he
  · obtain ⟨n, rfl⟩ := Int.eq_ofNat_of_zero_le he
    simp
  · obtain ⟨n, hn⟩ := Int.eq_ofNat_of_zero_le (neg_nonneg.2 he)
    obtain rfl : e = -n := by omega
    simp

theorem numerator_div_denominator (m : Nat) (e : Int) :
    (numerator m e : ℚ) / denominator e = m * 2 ^ e := by
  simp only [numerator, denominator, Nat.pow_eq]
  rw [two_zpow_eq]
  push_cast
  rw [mul_div_assoc]

/-- A quotient counted in units of `2 ^ e`. -/
theorem scaled_quotient (num den : Nat) (e : Int) :
    ((num * Nat.pow 2 (-e).toNat : ℕ) : ℚ) / (den * Nat.pow 2 e.toNat : ℕ) =
      num / den / 2 ^ e := by
  simp only [Nat.pow_eq]
  rw [two_zpow_eq]
  push_cast
  rw [mul_div_mul_comm, div_div_eq_mul_div, mul_div_assoc]

/-! ## The unit of a quotient -/

theorem log2_bounds {n : Nat} (h : 0 < n) :
    (2 : ℚ) ^ (n.log2 : ℤ) ≤ n ∧ (n : ℚ) < 2 ^ ((n.log2 : ℤ) + 1) := by
  have hlow : 2 ^ n.log2 ≤ n := Nat.log2_self_le (by omega)
  have hhigh : n < 2 ^ (n.log2 + 1) := Nat.lt_log2_self
  constructor
  · exact_mod_cast hlow
  · exact_mod_cast hhigh

theorem log_bounds {num den : Nat} (hnum : 0 < num) (hden : 0 < den) :
    (num.log2 : ℤ) - den.log2 - 1 ≤ Int.log 2 ((num : ℚ) / den) ∧
      Int.log 2 ((num : ℚ) / den) ≤ (num.log2 : ℤ) - den.log2 := by
  have hpos : (0 : ℚ) < den := by exact_mod_cast hden
  have hquotient : (0 : ℚ) < (num : ℚ) / den := by positivity
  obtain ⟨hnumLow, hnumHigh⟩ := log2_bounds hnum
  obtain ⟨hdenLow, hdenHigh⟩ := log2_bounds hden
  constructor
  · rw [← Int.zpow_le_iff_le_log Nat.one_lt_two hquotient, le_div_iff₀ hpos]
    calc ((2 : ℕ) : ℚ) ^ ((num.log2 : ℤ) - den.log2 - 1) * den
        ≤ 2 ^ ((num.log2 : ℤ) - den.log2 - 1) * 2 ^ ((den.log2 : ℤ) + 1) := by
          push_cast
          gcongr
      _ = 2 ^ (num.log2 : ℤ) := by
          rw [← zpow_add₀ two_ne_zero]
          congr 1
          ring
      _ ≤ num := hnumLow
  · rw [← Int.lt_add_one_iff, ← Int.lt_zpow_iff_log_lt Nat.one_lt_two hquotient, div_lt_iff₀ hpos]
    calc (num : ℚ) < 2 ^ ((num.log2 : ℤ) + 1) := hnumHigh
      _ = 2 ^ ((num.log2 : ℤ) - den.log2 + 1) * 2 ^ (den.log2 : ℤ) := by
          rw [← zpow_add₀ two_ne_zero]
          congr 1
          ring
      _ ≤ ((2 : ℕ) : ℚ) ^ ((num.log2 : ℤ) - den.log2 + 1) * den := by
          push_cast
          gcongr

/-- The first guess is too large exactly if the quotient is below the power of two guessed. -/
theorem guess_too_large_iff {num den : Nat} (hnum : 0 < num) (hden : 0 < den) (guess : Int) :
    num * Nat.pow 2 (-guess).toNat < den * Nat.pow 2 guess.toNat * fullSignificand ↔
      Int.log 2 ((num : ℚ) / den) < guess + 52 := by
  have hquotient : (0 : ℚ) < (num : ℚ) / den := by positivity
  have hscaled : (0 : ℚ) < (den * Nat.pow 2 guess.toNat : ℕ) := by
    exact_mod_cast Nat.mul_pos hden (Nat.pow_pos (by decide))
  have hfull : ((fullSignificand : ℕ) : ℚ) = 2 ^ (52 : ℤ) := by
    norm_num [fullSignificand]
  have hcast : num * Nat.pow 2 (-guess).toNat < den * Nat.pow 2 guess.toNat * fullSignificand ↔
      ((num * Nat.pow 2 (-guess).toNat : ℕ) : ℚ) <
        (fullSignificand : ℕ) * (den * Nat.pow 2 guess.toNat : ℕ) := by
    rw [← Nat.cast_mul, Nat.cast_lt, Nat.mul_comm fullSignificand]
  rw [hcast, ← div_lt_iff₀ hscaled, scaled_quotient, hfull, div_lt_iff₀ (by positivity),
    ← zpow_add₀ two_ne_zero, add_comm, ← Int.lt_zpow_iff_log_lt Nat.one_lt_two hquotient]
  norm_num

/-- The unit has 53 bits of the quotient above it, unless it is the least one. -/
theorem unitExponent_eq {num den : Nat} (hnum : 0 < num) (hden : 0 < den) :
    unitExponent num den = max (Int.log 2 ((num : ℚ) / den) - 52) minExponent := by
  obtain ⟨hlow, hhigh⟩ := log_bounds hnum hden
  unfold unitExponent
  simp only [guess_too_large_iff hnum hden]
  split
  · omega
  · omega

theorem unitExponent_le {num den k : Nat} (hnum : 0 < num) (hden : 0 < den)
    (h : num ≤ den * 2 ^ k) : unitExponent num den ≤ (k : ℤ) - 52 := by
  have hpos : (0 : ℚ) < den := by exact_mod_cast hden
  have hquotient : (0 : ℚ) < (num : ℚ) / den := by positivity
  have hlog : Int.log 2 ((num : ℚ) / den) < (k : ℤ) + 1 := by
    rw [← Int.lt_zpow_iff_log_lt Nat.one_lt_two hquotient, div_lt_iff₀ hpos]
    calc (num : ℚ) ≤ den * 2 ^ k := by exact_mod_cast h
      _ < den * 2 ^ (k + 1) := by
          gcongr
          · norm_num
          · omega
      _ = ((2 : ℕ) : ℚ) ^ ((k : ℤ) + 1) * den := by
          rw [mul_comm]
          norm_cast
  rw [unitExponent_eq hnum hden]
  unfold minExponent
  omega

/-! ## The datum of a quotient -/

/-- Equal quotients round to the same datum. -/
theorem ofRatio_congr (negative : Bool) {num den num' den' : Nat} (hden : 0 < den)
    (hden' : 0 < den') (h : (num : ℚ) / den = num' / den') :
    ofRatio negative num den = ofRatio negative num' den' := by
  have hpos : (den : ℚ) ≠ 0 := by exact_mod_cast hden.ne'
  have hpos' : (den' : ℚ) ≠ 0 := by exact_mod_cast hden'.ne'
  have hcross : num * den' = num' * den := by
    rw [div_eq_div_iff hpos hpos'] at h
    exact_mod_cast h
  by_cases hzero : num = 0
  · have hzero' : num' = 0 := by
      rw [hzero, Nat.zero_mul, eq_comm, Nat.mul_eq_zero] at hcross
      omega
    unfold ofRatio
    rw [if_pos hzero, if_pos hzero']
  · have hzero' : num' ≠ 0 := by
      rintro rfl
      rw [Nat.zero_mul, Nat.mul_eq_zero] at hcross
      omega
    have hunit : unitExponent num den = unitExponent num' den' := by
      rw [unitExponent_eq (Nat.pos_of_ne_zero hzero) hden,
        unitExponent_eq (Nat.pos_of_ne_zero hzero') hden', h]
    have hcount : unitCount num den = unitCount num' den' := by
      unfold unitCount
      rw [hunit]
      apply roundQuotient_congr .toEven (Nat.mul_pos hden (Nat.pow_pos (by decide)))
        (Nat.mul_pos hden' (Nat.pow_pos (by decide)))
      rw [Nat.mul_mul_mul_comm, hcross, Nat.mul_mul_mul_comm]
    unfold ofRatio
    rw [if_neg hzero, if_neg hzero']
    dsimp only
    rw [← unitCount, ← unitCount, hunit, hcount]

theorem ofRatio_value {num den : Nat} (negative : Bool) (hne : num ≠ 0)
    (h : num.log2 ≤ den.log2 + 1022) :
    ∃ m e, ofRatio negative num den = .finite negative m e ∧ e ≤ unitExponent num den + 1 ∧
      (m : ℚ) * 2 ^ e = unitCount num den * 2 ^ unitExponent num den := by
  rcases ofRatio_cases negative hne h with hdatum | ⟨hcarried, hdatum⟩
  · exact ⟨_, _, hdatum, by omega, rfl⟩
  · refine ⟨_, _, hdatum, le_rfl, ?_⟩
    rw [hcarried, zpow_add_one₀ two_ne_zero]
    push_cast
    ring

theorem unitCount_near (num : Nat) {den : Nat} (hden : 0 < den) :
    |(unitCount num den : ℚ) * 2 ^ unitExponent num den - num / den| ≤
      2 ^ unitExponent num den / 2 := by
  have hunit : (0 : ℚ) < 2 ^ unitExponent num den := by positivity
  have hscaled : 0 < den * Nat.pow 2 (unitExponent num den).toNat :=
    Nat.mul_pos hden (Nat.pow_pos (by decide))
  have hnear := roundQuotient_near .toEven (num * Nat.pow 2 (-unitExponent num den).toNat) hscaled
  rw [← unitCount, scaled_quotient] at hnear
  calc |(unitCount num den : ℚ) * 2 ^ unitExponent num den - num / den|
      = |((unitCount num den : ℚ) - num / den / 2 ^ unitExponent num den) *
          2 ^ unitExponent num den| := by rw [sub_mul, div_mul_cancel₀ _ hunit.ne']
    _ = |(unitCount num den : ℚ) - num / den / 2 ^ unitExponent num den| *
          2 ^ unitExponent num den := by rw [abs_mul, abs_of_pos hunit]
    _ ≤ 1 / 2 * 2 ^ unitExponent num den := by gcongr
    _ = 2 ^ unitExponent num den / 2 := by ring

/-- A quotient of at most `2 ^ k` is moved by half of its unit at most. -/
theorem ofRatio_near {num den k : Nat} (negative : Bool) (hden : 0 < den) (hk : k ≤ 1000)
    (h : num ≤ den * 2 ^ k) :
    ∃ m e, ofRatio negative num den = .finite negative m e ∧ e ≤ (k : ℤ) - 51 ∧
      |(m : ℚ) * 2 ^ e - num / den| ≤ 2 ^ ((k : ℤ) - 53) := by
  by_cases hzero : num = 0
  · subst hzero
    refine ⟨0, minExponent, rfl, ?_, ?_⟩
    · unfold minExponent
      omega
    · rw [Nat.cast_zero, zero_mul, zero_div, sub_zero, abs_zero]
      positivity
  · have hnum := Nat.pos_of_ne_zero hzero
    have hunit := unitExponent_le hnum hden h
    have hlog := (unitExponent_bounds num den).1
    obtain ⟨m, e, hdatum, he, hvalue⟩ := @ofRatio_value num den negative hzero (by omega)
    refine ⟨m, e, hdatum, by omega, ?_⟩
    calc |(m : ℚ) * 2 ^ e - num / den| ≤ 2 ^ unitExponent num den / 2 := by
          rw [hvalue]
          exact unitCount_near num hden
      _ = 2 ^ (unitExponent num den - 1) := by rw [zpow_sub_one₀ two_ne_zero, div_eq_mul_inv]
      _ ≤ 2 ^ ((k : ℤ) - 53) := by
          apply zpow_le_zpow_right₀ one_le_two
          omega

/-- A count of 53 bits is its own datum. -/
theorem ofNat_value {n : Nat} (hn : n < 2 ^ 53) :
    ∃ m e, ofNat n = .finite false m e ∧ (m : ℚ) * 2 ^ e = n := by
  by_cases hzero : n = 0
  · subst hzero
    exact ⟨0, minExponent, rfl, by simp⟩
  · have hlog : n.log2 < 53 := (Nat.log2_lt hzero).2 hn
    have hone : Nat.log2 1 = 0 := by decide
    obtain ⟨m, e, hdatum, -, hvalue⟩ := @ofRatio_value n 1 false hzero (by omega)
    have hunit : (unitExponent n 1).toNat = 0 := by
      have hbound := (unitExponent_bounds n 1).2
      unfold minExponent at hbound
      omega
    -- the unit is a fraction of one, so nothing is left to round
    have hcount : unitCount n 1 = n * Nat.pow 2 (-unitExponent n 1).toNat := by
      unfold unitCount
      rw [hunit]
      apply roundQuotient_eq_of_near .toEven (by decide)
      simp
    refine ⟨m, e, hdatum, ?_⟩
    rw [hvalue, hcount, two_zpow_eq, hunit, Nat.pow_eq]
    push_cast
    field_simp

end Binary64

end SourceGauge
