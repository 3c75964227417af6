import SourceGauge.Binary64.Numeral
import SourceGauge.Proofs.NearestDatum

/-!
# The text of a ratio

A ratio of counts is divided, multiplied by a hundred, rounded, divided by a hundred and written,
and every step rounds. The text is still the nearest hundredth, except at four of the halves
between two hundredths.
-/

namespace SourceGauge.Binary64

theorem denominator_pos (e : Int) : 0 < denominator e := Nat.pow_pos (by decide)

theorem numerator_pos {m : Nat} (h : 0 < m) (e : Int) : 0 < numerator m e :=
  Nat.mul_pos h (Nat.pow_pos (by decide))

/-- Counts of 53 bits are exact, so their ratio is rounded once. -/
theorem ratio_eq_ofRatio {part whole : Nat} (hpos : 0 < whole) (hpart : part < 2 ^ 53)
    (hwhole : whole < 2 ^ 53) : ratio part whole = ofRatio false part whole := by
  obtain ⟨m, e, hm, hpartValue⟩ := ofNat_value hpart
  obtain ⟨n, f, hn, hwholeValue⟩ := ofNat_value hwhole
  have hne : n ≠ 0 := by
    rintro rfl
    rw [Nat.cast_zero, zero_mul, eq_comm, Nat.cast_eq_zero] at hwholeValue
    omega
  have hvalue : ((numerator m e * denominator f : ℕ) : ℚ) / (denominator e * numerator n f : ℕ) =
      part / whole := by
    push_cast
    rw [mul_div_mul_comm, numerator_div_denominator, hpartValue, ← inv_div,
      numerator_div_denominator, hwholeValue, div_eq_mul_inv]
  have hdiv : div (.finite false m e) (.finite false n f) =
      ofRatio false (numerator m e * denominator f) (denominator e * numerator n f) := by
    rw [div, if_neg hne]
    rfl
  unfold ratio
  rw [if_neg hpos.ne', hm, hn, hdiv]
  exact ofRatio_congr false
    (Nat.mul_pos (denominator_pos e) (numerator_pos (Nat.pos_of_ne_zero hne) f)) hpos hvalue

/-! ## Hundredths -/

theorem numerator_mul_div_denominator (m : Nat) (e : Int) (k : Nat) :
    ((numerator m e * k : ℕ) : ℚ) / denominator e = k * (m * 2 ^ e) := by
  rw [← numerator_div_denominator]
  push_cast
  ring

/-- Up to one, whole hundredths are written as they are. -/
theorem fixed_divNat_ofNat {h : Nat} (hh : h ≤ 100) :
    fixed 2 (divNat (ofNat h) 100) = Text.fixedPoint 2 h := by
  obtain ⟨m, e, hm, hvalue⟩ := ofNat_value (show h < 2 ^ 53 by omega)
  have hquotient : (numerator m e : ℚ) / (denominator e * 100 : ℕ) = h / (100 : ℕ) := by
    push_cast
    rw [← div_div, numerator_div_denominator, hvalue]
  have hdatum : divNat (ofNat h) 100 = ofRatio false h 100 := by
    rw [hm, divNat]
    exact ofRatio_congr false (Nat.mul_pos (denominator_pos e) (by decide)) (by decide) hquotient
  obtain ⟨n, f, hn, -, hnear⟩ := @ofRatio_near h 100 0 false (by decide) (by decide) (by omega)
  have hround : roundQuotient .toEven (numerator n f * 100) (denominator f) = h := by
    have herror : (2 : ℚ) ^ (((0 : ℕ) : ℤ) - 53) < 1 / 200 := by norm_num
    apply roundQuotient_eq_of_near .toEven (denominator_pos f)
    obtain ⟨hlow, hhigh⟩ := abs_le.1 hnear
    rw [numerator_mul_div_denominator, abs_lt]
    push_cast at hlow hhigh ⊢
    constructor <;> linarith
  rw [hdatum, hn]
  exact congrArg (Text.fixedPoint 2) hround

/-- A datum whose hundredths stay clear of the halves is written as the hundredth it is near. -/
theorem ratioText_of_near {m : Nat} {e : Int} {h : Nat} (hh : h ≤ 100)
    (hnear : |(h : ℚ) - 100 * (m * 2 ^ e)| < 1 / 2 - 1 / 2 ^ 46) :
    ratioText (.finite false m e) = Text.fixedPoint 2 h := by
  have hpos : (0 : ℚ) < denominator e := by exact_mod_cast denominator_pos e
  obtain ⟨hlow, hhigh⟩ := abs_lt.1 hnear
  have hbound : numerator m e * 100 ≤ denominator e * 2 ^ 7 := by
    have hle : ((numerator m e * 100 : ℕ) : ℚ) / denominator e ≤ 2 ^ 7 := by
      have hcast : (h : ℚ) ≤ 100 := by exact_mod_cast hh
      rw [numerator_mul_div_denominator]
      push_cast
      linarith
    rw [div_le_iff₀ hpos, mul_comm ((2 : ℚ) ^ 7)] at hle
    exact_mod_cast hle
  obtain ⟨n, f, hproduct, hf, hrounded⟩ :=
    @ofRatio_near (numerator m e * 100) (denominator e) 7 false (denominator_pos e) (by decide)
      hbound
  have hinteger : roundQuotient .away (numerator n f) (denominator f) = h := by
    have hsame : (2 : ℚ) ^ (((7 : ℕ) : ℤ) - 53) = 1 / 2 ^ 46 := by norm_num
    apply roundQuotient_eq_of_near .away (denominator_pos f)
    rw [numerator_mul_div_denominator, hsame] at hrounded
    obtain ⟨hlow', hhigh'⟩ := abs_le.1 hrounded
    rw [numerator_div_denominator, abs_lt]
    push_cast at hlow' hhigh'
    constructor <;> linarith
  have haway : roundAway (.finite false n f) = ofNat h := by
    rw [roundAway, if_neg (by omega), hinteger]
    rfl
  have hmul : mulNat (.finite false m e) 100 = .finite false n f := hproduct
  unfold ratioText
  rw [hmul, haway, fixed_divNat_ofNat hh]

/-! ## Ratios of counts -/

/-- The hundredths nearest to a ratio, a half going up. -/
def nearestHundredths (part whole : Nat) : Nat := (200 * part + whole) / (2 * whole)

/-- The ratio is a half between two hundredths. -/
def IsHalf (part whole : Nat) : Prop := 2 * whole ∣ 200 * part + whole

/-- The halves, as odd numbers of two-hundredths, whose hundredfold is rounded below the half. -/
def lostHalves : List Nat := [29, 57, 113, 115]

def fallsShort (part whole : Nat) : Bool := lostHalves.any fun k => 200 * part == k * whole

theorem fallsShort_eq_contains {part whole k : Nat} (hpos : 0 < whole)
    (h : 200 * part = k * whole) : fallsShort part whole = lostHalves.contains k := by
  have hsame : (fun j => 200 * part == j * whole) = (k == ·) := by
    funext j
    rw [h, Bool.eq_iff_iff, beq_iff_eq, beq_iff_eq, Nat.mul_left_inj hpos.ne']
  unfold fallsShort
  rw [hsame, List.contains_eq_any_beq]

theorem isHalf_of_fallsShort {part whole : Nat} (h : fallsShort part whole = true) :
    IsHalf part whole := by
  simp only [fallsShort, lostHalves, List.any_cons, List.any_nil, Bool.or_false, Bool.or_eq_true,
    beq_iff_eq] at h
  rcases h with h | h | h | h
  · exact ⟨15, by omega⟩
  · exact ⟨29, by omega⟩
  · exact ⟨57, by omega⟩
  · exact ⟨58, by omega⟩

theorem nearestHundredths_le {part whole : Nat} (hle : part ≤ whole) (hpos : 0 < whole) :
    nearestHundredths part whole ≤ 100 := by
  unfold nearestHundredths
  rw [← Nat.lt_add_one_iff, Nat.div_lt_iff_lt_mul (by omega)]
  omega

/-- A ratio that is no half keeps a distance from the halves. -/
theorem nearestHundredths_near {part whole : Nat} (hpos : 0 < whole) (h : ¬ IsHalf part whole) :
    |(nearestHundredths part whole : ℚ) - 100 * (part / whole)| ≤ 1 / 2 - 1 / (2 * whole) := by
  have hcast : (0 : ℚ) < whole := by exact_mod_cast hpos
  have hsplit := Nat.div_add_mod (200 * part + whole) (2 * whole)
  have hrest := Nat.mod_lt (200 * part + whole) (show 2 * whole > 0 by omega)
  have hrest' := Nat.pos_of_ne_zero (mt Nat.dvd_of_mod_eq_zero h)
  unfold nearestHundredths
  generalize (200 * part + whole) / (2 * whole) = q at *
  generalize (200 * part + whole) % (2 * whole) = r at *
  have hvalue : 100 * ((part : ℚ) / whole) = q + r / (2 * whole) - 1 / 2 := by
    have hsum : (2 : ℚ) * whole * q + r = 200 * part + whole := by exact_mod_cast hsplit
    field_simp
    linarith
  have hlow : 1 / (2 * whole : ℚ) ≤ r / (2 * whole) := by
    have hr : (1 : ℚ) ≤ r := by exact_mod_cast hrest'
    gcongr
  have hhigh : r / (2 * whole : ℚ) ≤ 1 - 1 / (2 * whole) := by
    rw [le_sub_iff_add_le, ← add_div, div_le_one (by positivity)]
    exact_mod_cast hrest
  rw [hvalue, abs_le]
  constructor <;> linarith

theorem ratioText_of_not_half {part whole : Nat} (hle : part ≤ whole) (hpos : 0 < whole)
    (hwhole : whole < UInt32.size) (h : ¬ IsHalf part whole) :
    ratioText (ofRatio false part whole) =
      Text.fixedPoint 2 (nearestHundredths part whole) := by
  obtain ⟨m, e, hdatum, -, hrounded⟩ :=
    @ofRatio_near part whole 0 false hpos (by decide) (by omega)
  obtain ⟨hlow, hhigh⟩ := abs_le.1 (nearestHundredths_near hpos h)
  obtain ⟨hlow', hhigh'⟩ := abs_le.1 hrounded
  have hdistance : 1 / 2 ^ 33 < 1 / (2 * whole : ℚ) := by
    have hbound : (whole : ℚ) < 2 ^ 32 := by exact_mod_cast hwhole
    apply one_div_lt_one_div_of_lt (by positivity)
    linarith
  have herror : 100 * (2 : ℚ) ^ (((0 : ℕ) : ℤ) - 53) + 1 / 2 ^ 46 < 1 / 2 ^ 33 := by norm_num
  rw [hdatum]
  apply ratioText_of_near (nearestHundredths_le hle hpos)
  rw [abs_lt]
  constructor <;> linarith

theorem ratioText_of_odd : ∀ h ≤ 100, 0 < h →
    ratioText (ofRatio false (2 * h - 1) 200) =
      Text.fixedPoint 2 (if lostHalves.contains (2 * h - 1) then h - 1 else h) := by
  decide +kernel

theorem ratioText_of_half {part whole : Nat} (hle : part ≤ whole) (hpos : 0 < whole)
    (h : IsHalf part whole) :
    ratioText (ofRatio false part whole) =
      Text.fixedPoint 2 (if fallsShort part whole then nearestHundredths part whole - 1
        else nearestHundredths part whole) := by
  obtain ⟨k, hk⟩ := h
  have hnearest : nearestHundredths part whole = k := by
    unfold nearestHundredths
    rw [hk, Nat.mul_div_cancel_left k (by omega)]
  have hbound : k ≤ 100 := hnearest ▸ nearestHundredths_le hle hpos
  have hpositive : 0 < k := by
    rcases Nat.eq_zero_or_pos k with rfl | hpositive
    · omega
    · exact hpositive
  have hodd : 200 * part = (2 * k - 1) * whole := by
    rw [Nat.sub_mul, Nat.one_mul, Nat.mul_right_comm, ← hk, Nat.add_sub_cancel]
  have hdatum : ofRatio false part whole = ofRatio false (2 * k - 1) 200 := by
    apply ofRatio_congr false hpos (by decide)
    rw [div_eq_div_iff (by positivity) (by norm_num), mul_comm (part : ℚ)]
    exact_mod_cast hodd
  rw [hdatum, ratioText_of_odd k hbound hpositive, hnearest, fallsShort_eq_contains hpos hodd]

/-- A ratio of counts is written as the nearest hundredth, a half going up, but for four halves
that are written one hundredth lower. -/
theorem ratioText_of_counts {part whole : Nat} (hle : part ≤ whole) (hpos : 0 < whole)
    (hwhole : whole < UInt32.size) :
    ratioText (ratio part whole) =
      Text.fixedPoint 2 (if fallsShort part whole then nearestHundredths part whole - 1
        else nearestHundredths part whole) := by
  have hbits : whole < 2 ^ 53 := hwhole.trans (by decide)
  rw [ratio_eq_ofRatio hpos (by omega) hbits]
  by_cases hhalf : IsHalf part whole
  · exact ratioText_of_half hle hpos hhalf
  · rw [if_neg (mt isHalf_of_fallsShort hhalf)]
    exact ratioText_of_not_half hle hpos hwhole hhalf

/-- A half that goes up, one that is lost, and the largest counts. -/
theorem ratioText_of_counts_samples :
    ratioText (ratio 3 8) = "0.38".toList ∧ ratioText (ratio 57 200) = "0.28".toList ∧
      ratioText (ratio 4294967294 4294967295) = "1.00".toList :=
  ⟨(ratioText_of_counts (by decide) (by decide) (by decide)).trans (by decide),
    (ratioText_of_counts (by decide) (by decide) (by decide)).trans (by decide),
    (ratioText_of_counts (by decide) (by decide) (by decide)).trans (by decide)⟩

/-- Of 40 lines 23 are 57.5 hundredths, and the half is lost. -/
theorem ratioText_not_always_nearest :
    ¬ ∀ part whole, part ≤ whole → 0 < whole → whole < UInt32.size →
      ratioText (ratio part whole) = Text.fixedPoint 2 (nearestHundredths part whole) := by
  intro h
  exact absurd (h 23 40 (by decide) (by decide) (by decide)) (by decide +kernel)

end SourceGauge.Binary64
