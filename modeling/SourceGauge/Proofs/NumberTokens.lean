import SourceGauge.Json.Basic
import SourceGauge.Proofs.Text

/-!
# Numerals and number tokens

The grammar of JSON numbers, and that every token written for a count or for a binary64 datum
belongs to it. A count is read back from its numeral.
-/

namespace SourceGauge

namespace Text

theorem digitsValue_decimal (n : Nat) : digitsValue (decimal n) = n := by
  have h := Nat.ofDigitChars_ten_toDigits (n := n)
  rw [Nat.ofDigitChars_eq_foldl] at h
  exact h

theorem isDigit_of_mem_decimal {n : Nat} {c : Char} (h : c ∈ decimal n) : c.isDigit = true :=
  Nat.isDigit_of_mem_toDigits (by decide) (by decide) h

theorem decimal_ne_nil (n : Nat) : decimal n ≠ [] := Nat.toDigits_ne_nil

/-- Only the numeral of zero starts with a zero. -/
theorem eq_zero_of_head?_decimal {n : Nat} (h : (decimal n).head? = some '0') : n = 0 := by
  induction n using Nat.strong_induction_on with
  | _ n ih =>
      unfold decimal at h ih
      rw [Nat.toDigits_eq_if (by decide)] at h
      split at h
      · rename_i hn
        have hdigit : ∀ d < 10, d.digitChar = '0' → d = 0 := by decide
        exact hdigit n hn (by simpa using h)
      · rw [List.head?_append_of_ne_nil _ Nat.toDigits_ne_nil] at h
        have hzero := ih (n / 10) (by omega) h
        omega

end Text

namespace Json

/-! ## Grammar -/

/-- One or more digits. -/
structure Digits (s : List Char) : Prop where
  filled : s ≠ []
  digits : ∀ c ∈ s, c.isDigit = true

/-- The digits before the point; a leading zero stands alone. -/
structure Whole (s : List Char) : Prop extends Digits s where
  leading : s.head? = some '0' → s = ['0']

inductive Fraction : List Char → Prop where
  | absent : Fraction []
  | places {ds : List Char} (h : Digits ds) : Fraction ('.' :: ds)

inductive Exponent : List Char → Prop where
  | absent : Exponent []
  | power {mark : Char} {sign ds : List Char} (hm : mark = 'e' ∨ mark = 'E')
      (hs : sign = [] ∨ sign = ['+'] ∨ sign = ['-']) (h : Digits ds) :
      Exponent (mark :: sign ++ ds)

/-- A number without its sign. -/
inductive Magnitude : List Char → Prop where
  | mk {whole fraction exponent : List Char} (hw : Whole whole) (hf : Fraction fraction)
      (he : Exponent exponent) : Magnitude (whole ++ fraction ++ exponent)

/-- The tokens that stand for numbers. -/
inductive IsNumber : List Char → Prop where
  | plain {s : List Char} (h : Magnitude s) : IsNumber s
  | negative {s : List Char} (h : Magnitude s) : IsNumber ('-' :: s)

theorem isDigit_of_mem_zeros {k : Nat} {c : Char} (h : c ∈ List.replicate k '0') :
    c.isDigit = true := by
  rw [List.eq_of_mem_replicate h]
  decide

namespace Digits

variable {s : List Char}

theorem append_zeros (h : Digits s) (k : Nat) : Digits (s ++ List.replicate k '0') := by
  refine ⟨by simp [h.filled], ?_⟩
  intro c hc
  rcases List.mem_append.1 hc with hc | hc
  · exact h.digits c hc
  · exact isDigit_of_mem_zeros hc

theorem zeros_append (h : Digits s) (k : Nat) : Digits (List.replicate k '0' ++ s) := by
  refine ⟨by simp [h.filled], ?_⟩
  intro c hc
  rcases List.mem_append.1 hc with hc | hc
  · exact isDigit_of_mem_zeros hc
  · exact h.digits c hc

theorem take (h : Digits s) {k : Nat} (hk : 0 < k) : Digits (s.take k) := by
  refine ⟨?_, fun c hc => h.digits c (List.mem_of_mem_take hc)⟩
  rw [Ne, List.take_eq_nil_iff, not_or]
  exact ⟨by omega, h.filled⟩

theorem drop (h : Digits s) {k : Nat} (hk : k < s.length) : Digits (s.drop k) := by
  refine ⟨?_, fun c hc => h.digits c (List.mem_of_mem_drop hc)⟩
  rw [Ne, List.drop_eq_nil_iff]
  omega

end Digits

theorem whole_zero : Whole ['0'] := ⟨⟨by simp, by simp⟩, fun _ => rfl⟩

theorem digits_decimal (n : Nat) : Digits (Text.decimal n) :=
  ⟨Text.decimal_ne_nil n, fun _ hc => Text.isDigit_of_mem_decimal hc⟩

/-! ## Tokens that are written -/

theorem isNumber_decimal (n : Nat) : IsNumber (Text.decimal n) := by
  have hwhole : Whole (Text.decimal n) := by
    refine ⟨digits_decimal n, ?_⟩
    intro hzero
    rw [Text.eq_zero_of_head?_decimal hzero]
    rfl
  simpa using IsNumber.plain (.mk hwhole .absent .absent)

/-- Zero is written without a power of ten. -/
def Reduced (d : Binary64.Decimal) : Prop := d.coefficient = 0 → d.exponent = 0

theorem coefficient_dropZerosFuel {fuel : Nat} {d : Binary64.Decimal} (h : 0 < d.coefficient) :
    0 < (Binary64.Decimal.dropZerosFuel fuel d).coefficient := by
  induction fuel generalizing d with
  | zero => exact h
  | succ fuel ih =>
      unfold Binary64.Decimal.dropZerosFuel
      split
      · apply ih
        change 0 < d.coefficient / 10
        omega
      · exact h

theorem reduced_dropZeros (d : Binary64.Decimal) : Reduced d.dropZeros := by
  unfold Binary64.Decimal.dropZeros
  split
  · intro _
    rfl
  · rename_i hne
    intro hzero
    have hpos := @coefficient_dropZerosFuel (Text.decimal d.coefficient).length d
      (Nat.pos_of_ne_zero hne)
    omega

theorem magnitude_positional {d : Binary64.Decimal} (h : Reduced d) :
    Magnitude (positional d) := by
  have hd := digits_decimal d.coefficient
  unfold positional
  dsimp only
  split
  · have hwhole : Whole (Text.decimal d.coefficient ++ List.replicate d.exponent.toNat '0') := by
      refine ⟨hd.append_zeros _, ?_⟩
      intro hzero
      rw [List.head?_append_of_ne_nil _ hd.filled] at hzero
      have hcoefficient := Text.eq_zero_of_head?_decimal hzero
      rw [hcoefficient, h hcoefficient]
      rfl
    simpa using Magnitude.mk hwhole (.places whole_zero.toDigits) .absent
  · rename_i hexponent
    split
    · rename_i hplaces
      have hfraction := hd.drop (k := (Text.decimal d.coefficient).length - (-d.exponent).toNat)
        (by omega)
      have hwhole : Whole ((Text.decimal d.coefficient).take
          ((Text.decimal d.coefficient).length - (-d.exponent).toNat)) := by
        refine ⟨hd.take (by omega), ?_⟩
        intro hzero
        rw [List.head?_take, if_neg (by omega)] at hzero
        have := h (Text.eq_zero_of_head?_decimal hzero)
        omega
      simpa using Magnitude.mk hwhole (.places hfraction) .absent
    · simpa using Magnitude.mk whole_zero (.places (hd.zeros_append _)) .absent

theorem magnitude_scientific (d : Binary64.Decimal) (power : Int) :
    Magnitude (scientific d power) := by
  obtain ⟨c, cs, hcs⟩ := List.exists_cons_of_ne_nil (Text.decimal_ne_nil d.coefficient)
  have hdigits := (digits_decimal d.coefficient).digits
  rw [hcs] at hdigits
  have hwhole : Whole [c] := by
    refine ⟨⟨by simp, by simpa using hdigits c (by simp)⟩, ?_⟩
    intro hzero
    simpa using hzero
  have hfraction : Fraction (if cs.isEmpty then [] else '.' :: cs) := by
    split
    · exact .absent
    · rename_i hne
      exact .places ⟨by simpa using hne, fun d hd => hdigits d (List.mem_cons_of_mem c hd)⟩
  have hexponent : Exponent ('e' :: [if power < 0 then '-' else '+'] ++
      Text.decimal power.natAbs) := by
    apply Exponent.power (.inl rfl) _ (digits_decimal _)
    split
    · exact .inr (.inr rfl)
    · exact .inr (.inl rfl)
  unfold scientific
  rw [hcs]
  simpa using Magnitude.mk hwhole hfraction hexponent

theorem isNumber_finiteToken (negative : Bool) (significand : Nat) (exponent : Int) :
    IsNumber (finiteToken negative significand exponent) := by
  have hmagnitude : Magnitude (if significand = 0 then ['0', '.', '0']
      else decimalToken (Binary64.shortest significand exponent)) := by
    split
    · exact magnitude_positional (d := ⟨0, 0⟩) fun _ => rfl
    · unfold decimalToken
      dsimp only
      split
      · exact magnitude_positional (reduced_dropZeros _)
      · exact magnitude_scientific _ _
  unfold finiteToken
  cases negative with
  | false => exact .plain hmagnitude
  | true => exact .negative hmagnitude

end Json

end SourceGauge
