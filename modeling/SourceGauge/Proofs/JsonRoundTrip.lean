import SourceGauge.Json.Parser
import SourceGauge.Json.Printer
import SourceGauge.Proofs.NumberTokens

/-!
# Reading what was written

The indented text of a JSON value is read back as that value, for all values whose numbers are
number tokens and whose strings have a text. Each reader is followed past its own part of the text,
with any rest behind it that cannot go on with a number.
-/

namespace SourceGauge.Json

/-! ## Strings -/

theorem hexValue?_hexDigit {d : Nat} (h : d < 16) : hexValue? (hexDigit d) = some d := by
  have hall : ∀ d < 16, hexValue? (hexDigit d) = some d := by decide
  exact hall d h

theorem hexCode?_control {n : Nat} (h : n < 256) :
    hexCode? '0' '0' (hexDigit (n / 16)) (hexDigit (n % 16)) = some n := by
  have hzero : hexValue? '0' = some 0 := by decide
  simp only [hexCode?, hzero, hexValue?_hexDigit (show n / 16 < 16 by omega),
    hexValue?_hexDigit (show n % 16 < 16 by omega), Option.bind_eq_bind, Option.bind_some,
    Option.pure_def, Option.some.injEq]
  omega

theorem readString_code {a b c d : Char} {n : Nat} (h : hexCode? a b c d = some n)
    (rest : List Char) :
    readString ('\\' :: 'u' :: a :: b :: c :: d :: rest) =
      (readString rest).map fun r => (n :: r.1, r.2) := by
  rw [readString, h]
  cases readString rest with
  | none => rfl
  | some r => rfl

theorem readString_letter {e c : Char} (h : escaped? e = some c) (hu : e ≠ 'u')
    (rest : List Char) :
    readString ('\\' :: e :: rest) = (readString rest).map fun r => (c.toNat :: r.1, r.2) := by
  rw [readString, h]
  · cases readString rest with
    | none => rfl
    | some r => rfl
  · intro _ _ _ _ _ he
    exact absurd he hu

theorem readString_plain {c : Char} (hquote : c ≠ '"') (hslash : c ≠ '\\')
    (hcontrol : ¬ c.toNat < 0x20) (rest : List Char) :
    readString (c :: rest) = (readString rest).map fun r => (c.toNat :: r.1, r.2) := by
  rw [readString.eq_def]
  split
  · rename_i h
    cases h
  · rename_i h
    cases h
    exact absurd rfl hquote
  · rename_i h
    cases h
    exact absurd rfl hslash
  · rename_i h
    cases h
    exact absurd rfl hslash
  · rename_i d others hd _ _ h
    cases h
    rw [if_neg (by simp [hslash, hcontrol])]
    cases readString rest with
    | none => rfl
    | some r => rfl

/-- A character is escaped by a letter, by its code or not at all. -/
theorem escape_cases (c : Char) :
    (∃ e, escape c = ['\\', e] ∧ escaped? e = some c ∧ e ≠ 'u') ∨
    (c.toNat < 0x20 ∧
      escape c = ['\\', 'u', '0', '0', hexDigit (c.toNat / 16), hexDigit (c.toNat % 16)]) ∨
    (c ≠ '"' ∧ c ≠ '\\' ∧ ¬ c.toNat < 0x20 ∧ escape c = [c]) := by
  have hcode : ∀ n, c.toNat = n → c = Char.ofNat n := by
    intro n hn
    rw [← hn, Char.ofNat_toNat]
  by_cases hletter :
      c = '"' ∨ c = '\\' ∨ c.toNat = 8 ∨ c.toNat = 12 ∨ c = '\n' ∨ c = '\r' ∨ c = '\t'
  · left
    rcases hletter with rfl | rfl | hback | hfeed | rfl | rfl | rfl
    · exact ⟨'"', rfl, rfl, by decide⟩
    · exact ⟨'\\', rfl, rfl, by decide⟩
    · rw [hcode 8 hback]
      exact ⟨'b', rfl, rfl, by decide⟩
    · rw [hcode 12 hfeed]
      exact ⟨'f', rfl, rfl, by decide⟩
    · exact ⟨'n', rfl, rfl, by decide⟩
    · exact ⟨'r', rfl, rfl, by decide⟩
    · exact ⟨'t', rfl, rfl, by decide⟩
  · simp only [not_or] at hletter
    obtain ⟨hquote, hslash, hback, hfeed, hline, hreturn, htab⟩ := hletter
    rw [escape, if_neg hquote, if_neg hslash, if_neg hback, if_neg hfeed, if_neg hline,
      if_neg hreturn, if_neg htab]
    by_cases hcontrol : c.toNat < 0x20
    · exact .inr (.inl ⟨hcontrol, if_pos hcontrol⟩)
    · exact .inr (.inr ⟨hquote, hslash, hcontrol, if_neg hcontrol⟩)

theorem readString_escape (c : Char) (rest : List Char) :
    readString (escape c ++ rest) = (readString rest).map fun r => (c.toNat :: r.1, r.2) := by
  rcases escape_cases c with ⟨e, he, hc, hu⟩ | ⟨hcontrol, he⟩ | ⟨hquote, hslash, hcontrol, he⟩
  · rw [he]
    exact readString_letter hc hu rest
  · rw [he]
    exact readString_code (hexCode?_control (by omega)) rest
  · rw [he]
    exact readString_plain hquote hslash hcontrol rest

theorem readString_literal (text rest : List Char) :
    readString (text.flatMap escape ++ '"' :: rest) = some (text.map Char.toNat, rest) := by
  induction text with
  | nil => rfl
  | cons c cs ih =>
      rw [List.flatMap_cons, List.append_assoc, readString_escape, ih]
      rfl

theorem not_surrogate (c : Char) : ¬ (0xD800 ≤ c.toNat ∧ c.toNat < 0xE000) := by
  have hvalid := c.valid
  change c.toNat < 0xD800 ∨ 0xDFFF < c.toNat ∧ c.toNat < 0x110000 at hvalid
  omega

theorem textOf?_codes (text : List Char) : textOf? (text.map Char.toNat) = some text := by
  induction text with
  | nil => rfl
  | cons c cs ih =>
      have hc := not_surrogate c
      cases cs with
      | nil => simp [textOf?, hc]
      | cons d ds =>
          have hpair : ¬ (0xD800 ≤ c.toNat ∧ c.toNat < 0xDC00 ∧ 0xDC00 ≤ d.toNat ∧
              d.toNat < 0xE000) := by omega
          rw [List.map_cons, List.map_cons] at *
          rw [textOf?, if_neg hpair, if_neg hc, ih]
          simp

/-! ## Numbers -/

/-- What stands here does not go on with a number. -/
def EndsNumber (rest : List Char) : Prop :=
  ∀ c, rest.head? = some c → c.isDigit = false ∧ c ≠ '.' ∧ c ≠ 'e' ∧ c ≠ 'E'

theorem EndsNumber.not_digit {rest : List Char} (h : EndsNumber rest) :
    rest.head?.any Char.isDigit = false := by
  cases hr : rest.head? with
  | none => rfl
  | some c => exact (h c hr).1

theorem readDigits_append {ds rest : List Char} (h : Digits ds)
    (hr : rest.head?.any Char.isDigit = false) : readDigits (ds ++ rest) = some (ds, rest) := by
  simp [readDigits, Text.takeWhile_run h.digits hr, Text.dropWhile_run h.digits hr, h.filled]

theorem readWhole_append {whole rest : List Char} (h : Whole whole)
    (hr : rest.head?.any Char.isDigit = false) :
    readWhole (whole ++ rest) = some (whole, rest) := by
  by_cases hzero : whole.head? = some '0'
  · rw [h.leading hzero]
    rfl
  · rw [readWhole, readDigits_append h.toDigits hr]
    intro tail htail
    apply hzero
    obtain ⟨c, cs, rfl⟩ := List.exists_cons_of_ne_nil h.filled
    cases htail
    rfl

theorem readFraction_append {fraction rest : List Char} (h : Fraction fraction)
    (hr : rest.head?.any Char.isDigit = false) (hpoint : rest.head? ≠ some '.') :
    readFraction (fraction ++ rest) = some (fraction, rest) := by
  cases h with
  | absent =>
      rw [List.nil_append, readFraction]
      intro tail htail
      rw [htail] at hpoint
      exact hpoint rfl
  | places hds => simp [readFraction, readDigits_append hds hr]

theorem readExponent_append {exponent rest : List Char} (h : Exponent exponent)
    (hr : EndsNumber rest) : readExponent (exponent ++ rest) = some (exponent, rest) := by
  cases h with
  | absent =>
      cases rest with
      | nil => rfl
      | cons c cs =>
          obtain ⟨-, -, he, hE⟩ := hr c rfl
          simp [readExponent, he, hE]
  | power hm hs hds =>
      rename_i mark sign ds
      have hread := readDigits_append hds hr.not_digit
      rcases hs with rfl | rfl | rfl
      · obtain ⟨d, ds, rfl⟩ := List.exists_cons_of_ne_nil hds.filled
        have hd := hds.digits d (by simp)
        have hplus : d ≠ '+' := by rintro rfl; exact absurd hd (by decide)
        have hminus : d ≠ '-' := by rintro rfl; exact absurd hd (by decide)
        rw [List.cons_append] at hread
        simp [readExponent, hm, hplus, hminus, hread]
      · simp [readExponent, hm, hread]
      · simp [readExponent, hm, hread]

theorem head_exponent {exponent rest : List Char} (h : Exponent exponent) (hr : EndsNumber rest) :
    (exponent ++ rest).head?.any Char.isDigit = false ∧ (exponent ++ rest).head? ≠ some '.' := by
  cases h with
  | absent =>
      refine ⟨hr.not_digit, ?_⟩
      intro hpoint
      exact (hr '.' hpoint).2.1 rfl
  | power hm hs hds =>
      rcases hm with rfl | rfl
      · simp
      · simp

theorem head_fraction {fraction rest : List Char} (h : Fraction fraction)
    (hr : rest.head?.any Char.isDigit = false) :
    (fraction ++ rest).head?.any Char.isDigit = false := by
  cases h with
  | absent => exact hr
  | places hds => rfl

theorem Magnitude.reads {s rest : List Char} (h : Magnitude s) (hr : EndsNumber rest) :
    ∃ whole fraction exponent, whole ++ (fraction ++ exponent) = s ∧
      readWhole (s ++ rest) = some (whole, fraction ++ (exponent ++ rest)) ∧
      readFraction (fraction ++ (exponent ++ rest)) = some (fraction, exponent ++ rest) ∧
      readExponent (exponent ++ rest) = some (exponent, rest) := by
  obtain ⟨hw, hf, he⟩ := h
  obtain ⟨hdigit, hpoint⟩ := head_exponent he hr
  refine ⟨_, _, _, (List.append_assoc ..).symm, ?_, readFraction_append hf hdigit hpoint,
    readExponent_append he hr⟩
  rw [List.append_assoc, List.append_assoc]
  exact readWhole_append hw (head_fraction hf hdigit)

theorem Magnitude.exists_digit {s : List Char} (h : Magnitude s) :
    ∃ d ds, s = d :: ds ∧ d.isDigit = true := by
  obtain ⟨hw, hf, he⟩ := h
  obtain ⟨d, ds, rfl⟩ := List.exists_cons_of_ne_nil hw.filled
  exact ⟨d, _, rfl, hw.digits d (by simp)⟩

theorem ne_of_isDigit {c d : Char} (hd : d.isDigit = true) (hc : c.isDigit = false) : d ≠ c := by
  rintro rfl
  rw [hd] at hc
  cases hc

/-- A number token is read whole. -/
theorem readNumber_append {token rest : List Char} (h : IsNumber token) (hr : EndsNumber rest) :
    readNumber (token ++ rest) = some (token, rest) := by
  cases h with
  | plain h =>
      obtain ⟨whole, fraction, exponent, hs, hwhole, hfraction, hexponent⟩ := h.reads hr
      obtain ⟨d, ds, rfl, hd⟩ := h.exists_digit
      have hminus := ne_of_isDigit hd (show '-'.isDigit = false by decide)
      rw [List.cons_append] at hwhole ⊢
      simp [readNumber, hminus, hwhole, hfraction, hexponent, hs]
  | negative h =>
      obtain ⟨whole, fraction, exponent, hs, hwhole, hfraction, hexponent⟩ := h.reads hr
      simp [readNumber, hwhole, hfraction, hexponent, hs]

/-! ## Values -/

/-- A value that has a text: its numbers are number tokens, and no string lacks its text. -/
inductive Printable : Json → Prop where
  | null : Printable null
  | bool (b : Bool) : Printable (bool b)
  | number {token : List Char} (h : IsNumber token) : Printable (number token)
  | string (text : List Char) : Printable (string (some text))
  | array {items : List Json} (h : ∀ item ∈ items, Printable item) : Printable (array items)
  | object {members : List (Option (List Char) × Json)}
      (hnames : ∀ m ∈ members, ∃ name, m.1 = some name)
      (hvalues : ∀ m ∈ members, Printable m.2) : Printable (object members)

theorem isSpace_of_mem_newline {level : Nat} {c : Char} (h : c ∈ newline level) :
    isSpace c = true := by
  rcases List.mem_cons.1 h with rfl | hc
  · decide
  · rw [List.eq_of_mem_replicate hc]
    decide

theorem skipSpace_newline (level : Nat) (s : List Char) :
    skipSpace (newline level ++ s) = skipSpace s :=
  List.dropWhile_append_of_pos fun _ hc => isSpace_of_mem_newline hc

theorem skipSpace_cons {c : Char} (h : isSpace c = false) (s : List Char) :
    skipSpace (c :: s) = c :: s := by
  simp [skipSpace, h]

theorem readValue_congr {s t : List Char} (h : skipSpace s = skipSpace t) (fuel : Nat) :
    readValue fuel s = readValue fuel t := by
  cases fuel with
  | zero => rfl
  | succ fuel => rw [readValue, readValue, h]

theorem endsNumber_newline (level : Nat) (s : List Char) : EndsNumber (newline level ++ s) := by
  intro c hc
  cases hc
  decide

theorem endsNumber_comma (s : List Char) : EndsNumber (',' :: s) := by
  intro c hc
  cases hc
  decide

/-- A reader of values gets past the text of this one, wherever it stands. -/
def Reads (v : Json) : Prop :=
  ∀ level fuel rest, 2 * (render level v).length ≤ fuel → EndsNumber rest →
    readValue fuel (render level v ++ rest) = some (v, rest)

theorem renderItems_cons_append (level : Nat) (item : Json) (items : List Json) (s : List Char) :
    renderItems level (item :: items) ++ s =
      ',' :: (newline level ++ (render level item ++ (renderItems level items ++ s))) := by
  simp [renderItems]

theorem renderMembers_cons_append (level : Nat) (name : Option (List Char)) (value : Json)
    (members : List (Option (List Char) × Json)) (s : List Char) :
    renderMembers level ((name, value) :: members) ++ s =
      ',' :: (newline level ++ (literal name ++ (':' :: ' ' :: (render level value ++
        (renderMembers level members ++ s))))) := by
  simp [renderMembers]

theorem endsNumber_renderItems (level outer : Nat) (items : List Json) (s : List Char) :
    EndsNumber (renderItems level items ++ (newline outer ++ s)) := by
  cases items with
  | nil => exact endsNumber_newline outer s
  | cons item items =>
      rw [renderItems_cons_append]
      exact endsNumber_comma _

theorem endsNumber_renderMembers (level outer : Nat) (members : List (Option (List Char) × Json))
    (s : List Char) : EndsNumber (renderMembers level members ++ (newline outer ++ s)) := by
  cases members with
  | nil => exact endsNumber_newline outer s
  | cons member members =>
      rw [renderMembers_cons_append]
      exact endsNumber_comma _

/-! ### Items -/

theorem readItems_last {fuel level : Nat} {item : Json} {s tail rest : List Char}
    (hs : readValue fuel s = some (item, tail)) (ht : skipSpace tail = ']' :: rest) :
    readItems (fuel + 1) (newline level ++ s) = some ([item], rest) := by
  rw [readItems, readValue_congr (skipSpace_newline level s), hs]
  simp only [ht]

theorem readItems_more {fuel level : Nat} {item : Json} {items : List Json}
    {s tail others rest : List Char} (hs : readValue fuel s = some (item, tail))
    (ht : skipSpace tail = ',' :: others) (ho : readItems fuel others = some (items, rest)) :
    readItems (fuel + 1) (newline level ++ s) = some (item :: items, rest) := by
  rw [readItems, readValue_congr (skipSpace_newline level s), hs]
  simp only [ht, ho, Option.map_some]

theorem readItems_render {level outer fuel : Nat} {item : Json} {items : List Json}
    {rest : List Char} (h : ∀ i ∈ item :: items, Reads i)
    (hfuel : 2 * (render level item ++ renderItems level items).length < fuel) :
    readItems fuel (newline level ++ (render level item ++
      (renderItems level items ++ (newline outer ++ ']' :: rest)))) =
        some (item :: items, rest) := by
  -- A step of fuel is spent on the item and one on its reader, so each character pays for two.
  induction items generalizing item fuel with
  | nil =>
      obtain ⟨fuel, rfl⟩ : ∃ k, fuel = k + 1 := ⟨fuel - 1, by omega⟩
      simp only [List.length_append] at hfuel
      apply readItems_last
      · exact h item (by simp) level fuel _ (by omega) (endsNumber_renderItems _ _ _ _)
      · rw [renderItems, List.nil_append, skipSpace_newline, skipSpace_cons (by decide)]
  | cons next items ih =>
      obtain ⟨fuel, rfl⟩ : ∃ k, fuel = k + 1 := ⟨fuel - 1, by omega⟩
      simp only [renderItems, List.length_append, List.length_cons] at hfuel
      apply readItems_more
      · exact h item (by simp) level fuel _ (by omega) (endsNumber_renderItems _ _ _ _)
      · rw [renderItems_cons_append]
        exact skipSpace_cons (by decide) _
      · apply ih
        · intro i hi
          exact h i (List.mem_cons_of_mem item hi)
        · rw [List.length_append]
          omega

/-! ### Members -/

theorem skipSpace_literal (level : Nat) (name s : List Char) :
    skipSpace (newline level ++ (literal (some name) ++ s)) =
      '"' :: (name.flatMap escape ++ '"' :: s) := by
  have hliteral : literal (some name) ++ s = '"' :: (name.flatMap escape ++ '"' :: s) := by
    simp [literal]
  rw [skipSpace_newline, hliteral, skipSpace_cons (by decide)]

theorem readMembers_last {fuel level : Nat} {name : List Char} {value : Json}
    {s tail rest : List Char} (hs : readValue fuel s = some (value, tail))
    (ht : skipSpace tail = '\x7d' :: rest) :
    readMembers (fuel + 1) (newline level ++ (literal (some name) ++ (':' :: ' ' :: s))) =
      some ([(some name, value)], rest) := by
  have hblank : skipSpace (' ' :: s) = skipSpace s := rfl
  rw [readMembers, skipSpace_literal]
  simp only [readString_literal, textOf?_codes, skipSpace_cons (show isSpace ':' = false by decide),
    readValue_congr hblank, hs, ht]

theorem readMembers_more {fuel level : Nat} {name : List Char} {value : Json}
    {members : List (Option (List Char) × Json)} {s tail others rest : List Char}
    (hs : readValue fuel s = some (value, tail)) (ht : skipSpace tail = ',' :: others)
    (ho : readMembers fuel others = some (members, rest)) :
    readMembers (fuel + 1) (newline level ++ (literal (some name) ++ (':' :: ' ' :: s))) =
      some ((some name, value) :: members, rest) := by
  have hblank : skipSpace (' ' :: s) = skipSpace s := rfl
  rw [readMembers, skipSpace_literal]
  simp only [readString_literal, textOf?_codes, skipSpace_cons (show isSpace ':' = false by decide),
    readValue_congr hblank, hs, ht, ho, Option.map_some]

theorem readMembers_render {level outer fuel : Nat} {name : Option (List Char)} {value : Json}
    {members : List (Option (List Char) × Json)} {rest : List Char}
    (hnames : ∀ m ∈ (name, value) :: members, ∃ text, m.1 = some text)
    (h : ∀ m ∈ (name, value) :: members, Reads m.2)
    (hfuel : 2 * (render level value ++ renderMembers level members).length < fuel) :
    readMembers fuel (newline level ++ (literal name ++ (':' :: ' ' :: (render level value ++
      (renderMembers level members ++ (newline outer ++ '\x7d' :: rest)))))) =
        some ((name, value) :: members, rest) := by
  induction members generalizing name value fuel with
  | nil =>
      obtain ⟨text, rfl⟩ : ∃ text, name = some text := hnames _ (List.mem_cons_self ..)
      obtain ⟨fuel, rfl⟩ : ∃ k, fuel = k + 1 := ⟨fuel - 1, by omega⟩
      have hvalue : Reads value := h _ (List.mem_cons_self ..)
      simp only [List.length_append] at hfuel
      apply readMembers_last
      · exact hvalue level fuel _ (by omega) (endsNumber_renderMembers _ _ _ _)
      · rw [renderMembers, List.nil_append, skipSpace_newline, skipSpace_cons (by decide)]
  | cons next members ih =>
      obtain ⟨text, rfl⟩ : ∃ text, name = some text := hnames _ (List.mem_cons_self ..)
      obtain ⟨fuel, rfl⟩ : ∃ k, fuel = k + 1 := ⟨fuel - 1, by omega⟩
      have hvalue : Reads value := h _ (List.mem_cons_self ..)
      simp only [renderMembers, List.length_append, List.length_cons] at hfuel
      apply readMembers_more
      · exact hvalue level fuel _ (by omega) (endsNumber_renderMembers _ _ _ _)
      · rw [renderMembers_cons_append]
        exact skipSpace_cons (by decide) _
      · apply ih
        · intro m hm
          exact hnames m (List.mem_cons_of_mem _ hm)
        · intro m hm
          exact h m (List.mem_cons_of_mem _ hm)
        · rw [List.length_append]
          omega

/-! ### Whole values -/

theorem IsNumber.head {token : List Char} (h : IsNumber token) :
    ∃ c cs, token = c :: cs ∧ (c = '-' ∨ c.isDigit = true) := by
  cases h with
  | plain h =>
      obtain ⟨d, ds, rfl, hd⟩ := h.exists_digit
      exact ⟨d, ds, rfl, .inr hd⟩
  | negative h => exact ⟨_, _, rfl, .inl rfl⟩

theorem ne_of_number_head {c d : Char} (hc : c = '-' ∨ c.isDigit = true)
    (hd : d.isDigit = false) (hminus : d ≠ '-') : c ≠ d := by
  rcases hc with rfl | hc
  · exact hminus.symm
  · exact ne_of_isDigit hc hd

theorem isSpace_of_number_head {c : Char} (h : c = '-' ∨ c.isDigit = true) : isSpace c = false := by
  simp [isSpace, ne_of_number_head h (show ' '.isDigit = false by decide) (by decide),
    ne_of_number_head h (show '\t'.isDigit = false by decide) (by decide),
    ne_of_number_head h (show '\n'.isDigit = false by decide) (by decide),
    ne_of_number_head h (show '\r'.isDigit = false by decide) (by decide)]

/-- The text of a value starts with neither space nor a closing bracket. -/
theorem render_head {v : Json} (h : Printable v) (level : Nat) :
    ∃ c cs, render level v = c :: cs ∧ isSpace c = false ∧ c ≠ ']' := by
  cases h with
  | null => exact ⟨_, _, rfl, by decide, by decide⟩
  | bool b =>
      cases b with
      | true => exact ⟨_, _, rfl, by decide, by decide⟩
      | false => exact ⟨_, _, rfl, by decide, by decide⟩
  | number h =>
      obtain ⟨c, cs, rfl, hc⟩ := h.head
      exact ⟨c, cs, by rw [render], isSpace_of_number_head hc,
        ne_of_number_head hc (by decide) (by decide)⟩
  | string text => exact ⟨_, _, rfl, by decide, by decide⟩
  | array h =>
      rename_i items
      cases items with
      | nil => exact ⟨_, _, rfl, by decide, by decide⟩
      | cons item items => exact ⟨_, _, rfl, by decide, by decide⟩
  | object hnames hvalues =>
      rename_i members
      cases members with
      | nil => exact ⟨_, _, rfl, by decide, by decide⟩
      | cons member members => exact ⟨_, _, rfl, by decide, by decide⟩

theorem Printable.exists_fuel {v : Json} (h : Printable v) {level fuel : Nat}
    (hfuel : 2 * (render level v).length ≤ fuel) : ∃ k, fuel = k + 1 := by
  obtain ⟨c, cs, htext, -⟩ := render_head h level
  rw [htext, List.length_cons] at hfuel
  exact ⟨fuel - 1, by omega⟩

theorem readScalar_number {token rest : List Char} (h : IsNumber token) (hr : EndsNumber rest) :
    readScalar (token ++ rest) = some (number token, rest) := by
  have hread := readNumber_append h hr
  obtain ⟨c, cs, rfl, hc⟩ := h.head
  unfold readScalar
  split
  · rename_i heq
    cases heq
    exact absurd hc (by decide)
  · rename_i heq
    cases heq
    exact absurd hc (by decide)
  · rename_i heq
    cases heq
    exact absurd hc (by decide)
  · rename_i heq
    cases heq
    exact absurd hc (by decide)
  · rw [hread]
    rfl

theorem readScalar_string (text rest : List Char) :
    readScalar (literal (some text) ++ rest) = some (string (some text), rest) := by
  have hliteral : literal (some text) ++ rest = '"' :: (text.flatMap escape ++ '"' :: rest) := by
    simp [literal]
  rw [hliteral, readScalar, readString_literal, Option.map_some, textOf?_codes]

theorem readValue_scalar {c : Char} (hspace : isSpace c = false) (hbracket : c ≠ '[')
    (hbrace : c ≠ '\x7b') (fuel : Nat) (s : List Char) :
    readValue (fuel + 1) (c :: s) = readScalar (c :: s) := by
  rw [readValue, skipSpace_cons hspace]
  split
  · rename_i heq
    cases heq
    exact absurd rfl hbracket
  · rename_i heq
    cases heq
    exact absurd rfl hbrace
  · rfl

theorem readValue_array {fuel : Nat} {items : List Json} {s rest : List Char}
    (hclose : (skipSpace s).head? ≠ some ']') (hs : readItems fuel s = some (items, rest)) :
    readValue (fuel + 1) ('[' :: s) = some (array items, rest) := by
  rw [readValue, skipSpace_cons (by decide)]
  split
  · rename_i heq
    cases heq
    split
    · rename_i hclosed
      rw [hclosed] at hclose
      exact absurd rfl hclose
    · rw [hs]
      rfl
  · rename_i heq
    cases heq
  · rename_i hnot _
    exact absurd rfl (hnot s)

theorem readValue_object {fuel : Nat} {members : List (Option (List Char) × Json)}
    {s rest : List Char} (hclose : (skipSpace s).head? ≠ some '\x7d')
    (hs : readMembers fuel s = some (members, rest)) :
    readValue (fuel + 1) ('\x7b' :: s) = some (object members, rest) := by
  rw [readValue, skipSpace_cons (by decide)]
  split
  · rename_i heq
    cases heq
  · rename_i heq
    cases heq
    split
    · rename_i hclosed
      rw [hclosed] at hclose
      exact absurd rfl hclose
    · rw [hs]
      rfl
  · rename_i hnot
    exact absurd rfl (hnot s)

theorem reads_array {items : List Json} (hp : ∀ item ∈ items, Printable item)
    (h : ∀ item ∈ items, Reads item) : Reads (array items) := by
  intro level fuel rest hfuel hr
  obtain ⟨fuel, rfl⟩ := (Printable.array hp).exists_fuel hfuel
  cases items with
  | nil => rfl
  | cons item items =>
      simp only [render, List.length_append, List.length_cons] at hfuel
      obtain ⟨c, cs, hhead, hspace, hclose⟩ := render_head (hp item (by simp)) (level + 1)
      have htext : render level (array (item :: items)) ++ rest =
          '[' :: (newline (level + 1) ++ (render (level + 1) item ++
            (renderItems (level + 1) items ++ (newline level ++ ']' :: rest)))) := by
        simp [render]
      rw [htext]
      apply readValue_array
      · rw [skipSpace_newline, hhead, List.cons_append, skipSpace_cons hspace]
        simpa using hclose
      · apply readItems_render h
        rw [List.length_append]
        omega

theorem reads_object {members : List (Option (List Char) × Json)}
    (hnames : ∀ m ∈ members, ∃ name, m.1 = some name) (hp : ∀ m ∈ members, Printable m.2)
    (h : ∀ m ∈ members, Reads m.2) : Reads (object members) := by
  intro level fuel rest hfuel hr
  obtain ⟨fuel, rfl⟩ := (Printable.object hnames hp).exists_fuel hfuel
  cases members with
  | nil => rfl
  | cons member members =>
      obtain ⟨name, value⟩ := member
      simp only [render, List.length_append, List.length_cons] at hfuel
      have htext : render level (object ((name, value) :: members)) ++ rest =
          '\x7b' :: (newline (level + 1) ++ (literal name ++ (':' :: ' ' ::
            (render (level + 1) value ++ (renderMembers (level + 1) members ++
              (newline level ++ '\x7d' :: rest)))))) := by
        simp [render]
      rw [htext]
      apply readValue_object
      · obtain ⟨text, rfl⟩ : ∃ text, name = some text := hnames _ (List.mem_cons_self ..)
        rw [skipSpace_literal, List.head?_cons]
        decide
      · apply readMembers_render hnames h
        rw [List.length_append]
        omega

/-- Every value that has a text is read from it. -/
theorem Printable.reads {v : Json} (h : Printable v) : Reads v := by
  induction h with
  | null =>
      intro level fuel rest hfuel hr
      obtain ⟨fuel, rfl⟩ := Printable.null.exists_fuel hfuel
      rfl
  | bool b =>
      intro level fuel rest hfuel hr
      obtain ⟨fuel, rfl⟩ := (Printable.bool b).exists_fuel hfuel
      cases b with
      | true => rfl
      | false => rfl
  | number h =>
      intro level fuel rest hfuel hr
      obtain ⟨fuel, rfl⟩ := (Printable.number h).exists_fuel hfuel
      have hscalar := readScalar_number h hr
      obtain ⟨c, cs, rfl, hc⟩ := h.head
      have hbracket : c ≠ '[' := ne_of_number_head hc (by decide) (by decide)
      have hbrace : c ≠ '\x7b' := ne_of_number_head hc (by decide) (by decide)
      rw [render, List.cons_append,
        readValue_scalar (isSpace_of_number_head hc) hbracket hbrace]
      exact hscalar
  | string text =>
      intro level fuel rest hfuel hr
      obtain ⟨fuel, rfl⟩ := (Printable.string text).exists_fuel hfuel
      have hscalar := readScalar_string text rest
      rw [render]
      rw [literal, List.cons_append, List.cons_append] at hscalar ⊢
      rw [readValue_scalar (by decide) (by decide) (by decide)]
      exact hscalar
  | array hitems ih => exact reads_array hitems ih
  | object hnames hvalues ih => exact reads_object hnames hvalues ih

/-- The indented text of a value is a JSON text of that value. -/
theorem parse?_pretty {v : Json} (h : Printable v) : parse? (pretty v) = some v := by
  have hend : EndsNumber [] := by simp [EndsNumber]
  have hread := h.reads 0 (2 * (pretty v).length + 2) [] (by unfold pretty; omega) hend
  rw [List.append_nil] at hread
  unfold parse?
  unfold pretty at hread ⊢
  rw [hread]
  rfl

end SourceGauge.Json
