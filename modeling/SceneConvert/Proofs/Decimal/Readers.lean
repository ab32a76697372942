import SceneConvert.Proofs.Decimal.Patterns
import SceneConvert.Proofs.Decimal.Rounding
import SceneConvert.Proofs.Decimal.Spelling

/-!
# SceneConvert.Proofs.Decimal.Readers

What readers of integers and floats accept, and what they make of it.

    integer  := [+-]? digit+
    mantissa := digit+ | digit+ [.] digit* | digit* [.] digit+
    float    := [+-]? mantissa ([eE] integer)?
    digit    := [0-9]

* `Numeral.ReadsInteger`, `Numeral.ReadsNumber`: the texts of these forms and the numbers they stand for.
* `Binary32.Reads`: a text and the float nearest to its number.
* `Numeral.readsInteger_iff`, `Binary32.reads_iff`: the values of numerals are what these readers make of
  their texts.
* `Numeral.isAscii_of_spelled`: among ASCII texts the readers accept all numerals.
-/

namespace SceneConvert

namespace Numeral

/-! ## Forms -/

/-- Nothing but the digits 0 to 9. -/
def AsciiDigits (cs : List Char) : Prop := ∀ c ∈ cs, c.isDigit = true

def natural (digits : List Char) : Nat := Nat.ofDigitChars 10 digits 0

/-- An integer: a sign and at least one digit. -/
inductive ReadsInteger : List Char → ℤ → Prop
  | signed {negative : Bool} {sign digits : List Char} :
    sign ∈ signs negative → digits ≠ [] → AsciiDigits digits →
    ReadsInteger (sign ++ digits) (if negative then -(natural digits : ℤ) else natural digits)

/-- Digits, with a point behind, between or before them. -/
inductive ReadsMantissa : List Char → ℚ → Prop
  | whole {digits : List Char} :
    digits ≠ [] → AsciiDigits digits → ReadsMantissa digits (natural digits)
  | pointBehind {whole fraction : List Char} :
    whole ≠ [] → AsciiDigits whole → AsciiDigits fraction →
    ReadsMantissa (whole ++ '.' :: fraction) (natural whole + natural fraction / 10 ^ fraction.length)
  | pointBefore {whole fraction : List Char} :
    AsciiDigits whole → fraction ≠ [] → AsciiDigits fraction →
    ReadsMantissa (whole ++ '.' :: fraction) (natural whole + natural fraction / 10 ^ fraction.length)

inductive ReadsExponent : List Char → ℤ → Prop
  | absent : ReadsExponent [] 0
  | present {mark : Char} {cs : List Char} {i : ℤ} :
    mark = 'e' ∨ mark = 'E' → ReadsInteger cs i → ReadsExponent (mark :: cs) i

/-- A sign, which also zero has, and a number. -/
inductive ReadsNumber : List Char → Bool → ℚ → Prop
  | signed {negative : Bool} {sign mantissa last : List Char} {x : ℚ} {e : ℤ} :
    sign ∈ signs negative → ReadsMantissa mantissa x → ReadsExponent last e →
    ReadsNumber (sign ++ (mantissa ++ last)) negative (x * 10 ^ e)

/-! ## Integers -/

theorem isDecimalDigit_of_isDigit {c : Char} (h : c.isDigit = true) : isDecimalDigit c = true := by
  rw [isDecimalDigit, h, Bool.true_or]

theorem AsciiDigits.isDigits {cs : List Char} (h : AsciiDigits cs) (hne : cs ≠ []) : IsDigits cs :=
  ⟨hne, fun c hc => isDecimalDigit_of_isDigit (h c hc)⟩

theorem AsciiDigits.append {as bs : List Char} (ha : AsciiDigits as) (hb : AsciiDigits bs) :
    AsciiDigits (as ++ bs) := List.forall_mem_append.2 ⟨ha, hb⟩

theorem isAscii_iff {n : Numeral} : n.isAscii = true ↔
    AsciiDigits n.whole ∧ AsciiDigits (n.fraction.getD []) ∧ AsciiDigits (n.exponent.elim [] Prod.snd) := by
  simp only [isAscii, Bool.and_eq_true, List.all_eq_true, AsciiDigits, and_assoc]

theorem readsInteger_iff {cs : List Char} {i : ℤ} :
    ReadsInteger cs i ↔ (ofChars? cs).bind integer? = some i := by
  simp only [Option.bind_eq_some_iff, ofChars?_eq_some_iff]
  constructor
  · intro h
    cases h with
    | @signed negative sign digits hsign hne hdigits =>
      refine ⟨⟨negative, digits, none, none⟩, ?_, ?_⟩
      · have hspelled := Spelled.plain hsign (hdigits.isDigits hne) .absent
        rwa [List.append_nil] at hspelled
      · have hascii : Numeral.isAscii ⟨negative, digits, none, none⟩ = true :=
          isAscii_iff.2 ⟨hdigits, by simp [AsciiDigits], by simp [AsciiDigits]⟩
        rw [integer?, hascii]
        rfl
  · rintro ⟨n, h, hvalue⟩
    rw [integer?, Option.ite_none_right_eq_some, Bool.and_eq_true] at hvalue
    obtain ⟨⟨hinteger, hascii⟩, hvalue⟩ := hvalue
    cases h with
    | pointed => cases hinteger
    | plain hsign hwhole hlast =>
      cases hlast with
      | present => cases hinteger
      | absent =>
        cases hvalue
        rw [List.append_nil]
        exact .signed hsign hwhole.ne_nil (isAscii_iff.1 hascii).1

theorem ReadsInteger.unique {cs : List Char} {i j : ℤ} (hi : ReadsInteger cs i) (hj : ReadsInteger cs j) :
    i = j := Option.some_inj.1 ((readsInteger_iff.1 hi).symm.trans (readsInteger_iff.1 hj))

/-! ## Floats -/

def shift : Option (Bool × List Char) → ℤ
  | none => 0
  | some (negative, digits) => if negative then -(natural digits : ℤ) else natural digits

theorem readsExponent_iff {cs : List Char} {e : ℤ} :
    ReadsExponent cs e ↔ ∃ x, ExponentSpelled x cs ∧ AsciiDigits (x.elim [] Prod.snd) ∧ shift x = e := by
  constructor
  · intro h
    cases h with
    | absent => exact ⟨none, .absent, by simp [AsciiDigits], rfl⟩
    | present hmark hinteger =>
      cases hinteger with
      | @signed negative sign digits hsign hne hdigits =>
        exact ⟨some (negative, digits), .present hmark hsign (hdigits.isDigits hne), hdigits, rfl⟩
  · rintro ⟨x, h, hascii, rfl⟩
    cases h with
    | absent => exact .absent
    | present hmark hsign hdigits => exact .present hmark (.signed hsign hdigits.ne_nil hascii)

theorem natural_append (as bs : List Char) :
    natural (as ++ bs) = 10 ^ bs.length * natural as + natural bs := by
  rw [natural, Nat.ofDigitChars_append, Nat.ofDigitChars_eq_ofDigitChars_zero, natural, natural]

theorem value_decimal (n : Numeral) : n.decimal.value =
    (natural n.whole + natural (n.fraction.getD []) / 10 ^ (n.fraction.getD []).length) *
      10 ^ shift n.exponent := by
  have hdecimal : n.decimal = ⟨natural (n.whole ++ n.fraction.getD []),
      shift n.exponent - (n.fraction.getD []).length⟩ := by
    unfold decimal shift
    split <;> simp_all [natural]
  rw [hdecimal, Decimal.value, natural_append, zpow_sub₀ (by norm_num), zpow_natCast]
  push_cast
  field_simp

theorem readsNumber_iff {cs : List Char} {negative : Bool} {x : ℚ} : ReadsNumber cs negative x ↔
    ∃ n, Spelled n cs ∧ n.isAscii = true ∧ n.negative = negative ∧ n.decimal.value = x := by
  constructor
  · intro h
    cases h with
    | @signed negative sign mantissa last x e hsign hmantissa hlast =>
      obtain ⟨ex, hex, hdigits, rfl⟩ := readsExponent_iff.1 hlast
      -- the forms with a point differ only in the side that may be empty
      have hpointed {whole fraction : List Char} (hwhole : AsciiDigits whole)
          (hfraction : AsciiDigits fraction) (hne : whole ++ fraction ≠ []) :
          ∃ n, Spelled n (sign ++ ((whole ++ '.' :: fraction) ++ last)) ∧ n.isAscii = true ∧
            n.negative = negative ∧ n.decimal.value =
              (natural whole + natural fraction / 10 ^ fraction.length) * 10 ^ shift ex := by
        refine ⟨⟨negative, whole, some fraction, ex⟩, ?_, isAscii_iff.2 ⟨hwhole, hfraction, hdigits⟩, rfl,
          value_decimal _⟩
        rw [List.append_assoc]
        exact .pointed hsign ((hwhole.append hfraction).isDigits hne) hex
      cases hmantissa with
      | whole hne hwhole =>
        refine ⟨⟨negative, mantissa, none, ex⟩, .plain hsign (hwhole.isDigits hne) hex,
          isAscii_iff.2 ⟨hwhole, by simp [AsciiDigits], hdigits⟩, rfl, ?_⟩
        simp [value_decimal, natural]
      | pointBehind hne hwhole hfraction => exact hpointed hwhole hfraction (by simp [hne])
      | pointBefore hwhole hne hfraction => exact hpointed hwhole hfraction (by simp [hne])
  · rintro ⟨n, h, hascii, rfl, rfl⟩
    rw [value_decimal]
    obtain ⟨hwhole, hfraction, hexponent⟩ := isAscii_iff.1 hascii
    cases h with
    | @plain negative sign whole last exponent hsign hdigits hlast =>
      have hmantissa := ReadsMantissa.whole hdigits.ne_nil hwhole
      have hread := ReadsNumber.signed hsign hmantissa (readsExponent_iff.2 ⟨_, hlast, hexponent, rfl⟩)
      simpa [natural] using hread
    | @pointed negative sign whole fraction last exponent hsign hdigits hlast =>
      have hmantissa : ReadsMantissa (whole ++ '.' :: fraction)
          (natural whole + natural fraction / 10 ^ fraction.length) := by
        by_cases hne : whole = []
        · subst hne
          exact .pointBefore hwhole hdigits.ne_nil hfraction
        · exact .pointBehind hne hwhole hfraction
      have hread := ReadsNumber.signed hsign hmantissa (readsExponent_iff.2 ⟨_, hlast, hexponent, rfl⟩)
      rwa [List.append_assoc] at hread

/-! ## ASCII texts -/

theorem isDigit_of_isDecimalDigit {c : Char} (h : isDecimalDigit c = true) (hc : c.toNat < 128) :
    c.isDigit = true := by
  rw [isDecimalDigit, Bool.or_eq_true, Bool.and_eq_true, decide_eq_true_eq] at h
  exact h.elim id fun h => absurd h.1 (by omega)

theorem IsDigits.ascii {cs : List Char} (h : IsDigits cs) (hcs : ∀ c ∈ cs, c.toNat < 128) :
    AsciiDigits cs := fun c hc => isDigit_of_isDecimalDigit (h.all c hc) (hcs c hc)

theorem isAscii_of_spelled {n : Numeral} {cs : List Char} (h : Spelled n cs)
    (hcs : ∀ c ∈ cs, c.toNat < 128) : n.isAscii = true := by
  have hlast {x : Option (Bool × List Char)} {last : List Char} (h : ExponentSpelled x last)
      (hcs : ∀ c ∈ last, c.toNat < 128) : AsciiDigits (x.elim [] Prod.snd) := by
    cases h with
    | absent => simp [AsciiDigits]
    | present _ _ hdigits => exact hdigits.ascii fun c hc => hcs c (by simp [hc])
  rw [isAscii_iff]
  cases h with
  | plain hsign hdigits hexponent =>
    exact ⟨hdigits.ascii fun c hc => hcs c (by simp [hc]), by simp [AsciiDigits],
      hlast hexponent fun c hc => hcs c (by simp [hc])⟩
  | pointed hsign hdigits hexponent =>
    have hboth := hdigits.ascii fun c hc => hcs c (by simp at hc ⊢; tauto)
    obtain ⟨hwhole, hfraction⟩ := List.forall_mem_append.1 hboth
    exact ⟨hwhole, hfraction, hlast hexponent fun c hc => hcs c (by simp [hc])⟩

end Numeral

namespace Binary32

/-- The float has the sign of a text and is the nearest to its number. -/
def Reads (cs : List Char) (v : Float32) : Prop :=
  ∃ x, Numeral.ReadsNumber cs (isNegative v) x ∧ IsNearest x (magnitude v)

theorem isNearest_magnitude_iff {x : ℚ} {negative : Bool} {v : Float32} {m : Nat} (hm : IsNearest x m) :
    isNegative v = negative ∧ IsNearest x (magnitude v) ↔ float negative m = v := by
  constructor
  · rintro ⟨rfl, hv⟩
    rw [hm.unique hv, float_magnitude]
  · rintro rfl
    rw [isNegative_float _ hm.le_infinity, magnitude_float _ hm.le_infinity]
    exact ⟨rfl, hm⟩

/-- The floats that are read are those that numerals have as their values. -/
theorem reads_iff {cs : List Char} {v : Float32} :
    Reads cs v ↔ (Numeral.ofChars? cs).bind Numeral.float? = some v := by
  simp only [Option.bind_eq_some_iff, Numeral.ofChars?_eq_some_iff]
  constructor
  · rintro ⟨x, hread, hnearest⟩
    obtain ⟨n, hn, hascii, hsign, rfl⟩ := Numeral.readsNumber_iff.1 hread
    refine ⟨n, hn, ?_⟩
    rw [Numeral.float?, if_pos hascii, Option.some_inj]
    exact (isNearest_magnitude_iff (isNearest_ofDecimal _)).1 ⟨hsign.symm, hnearest⟩
  · rintro ⟨n, hn, hvalue⟩
    rw [Numeral.float?, Option.ite_none_right_eq_some, Option.some_inj] at hvalue
    obtain ⟨hsign, hnearest⟩ := (isNearest_magnitude_iff (isNearest_ofDecimal _)).2 hvalue.2
    exact ⟨_, Numeral.readsNumber_iff.2 ⟨n, hn, hvalue.1, hsign.symm, rfl⟩, hnearest⟩

theorem Reads.unique {cs : List Char} {v w : Float32} (hv : Reads cs v) (hw : Reads cs w) : v = w :=
  Option.some_inj.1 ((reads_iff.1 hv).symm.trans (reads_iff.1 hw))

end Binary32

end SceneConvert
