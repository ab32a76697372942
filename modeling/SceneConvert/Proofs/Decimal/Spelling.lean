import Mathlib.Computability.Language
import Mathlib.Data.List.TakeWhile
import SceneConvert.Token.Basic

/-!
# SceneConvert.Proofs.Decimal.Spelling

How numerals are written.

    integer  := [+-]? \d+
    number   := [+-]? (\d+ ([.] \d*)? exponent? | [.] \d+ exponent?)
    exponent := [eE] [+-]? \d+

* `Numeral.Spelled`: a numeral and a way to write it.
* `Numeral.ofChars?_eq_some_iff`: the numeral that a word spells is the one that is written so.
* `Numeral.integerPattern`, `Numeral.numberPattern`: the two expressions above as languages.
* `Token.isNumber_iff`, `Token.isInteger_iff`: the words of the two classes are those of the languages.
-/

namespace SceneConvert

namespace Numeral

/-! ## Spellings -/

/-- The ways to write a sign; `true` stands for minus. -/
def signs : Bool → List (List Char)
  | true => [['-']]
  | false => [[], ['+']]

structure IsDigits (cs : List Char) : Prop where
  ne_nil : cs ≠ []
  all : ∀ c ∈ cs, isDecimalDigit c = true

/-- The ways to write an exponent. -/
inductive ExponentSpelled : Option (Bool × List Char) → List Char → Prop
  | absent : ExponentSpelled none []
  | present {mark : Char} {negative : Bool} {sign digits : List Char} :
    mark = 'e' ∨ mark = 'E' → sign ∈ signs negative → IsDigits digits →
    ExponentSpelled (some (negative, digits)) (mark :: (sign ++ digits))

/-- The ways to write a numeral: without a point, or with a point between digits, of which one side may be
empty. -/
inductive Spelled : Numeral → List Char → Prop
  | plain {negative : Bool} {sign whole last : List Char} {exponent : Option (Bool × List Char)} :
    sign ∈ signs negative → IsDigits whole → ExponentSpelled exponent last →
    Spelled ⟨negative, whole, none, exponent⟩ (sign ++ (whole ++ last))
  | pointed {negative : Bool} {sign whole fraction last : List Char}
      {exponent : Option (Bool × List Char)} :
    sign ∈ signs negative → IsDigits (whole ++ fraction) → ExponentSpelled exponent last →
    Spelled ⟨negative, whole, some fraction, exponent⟩ (sign ++ (whole ++ '.' :: (fraction ++ last)))

/-! ## Signs -/

theorem exists_sign (cs : List Char) :
    ∃ sign ∈ signs (takeSign cs).1, cs = sign ++ (takeSign cs).2 := by
  unfold takeSign
  split
  · exact ⟨['+'], by simp [signs], rfl⟩
  · exact ⟨['-'], by simp [signs], rfl⟩
  · exact ⟨[], by simp [signs], rfl⟩

/-- What stands behind a sign is taken as it is, provided that it does not start with another one. -/
theorem takeSign_append {negative : Bool} {sign body : List Char} (hsign : sign ∈ signs negative)
    (hbody : ∀ c ∈ body.head?, c ≠ '+' ∧ c ≠ '-') : takeSign (sign ++ body) = (negative, body) := by
  cases negative with
  | true => cases List.mem_singleton.1 hsign; rfl
  | false =>
    rcases List.mem_cons.1 hsign with rfl | hsign
    · cases body with
      | nil => rfl
      | cons c cs =>
        obtain ⟨hplus, hminus⟩ := hbody c rfl
        simp [takeSign, hplus, hminus]
    · cases List.mem_singleton.1 hsign; rfl

theorem ne_sign_of_digit {c : Char} (hc : isDecimalDigit c = true) : c ≠ '+' ∧ c ≠ '-' := by
  constructor <;> rintro rfl <;> exact absurd hc (by decide)

theorem head_ne_sign {cs : List Char} (hcs : IsDigits cs) (last : List Char) :
    ∀ c ∈ (cs ++ last).head?, c ≠ '+' ∧ c ≠ '-' := by
  obtain ⟨d, ds, rfl⟩ := List.exists_cons_of_ne_nil hcs.ne_nil
  intro c hc
  obtain rfl : d = c := by simpa using hc
  exact ne_sign_of_digit (hcs.all _ List.mem_cons_self)

/-! ## Exponents -/

theorem exponent?_eq_some_iff {cs : List Char} {x : Option (Bool × List Char)} :
    exponent? cs = some x ↔ ExponentSpelled x cs := by
  constructor
  · intro h
    cases cs with
    | nil => cases h; exact .absent
    | cons c cs =>
      obtain ⟨sign, hsign, hcs⟩ := exists_sign cs
      rw [exponent?] at h
      generalize takeSign cs = t at h hsign hcs
      obtain ⟨negative, digits⟩ := t
      dsimp only at h hsign hcs
      split at h
      · rename_i hparts
        simp only [Bool.and_eq_true, Bool.or_eq_true, beq_iff_eq, Bool.not_eq_true',
          List.isEmpty_eq_false_iff, List.all_eq_true] at hparts
        cases h
        rw [hcs]
        exact .present hparts.1.1 hsign ⟨hparts.1.2, hparts.2⟩
      · cases h
  · intro h
    cases h with
    | absent => rfl
    | @present mark negative sign digits hmark hsign hdigits =>
      have htake : takeSign (sign ++ digits) = (negative, digits) := by
        have hhead := head_ne_sign hdigits []
        rw [List.append_nil] at hhead
        exact takeSign_append hsign hhead
      have hmark' : (mark == 'e' || mark == 'E') = true := by simpa using hmark
      have hne : (!digits.isEmpty) = true := by simpa using hdigits.ne_nil
      have hall : digits.all isDecimalDigit = true := List.all_eq_true.2 hdigits.all
      rw [exponent?, htake]
      simp only [hmark', hne, hall, Bool.and_self, ↓reduceIte]

theorem ExponentSpelled.not_digit {x : Option (Bool × List Char)} {last : List Char}
    (h : ExponentSpelled x last) : ∀ c ∈ last.head?, isDecimalDigit c = false ∧ c ≠ '.' := by
  cases h with
  | absent => simp
  | present hmark =>
    intro c hc
    obtain rfl := Option.some.inj hc
    rcases hmark with rfl | rfl <;> decide

/-! ## Numerals -/

theorem takeWhile_digits {cs : List Char} (last : List Char) (hcs : ∀ c ∈ cs, isDecimalDigit c = true)
    (hlast : ∀ c ∈ last.head?, isDecimalDigit c = false) :
    (cs ++ last).takeWhile isDecimalDigit = cs ∧ (cs ++ last).dropWhile isDecimalDigit = last := by
  rw [List.takeWhile_append_of_pos hcs, List.dropWhile_append_of_pos hcs]
  cases last with
  | nil => simp
  | cons c last => simp [hlast c rfl]

theorem spelled_of_ofChars? {cs : List Char} {n : Numeral} (h : ofChars? cs = some n) : Spelled n cs := by
  obtain ⟨sign, hsign, hcs⟩ := exists_sign cs
  unfold ofChars? at h
  generalize takeSign cs = t at h hsign hcs
  obtain ⟨negative, body⟩ := t
  dsimp only at h hsign hcs
  have hbody := List.takeWhile_append_dropWhile (p := isDecimalDigit) (l := body)
  split at h
  · rename_i rest hpoint
    split at h
    · cases h
    · rename_i hsome
      obtain ⟨x, hx, rfl⟩ := Option.map_eq_some_iff.1 h
      have hrest := List.takeWhile_append_dropWhile (p := isDecimalDigit) (l := rest)
      have hcs' : cs = sign ++ (body.takeWhile isDecimalDigit ++
          '.' :: (rest.takeWhile isDecimalDigit ++ rest.dropWhile isDecimalDigit)) := by
        rw [hrest, ← hpoint, hbody, hcs]
      rw [hcs']
      refine .pointed hsign ⟨by simpa using hsome, fun c hc => ?_⟩ (exponent?_eq_some_iff.1 hx)
      exact (List.mem_append.1 hc).elim List.mem_takeWhile_imp List.mem_takeWhile_imp
  · split at h
    · cases h
    · rename_i hsome
      obtain ⟨x, hx, rfl⟩ := Option.map_eq_some_iff.1 h
      rw [hcs, ← congrArg (sign ++ ·) hbody]
      exact .plain hsign ⟨by simpa using hsome, fun _ => List.mem_takeWhile_imp⟩
        (exponent?_eq_some_iff.1 hx)

theorem ofChars?_of_spelled {cs : List Char} {n : Numeral} (h : Spelled n cs) : ofChars? cs = some n := by
  cases h with
  | @plain negative sign whole last exponent hsign hwhole hlast =>
    have htake := takeSign_append hsign (head_ne_sign hwhole last)
    obtain ⟨hfirst, hrest⟩ := takeWhile_digits last hwhole.all fun c hc => (hlast.not_digit c hc).1
    have hne : whole.isEmpty = false := by simpa using hwhole.ne_nil
    unfold ofChars?
    rw [htake]
    dsimp only
    rw [hfirst, hrest, hne]
    split
    · exact absurd rfl (hlast.not_digit '.' rfl).2
    · rw [exponent?_eq_some_iff.2 hlast]
      rfl
  | @pointed negative sign whole fraction last exponent hsign hdigits hlast =>
    have hhead : ∀ c ∈ (whole ++ '.' :: (fraction ++ last)).head?, c ≠ '+' ∧ c ≠ '-' := by
      cases whole with
      | nil => simp
      | cons d ds =>
        intro c hc
        obtain rfl : d = c := by simpa using hc
        exact ne_sign_of_digit (hdigits.all _ (by simp))
    obtain ⟨hfirst, hpoint⟩ := takeWhile_digits ('.' :: (fraction ++ last))
      (fun c hc => hdigits.all c (List.mem_append_left _ hc)) (by simp; decide)
    obtain ⟨hsecond, hrest⟩ := takeWhile_digits last
      (fun c hc => hdigits.all c (List.mem_append_right _ hc)) fun c hc => (hlast.not_digit c hc).1
    have hne : (whole.isEmpty && fraction.isEmpty) = false := by
      simpa using hdigits.ne_nil
    unfold ofChars?
    rw [takeSign_append hsign hhead]
    dsimp only
    rw [hfirst, hpoint]
    simp only [hsecond, hrest, hne, exponent?_eq_some_iff.2 hlast, Bool.false_eq_true, ↓reduceIte,
      Option.map_some]

/-- The numeral that a word spells is the one that is written so. -/
theorem ofChars?_eq_some_iff {cs : List Char} {n : Numeral} : ofChars? cs = some n ↔ Spelled n cs :=
  ⟨spelled_of_ofChars?, ofChars?_of_spelled⟩

/-! ## Patterns -/

/-- One character of a class. -/
def oneOf (p : Char → Bool) : Language Char := {cs | ∃ c, p c = true ∧ cs = [c]}

/-- The expression `[+-]?`. -/
def signPattern : Language Char := 1 + oneOf fun c => c == '+' || c == '-'

/-- The expression `\d*`. -/
def moreDigitsPattern : Language Char := KStar.kstar (oneOf isDecimalDigit)

/-- The expression `\d+`. -/
def digitsPattern : Language Char := oneOf isDecimalDigit * moreDigitsPattern

/-- The expression `([eE][+-]?\d+)?`. -/
def exponentPattern : Language Char :=
  1 + oneOf (fun c => c == 'e' || c == 'E') * (signPattern * digitsPattern)

/-- The expression `[.]`. -/
def pointPattern : Language Char := oneOf (· == '.')

/-- The expression `[+-]?\d+`. -/
def integerPattern : Language Char := signPattern * digitsPattern

/-- The expression `[+-]?(\d+([.]\d*)?([eE][+-]?\d+)?|[.]\d+([eE][+-]?\d+)?)`. -/
def numberPattern : Language Char :=
  signPattern *
    (digitsPattern * (1 + pointPattern * moreDigitsPattern) * exponentPattern +
      pointPattern * digitsPattern * exponentPattern)

section

variable {cs : List Char}

theorem mem_oneOf {p : Char → Bool} : cs ∈ oneOf p ↔ ∃ c, p c = true ∧ cs = [c] := Iff.rfl

theorem mem_pointPattern : cs ∈ pointPattern ↔ cs = ['.'] := by simp [pointPattern, mem_oneOf]

theorem mem_signPattern : cs ∈ signPattern ↔ ∃ negative, cs ∈ signs negative := by
  simp only [signPattern, Language.mem_add, Language.mem_one, mem_oneOf, Bool.or_eq_true, beq_iff_eq,
    Bool.exists_bool, signs, List.mem_cons, List.not_mem_nil, or_false]
  constructor
  · rintro (rfl | ⟨c, rfl | rfl, rfl⟩) <;> simp
  · rintro ((rfl | rfl) | rfl) <;> simp

theorem mem_moreDigitsPattern : cs ∈ moreDigitsPattern ↔ ∀ c ∈ cs, isDecimalDigit c = true := by
  rw [moreDigitsPattern, Language.mem_kstar]
  constructor
  · rintro ⟨parts, rfl, hparts⟩ c hc
    obtain ⟨part, hpart, hc⟩ := List.mem_flatten.1 hc
    obtain ⟨d, hd, rfl⟩ := hparts part hpart
    exact List.mem_singleton.1 hc ▸ hd
  · intro h
    refine ⟨cs.map fun c => [c], (List.flatMap_singleton' cs).symm, fun part hpart => ?_⟩
    obtain ⟨c, hc, rfl⟩ := List.mem_map.1 hpart
    exact ⟨c, h c hc, rfl⟩

theorem mem_digitsPattern : cs ∈ digitsPattern ↔ IsDigits cs := by
  rw [digitsPattern, Language.mem_mul]
  constructor
  · rintro ⟨_, ⟨c, hc, rfl⟩, ds, hds, rfl⟩
    exact ⟨by simp, List.forall_mem_cons.2 ⟨hc, mem_moreDigitsPattern.1 hds⟩⟩
  · intro h
    obtain ⟨c, ds, rfl⟩ := List.exists_cons_of_ne_nil h.ne_nil
    obtain ⟨hc, hds⟩ := List.forall_mem_cons.1 h.all
    exact ⟨[c], ⟨c, hc, rfl⟩, ds, mem_moreDigitsPattern.2 hds, rfl⟩

theorem mem_exponentPattern : cs ∈ exponentPattern ↔ ∃ x, ExponentSpelled x cs := by
  rw [exponentPattern, Language.mem_add, Language.mem_one]
  constructor
  · rintro (rfl | h)
    · exact ⟨none, .absent⟩
    · obtain ⟨_, ⟨mark, hmark, rfl⟩, body, hbody, rfl⟩ := Language.mem_mul.1 h
      obtain ⟨sign, hsign, digits, hdigits, rfl⟩ := Language.mem_mul.1 hbody
      obtain ⟨negative, hsign⟩ := mem_signPattern.1 hsign
      have hmark : mark = 'e' ∨ mark = 'E' := by simpa using hmark
      exact ⟨_, @ExponentSpelled.present mark negative sign digits hmark hsign
        (mem_digitsPattern.1 hdigits)⟩
  · rintro ⟨x, h⟩
    cases h with
    | absent => exact .inl rfl
    | @present mark negative sign digits hmark hsign hdigits =>
      refine .inr (Language.mem_mul.2 ⟨[mark], ⟨mark, by simpa using hmark, rfl⟩, sign ++ digits, ?_, rfl⟩)
      exact Language.mem_mul.2 ⟨sign, mem_signPattern.2 ⟨negative, hsign⟩, digits,
        mem_digitsPattern.2 hdigits, rfl⟩

theorem mem_integerPattern : cs ∈ integerPattern ↔ ∃ n, Spelled n cs ∧ n.isInteger = true := by
  rw [integerPattern, Language.mem_mul]
  constructor
  · rintro ⟨sign, hsign, whole, hwhole, rfl⟩
    obtain ⟨negative, hsign⟩ := mem_signPattern.1 hsign
    refine ⟨⟨negative, whole, none, none⟩, ?_, rfl⟩
    have hspelled := Spelled.plain hsign (mem_digitsPattern.1 hwhole) .absent
    rwa [List.append_nil] at hspelled
  · rintro ⟨n, h, hinteger⟩
    cases h with
    | pointed => cases hinteger
    | @plain negative sign whole last exponent hsign hwhole hlast =>
      cases hlast with
      | present => cases hinteger
      | absent =>
        exact ⟨sign, mem_signPattern.2 ⟨negative, hsign⟩, whole, mem_digitsPattern.2 hwhole, by simp⟩

theorem mem_numberPattern : cs ∈ numberPattern ↔ ∃ n, Spelled n cs := by
  rw [numberPattern, Language.mem_mul]
  constructor
  · rintro ⟨sign, hsign, body, hbody, rfl⟩
    obtain ⟨negative, hsign⟩ := mem_signPattern.1 hsign
    rcases (Language.mem_add _ _ _).1 hbody with h | h
    · obtain ⟨front, hfront, last, hlast, rfl⟩ := Language.mem_mul.1 h
      obtain ⟨whole, hwhole, behind, hbehind, rfl⟩ := Language.mem_mul.1 hfront
      obtain ⟨x, hlast⟩ := mem_exponentPattern.1 hlast
      have hwhole := mem_digitsPattern.1 hwhole
      rcases (Language.mem_add _ _ _).1 hbehind with hnone | hpointed
      · obtain rfl := (Language.mem_one _).1 hnone
        rw [List.append_nil]
        exact ⟨_, .plain hsign hwhole hlast⟩
      · obtain ⟨point, hpoint, fraction, hfraction, rfl⟩ := Language.mem_mul.1 hpointed
        obtain rfl := mem_pointPattern.1 hpoint
        refine ⟨⟨negative, whole, some fraction, x⟩, ?_⟩
        have hall : IsDigits (whole ++ fraction) := ⟨by simp [hwhole.ne_nil], fun c hc =>
          (List.mem_append.1 hc).elim (hwhole.all c) (mem_moreDigitsPattern.1 hfraction c)⟩
        simpa using Spelled.pointed hsign hall hlast
    · obtain ⟨front, hfront, last, hlast, rfl⟩ := Language.mem_mul.1 h
      obtain ⟨point, hpoint, fraction, hfraction, rfl⟩ := Language.mem_mul.1 hfront
      obtain rfl := mem_pointPattern.1 hpoint
      obtain ⟨x, hlast⟩ := mem_exponentPattern.1 hlast
      exact ⟨⟨negative, [], some fraction, x⟩, .pointed hsign (mem_digitsPattern.1 hfraction) hlast⟩
  · rintro ⟨n, h⟩
    cases h with
    | @plain negative sign whole last exponent hsign hwhole hlast =>
      refine ⟨sign, mem_signPattern.2 ⟨negative, hsign⟩, whole ++ last, .inl ?_, rfl⟩
      refine Language.mem_mul.2 ⟨whole, ?_, last, mem_exponentPattern.2 ⟨_, hlast⟩, rfl⟩
      exact Language.mem_mul.2 ⟨whole, mem_digitsPattern.2 hwhole, [], .inl rfl, by simp⟩
    | @pointed negative sign whole fraction last exponent hsign hdigits hlast =>
      have hlast := mem_exponentPattern.2 ⟨_, hlast⟩
      refine ⟨sign, mem_signPattern.2 ⟨negative, hsign⟩, _, ?_, rfl⟩
      by_cases hwhole : whole = []
      · subst hwhole
        refine .inr (Language.mem_mul.2 ⟨'.' :: fraction, ?_, last, hlast, rfl⟩)
        exact Language.mem_mul.2 ⟨['.'], mem_pointPattern.2 rfl, fraction, mem_digitsPattern.2 hdigits, rfl⟩
      · refine .inl (Language.mem_mul.2 ⟨whole ++ '.' :: fraction, ?_, last, hlast, by simp⟩)
        have hfirst : IsDigits whole := ⟨hwhole, fun c hc => hdigits.all c (List.mem_append_left _ hc)⟩
        refine Language.mem_mul.2 ⟨whole, mem_digitsPattern.2 hfirst, '.' :: fraction, .inr ?_, rfl⟩
        refine Language.mem_mul.2 ⟨['.'], mem_pointPattern.2 rfl, fraction, ?_, rfl⟩
        exact mem_moreDigitsPattern.2 fun c hc => hdigits.all c (List.mem_append_right _ hc)

end

end Numeral

namespace Token

theorem isNumber_iff (s : String) : (word s).isNumber = true ↔ s.toList ∈ Numeral.numberPattern := by
  rw [isNumber, numeral?, Option.isSome_iff_exists, Numeral.mem_numberPattern]
  exact exists_congr fun _ => Numeral.ofChars?_eq_some_iff

theorem isInteger_iff (s : String) : (word s).isInteger = true ↔ s.toList ∈ Numeral.integerPattern := by
  rw [isInteger, numeral?, Option.any_eq_true, Numeral.mem_integerPattern]
  exact exists_congr fun _ => and_congr_left' Numeral.ofChars?_eq_some_iff

end Token

end SceneConvert
