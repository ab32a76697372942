import SceneConvert.Decimal.Shortest
import SceneConvert.Proofs.Decimal.Readers

/-!
# SceneConvert.Proofs.Decimal.Written

That written floats are read as what they were.

* `Binary32.ofDecimal_shortest`: the shortest form of a magnitude is rounded to this magnitude.
* `Decimal.readsMantissa_positional`: the digits and the point of a decimal number spell its value.
* `Binary32.reads_literal`: a finite float is what is read from its literal.
* `Binary32.Shows`: the texts of all floats, of which literals are some. `Shows.unique`: no two floats have
  one text.
-/

namespace SceneConvert

open Numeral

/-! ## The shortest form -/

namespace Binary32

theorem ofDecimal_of_onGrid {m k : Nat} {d d' : Decimal} (h : onGrid? m d k = some d') :
    ofDecimal d' = m := by
  unfold onGrid? at h
  dsimp only at h
  split at h
  · rename_i hbelow habove
    cases h
    split
    · exact beq_iff_eq.1 hbelow
    · exact beq_iff_eq.1 habove
  · rename_i hbelow _
    cases h
    exact beq_iff_eq.1 hbelow
  · rename_i habove
    cases h
    exact beq_iff_eq.1 habove
  · cases h

/-- Each grid is left for the next finer one, the last of which has the number itself. -/
theorem ofDecimal_searchGrids {m : Nat} {d : Decimal} (hd : ofDecimal d = m) (k : Nat) :
    ofDecimal (searchGrids m d k) = m := by
  induction k with
  | zero => exact hd
  | succ k ih =>
    rw [searchGrids]
    cases hgrid : onGrid? m d (k + 1) with
    | none => exact ih
    | some d' => exact ofDecimal_of_onGrid hgrid

theorem ofDecimal_shortest {m : Nat} (hm : m ≤ infinity) : ofDecimal (shortest m) = m :=
  ofDecimal_searchGrids (ofDecimal_exact hm) _

end Binary32

/-! ## Digits and points -/

namespace Numeral

theorem asciiDigits_toDigits (n : Nat) : AsciiDigits (Nat.toDigits 10 n) := fun _ hc =>
  Nat.isDigit_of_mem_toDigits (by decide) (by decide) hc

theorem natural_toDigits (n : Nat) : natural (Nat.toDigits 10 n) = n :=
  Nat.ofDigitChars_toDigits (by decide) (by decide)

theorem asciiDigits_zeros (n : Nat) : AsciiDigits (List.replicate n '0') := fun c hc => by
  rw [List.eq_of_mem_replicate hc]
  rfl

theorem natural_zeros (n : Nat) : natural (List.replicate n '0') = 0 := by
  rw [natural, Nat.ofDigitChars_replicate_zero, Nat.mul_zero]

theorem AsciiDigits.not_mem_point {cs : List Char} (h : AsciiDigits cs) : '.' ∉ cs :=
  fun hmem => absurd (h _ hmem) (by decide)

theorem ReadsInteger.not_mem_point {cs : List Char} {i : ℤ} (h : ReadsInteger cs i) : '.' ∉ cs := by
  cases h with
  | @signed negative sign digits hsign hne hdigits =>
    have hsign' : '.' ∉ sign := by
      cases negative <;> simp only [signs, List.mem_cons, List.not_mem_nil, or_false] at hsign
      · rcases hsign with rfl | rfl <;> decide
      · subst hsign
        decide
    exact fun hmem => (List.mem_append.1 hmem).elim hsign' hdigits.not_mem_point

theorem ReadsMantissa.ne_nil {cs : List Char} {x : ℚ} (h : ReadsMantissa cs x) : cs ≠ [] := by
  cases h <;> simp_all

theorem ReadsMantissa.pointed {cs : List Char} {x : ℚ} (h : ReadsMantissa cs x) :
    ReadsMantissa (cs ++ if cs.contains '.' then [] else ['.', '0']) x := by
  by_cases hpoint : '.' ∈ cs
  · simpa [hpoint] using h
  · rw [if_neg (by simpa using hpoint)]
    cases h with
    | whole hne hdigits =>
      have hmantissa := ReadsMantissa.pointBehind hne hdigits (asciiDigits_zeros 1)
      rwa [natural_zeros, Nat.cast_zero, zero_div, add_zero] at hmantissa
    | pointBehind | pointBefore => exact absurd (by simp) hpoint

end Numeral

namespace Decimal

theorem exists_zeros (cs : List Char) :
    ∃ k, cs = (cs.reverse.dropWhile (· == '0')).reverse ++ List.replicate k '0' := by
  have hzeros : cs.reverse.takeWhile (· == '0') =
      List.replicate (cs.reverse.takeWhile (· == '0')).length '0' :=
    List.eq_replicate_iff.2 ⟨rfl, fun _ hc => by simpa using List.mem_takeWhile_imp hc⟩
  refine ⟨(cs.reverse.takeWhile (· == '0')).length, ?_⟩
  rw [← List.reverse_replicate, ← hzeros, ← List.reverse_append, List.takeWhile_append_dropWhile,
    List.reverse_reverse]

theorem readsMantissa_stripped {whole rest : List Char} (hne : whole ≠ [])
    (hdigits : AsciiDigits (whole ++ rest)) :
    let fraction := (rest.reverse.dropWhile (· == '0')).reverse
    ReadsMantissa (if fraction.isEmpty then whole else whole ++ '.' :: fraction)
      (natural (whole ++ rest) / 10 ^ rest.length) := by
  obtain ⟨k, hk⟩ := exists_zeros rest
  dsimp only
  generalize (rest.reverse.dropWhile (· == '0')).reverse = fraction at hk ⊢
  subst hk
  obtain ⟨hwhole, hrest⟩ := List.forall_mem_append.1 hdigits
  obtain ⟨hfraction, -⟩ := List.forall_mem_append.1 hrest
  have hvalue : (natural (whole ++ (fraction ++ List.replicate k '0')) /
      10 ^ (fraction ++ List.replicate k '0').length : ℚ) =
        natural whole + natural fraction / 10 ^ fraction.length := by
    rw [natural_append, natural_append, natural_zeros, List.length_append, List.length_replicate, pow_add]
    push_cast
    field_simp
    ring
  rw [hvalue]
  split
  · rename_i hempty
    obtain rfl := List.isEmpty_iff.1 hempty
    have hmantissa := ReadsMantissa.whole hne hwhole
    simpa [natural] using hmantissa
  · exact .pointBehind hne hwhole hfraction

/-- The digits of a decimal number, with the point where they have it, spell its value. -/
theorem readsMantissa_positional (d : Decimal) : ReadsMantissa d.positional d.value := by
  have hdigits : Nat.toDigits 10 d.coefficient ≠ [] := Nat.toDigits_ne_nil
  unfold positional
  dsimp only
  split
  · rename_i hexponent
    have hvalue : d.value =
        natural (Nat.toDigits 10 d.coefficient ++ List.replicate d.exponent.toNat '0') := by
      rw [natural_append, natural_zeros, natural_toDigits, List.length_replicate, Decimal.value]
      obtain ⟨n, hn⟩ := Int.eq_ofNat_of_zero_le hexponent
      simp [hn, mul_comm]
    rw [hvalue]
    exact .whole (by simp [hdigits]) ((asciiDigits_toDigits _).append (asciiDigits_zeros _))
  · rename_i hexponent
    obtain ⟨places, hplaces⟩ : ∃ n : ℕ, d.exponent = -n := ⟨(-d.exponent).toNat, by omega⟩
    have htoNat : (-d.exponent).toNat = places := by omega
    rw [htoNat]
    generalize hpadded : List.replicate (places + 1 - (Nat.toDigits 10 d.coefficient).length) '0' ++
      Nat.toDigits 10 d.coefficient = padded
    have hascii : AsciiDigits padded := hpadded ▸ (asciiDigits_zeros _).append (asciiDigits_toDigits _)
    have hlength : places < padded.length := by
      rw [← hpadded, List.length_append, List.length_replicate]
      omega
    have hvalue : d.value = natural padded / 10 ^ places := by
      rw [← hpadded, natural_append, natural_zeros, natural_toDigits, Nat.mul_zero, Nat.zero_add,
        Decimal.value, hplaces, zpow_neg, zpow_natCast, div_eq_mul_inv]
    have hne : padded.take (padded.length - places) ≠ [] := by
      refine List.ne_nil_of_length_pos ?_
      rw [List.length_take]
      omega
    have hrest : (padded.drop (padded.length - places)).length = places := by
      rw [List.length_drop]
      omega
    have hread := readsMantissa_stripped hne (by rwa [List.take_append_drop])
    rwa [List.take_append_drop, hrest, ← hvalue] at hread

end Decimal

/-! ## Literals -/

namespace Binary32

variable {v : Float32}

theorem literal_eq (hv : v.isFinite = true) : (literal v).toList =
    (if isNegative v then ['-'] else []) ++ ((shortest (magnitude v)).positional ++
      if (shortest (magnitude v)).positional.contains '.' then [] else ['.', '0']) := by
  have hfinite := (isFinite_iff v).1 hv
  simp [literal, signText, magnitudeText, hfinite, hfinite.le, ite_not]

/-- What is read from the literal of a finite float is this float, zero with its sign. -/
theorem reads_literal (hv : v.isFinite = true) : Reads (literal v).toList v := by
  have hfinite := (isFinite_iff v).1 hv
  have hsign : (if isNegative v then ['-'] else []) ∈ signs (isNegative v) := by
    cases isNegative v <;> simp [signs]
  have hmantissa := (Decimal.readsMantissa_positional (shortest (magnitude v))).pointed
  have hread := ReadsNumber.signed hsign hmantissa .absent
  have hnearest := isNearest_ofDecimal (shortest (magnitude v))
  rw [ofDecimal_shortest hfinite.le] at hnearest
  rw [List.append_nil, zpow_zero, mul_one, ← literal_eq hv] at hread
  exact ⟨_, hread, hnearest⟩

theorem point_mem_literal (hv : v.isFinite = true) : '.' ∈ (literal v).toList := by
  rw [literal_eq hv]
  by_cases hpoint : '.' ∈ (shortest (magnitude v)).positional <;> simp [hpoint]

theorem literal_ne_empty (v : Float32) : literal v ≠ "" := by
  have hform : magnitudeText (magnitude v) ≠ [] := by
    unfold magnitudeText
    split
    · exact (Decimal.readsMantissa_positional _).ne_nil
    · split <;> simp
  rw [← String.toList_inj.ne]
  simp [literal, hform]

end Binary32

/-! ## Texts of numbers -/

namespace Numeral

def IsNumeralChar (c : Char) : Prop := c.isDigit = true ∨ c ∈ ['+', '-', '.', 'e', 'E']

theorem not_isNumeralChar_comma : ¬IsNumeralChar ',' := by unfold IsNumeralChar; decide

theorem not_isNumeralChar_bracket : ¬IsNumeralChar ']' := by unfold IsNumeralChar; decide

theorem AsciiDigits.isNumeralChar {cs : List Char} (h : AsciiDigits cs) : ∀ c ∈ cs, IsNumeralChar c :=
  fun c hc => .inl (h c hc)

theorem isNumeralChar_sign {negative : Bool} {sign : List Char} (h : sign ∈ signs negative) :
    ∀ c ∈ sign, IsNumeralChar c := by
  cases negative with
  | true =>
    rw [List.mem_singleton.1 h]
    exact List.forall_mem_singleton.2 (.inr (by decide))
  | false =>
    rcases List.mem_cons.1 h with rfl | h
    · exact List.forall_mem_nil _
    · rw [List.mem_singleton.1 h]
      exact List.forall_mem_singleton.2 (.inr (by decide))

theorem ReadsInteger.isNumeralChar {cs : List Char} {i : ℤ} (h : ReadsInteger cs i) :
    ∀ c ∈ cs, IsNumeralChar c := by
  cases h with
  | signed hsign _ hdigits =>
    exact List.forall_mem_append.2 ⟨isNumeralChar_sign hsign, hdigits.isNumeralChar⟩

theorem ReadsInteger.not_mem {cs : List Char} {i : ℤ} (h : ReadsInteger cs i) : ',' ∉ cs ∧ ']' ∉ cs :=
  ⟨fun hc => not_isNumeralChar_comma (h.isNumeralChar _ hc),
    fun hc => not_isNumeralChar_bracket (h.isNumeralChar _ hc)⟩

theorem ReadsMantissa.isNumeralChar {cs : List Char} {x : ℚ} (h : ReadsMantissa cs x) :
    ∀ c ∈ cs, IsNumeralChar c := by
  have hpointed {whole fraction : List Char} (hwhole : AsciiDigits whole)
      (hfraction : AsciiDigits fraction) : ∀ c ∈ whole ++ '.' :: fraction, IsNumeralChar c :=
    List.forall_mem_append.2 ⟨hwhole.isNumeralChar,
      List.forall_mem_cons.2 ⟨.inr (by decide), hfraction.isNumeralChar⟩⟩
  cases h with
  | whole _ hdigits => exact hdigits.isNumeralChar
  | pointBehind _ hwhole hfraction => exact hpointed hwhole hfraction
  | pointBefore hwhole _ hfraction => exact hpointed hwhole hfraction

theorem ReadsNumber.isNumeralChar {cs : List Char} {negative : Bool} {x : ℚ}
    (h : ReadsNumber cs negative x) : ∀ c ∈ cs, IsNumeralChar c := by
  cases h with
  | signed hsign hmantissa hexponent =>
    refine List.forall_mem_append.2 ⟨isNumeralChar_sign hsign,
      List.forall_mem_append.2 ⟨hmantissa.isNumeralChar, ?_⟩⟩
    cases hexponent with
    | absent => exact List.forall_mem_nil _
    | present hmark hinteger =>
      refine List.forall_mem_cons.2 ⟨.inr ?_, hinteger.isNumeralChar⟩
      rcases hmark with rfl | rfl <;> decide

theorem readsInteger_toString (i : ℤ) : ReadsInteger (toString i).toList i := by
  have hdigits (n : ℕ) : (toString n).toList = Nat.toDigits 10 n := by
    rw [Nat.toString_eq_repr, Nat.toList_repr]
  cases i with
  | ofNat n =>
    have hread := @ReadsInteger.signed false [] (Nat.toDigits 10 n) (by simp [signs])
      Nat.toDigits_ne_nil (asciiDigits_toDigits n)
    rwa [natural_toDigits, List.nil_append, ← hdigits] at hread
  | negSucc n =>
    have hread := @ReadsInteger.signed true ['-'] (Nat.toDigits 10 (n + 1)) (by simp [signs])
      Nat.toDigits_ne_nil (asciiDigits_toDigits _)
    rw [natural_toDigits, ← hdigits] at hread
    rw [show toString (Int.negSucc n) = "-" ++ toString (n + 1) from rfl, String.toList_append]
    exact hread

end Numeral

namespace Binary32

/-- The texts of floats. Finite ones are read from theirs, the other ones have words. -/
inductive Shows : List Char → Float32 → Prop
  | finite {cs : List Char} {v : Float32} : v.isFinite = true → Reads cs v → Shows cs v
  | infinity : Shows ['i', 'n', 'f'] (float false Binary32.infinity)
  | minusInfinity : Shows ['-', 'i', 'n', 'f'] (float true Binary32.infinity)
  | notANumber : Shows ['N', 'a', 'N'] Binary32.notANumber

theorem shows_literal (v : Float32) : Shows (literal v).toList v := by
  by_cases hv : v.isFinite = true
  · exact .finite hv (reads_literal hv)
  have hnot : ¬magnitude v < infinity := fun h => hv ((isFinite_iff v).2 h)
  rcases Nat.lt_or_eq_of_le (Nat.not_lt.1 hnot) with hnan | hinfinite
  · have htext : (literal v).toList = ['N', 'a', 'N'] := by
      simp [literal, signText, magnitudeText, hnot, hnan.ne', Nat.not_le.2 hnan]
    rw [htext, eq_of_infinity_lt hnan (by decide +kernel : infinity < magnitude Binary32.notANumber)]
    exact .notANumber
  · have htext : (literal v).toList = (if isNegative v then ['-'] else []) ++ ['i', 'n', 'f'] := by
      simp [literal, signText, magnitudeText, ← hinfinite]
    rw [htext, ← float_magnitude v, ← hinfinite]
    cases hsign : isNegative v
    all_goals rw [isNegative_float _ le_rfl]
    · exact .infinity
    · exact .minusInfinity

theorem Reads.isNumeralChar {cs : List Char} {v : Float32} (h : Reads cs v) : ∀ c ∈ cs, IsNumeralChar c := by
  obtain ⟨x, hread, -⟩ := h
  exact hread.isNumeralChar

theorem Shows.not_mem {cs : List Char} {v : Float32} (h : Shows cs v) : ',' ∉ cs ∧ ']' ∉ cs := by
  cases h with
  | finite _ hread =>
    exact ⟨fun hc => not_isNumeralChar_comma (hread.isNumeralChar _ hc),
      fun hc => not_isNumeralChar_bracket (hread.isNumeralChar _ hc)⟩
  | infinity | minusInfinity | notANumber => decide

theorem Reads.not_mem {cs : List Char} {v : Float32} (h : Reads cs v) : 'n' ∉ cs ∧ 'N' ∉ cs :=
  ⟨fun hc => absurd (h.isNumeralChar _ hc) (by unfold IsNumeralChar; decide),
    fun hc => absurd (h.isNumeralChar _ hc) (by unfold IsNumeralChar; decide)⟩

/-- A text shows one float only. -/
theorem Shows.unique {cs : List Char} {v w : Float32} (hv : Shows cs v) (hw : Shows cs w) : v = w := by
  cases hv with
  | finite _ hv =>
    cases hw with
    | finite _ hw => exact hv.unique hw
    | infinity | minusInfinity => exact absurd (by decide) hv.not_mem.1
    | notANumber => exact absurd (by decide) hv.not_mem.2
  | infinity =>
    cases hw with
    | finite _ hw => exact absurd (by decide) hw.not_mem.1
    | infinity => rfl
  | minusInfinity =>
    cases hw with
    | finite _ hw => exact absurd (by decide) hw.not_mem.1
    | minusInfinity => rfl
  | notANumber =>
    cases hw with
    | finite _ hw => exact absurd (by decide) hw.not_mem.2
    | notANumber => rfl

end Binary32

end SceneConvert
