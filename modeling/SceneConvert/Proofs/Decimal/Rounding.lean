import Mathlib
import SceneConvert.Decimal.Binary32

/-!
# SceneConvert.Proofs.Decimal.Rounding

That the reader of decimal numbers rounds correctly.

* `Binary32.weight`: the number that a magnitude stands for. It grows with the magnitude, in steps that are a
  power of two.
* `Binary32.IsNearest`: what rounding to the nearest float means. No number has two nearest magnitudes.
* `Binary32.floorLog2_spec`, `isNearest_nearest`, `isNearest_ofDecimal`: the algorithm finds it.
* `Binary32.ofDecimal_exact`: the exact value of a float is read as this float.
-/

namespace SceneConvert

def Decimal.value (d : Decimal) : ℚ := d.coefficient * (10 : ℚ) ^ d.exponent

theorem Decimal.value_eq_div (d : Decimal) : d.value =
    (d.coefficient * Nat.pow 10 d.exponent.toNat : ℕ) / (Nat.pow 10 (-d.exponent).toNat : ℕ) := by
  push_cast [Nat.pow_eq]
  rw [Decimal.value, mul_div_assoc]
  congr 1
  rw [eq_div_iff (by positivity), ← zpow_natCast, ← zpow_natCast, ← zpow_add₀ (by norm_num)]
  congr 1
  omega

namespace Binary32

/-! ## Weights -/

/-- The number that a magnitude stands for. Infinity stands in the place of the first number that is too
large, so that it is rounded to like any other. -/
def weight (magnitude : Nat) : ℚ := (significand magnitude).1 * (2 : ℚ) ^ (significand magnitude).2

theorem significand_subnormal {f : Nat} (hf : f < 2 ^ 23) : significand f = (f, -149) := by
  have hexponent : f / Nat.pow 2 23 = 0 := by rw [Nat.pow_eq]; omega
  have hfraction : f % Nat.pow 2 23 = f := by rw [Nat.pow_eq]; omega
  rw [significand, hexponent, hfraction]

theorem significand_normal {e f : Nat} (hf : f < 2 ^ 23) :
    significand ((e + 1) * 2 ^ 23 + f) = (f + 2 ^ 23, (e : ℤ) - 149) := by
  have hexponent : ((e + 1) * 2 ^ 23 + f) / Nat.pow 2 23 = e + 1 := by rw [Nat.pow_eq]; omega
  have hfraction : ((e + 1) * 2 ^ 23 + f) % Nat.pow 2 23 = f := by rw [Nat.pow_eq]; omega
  rw [significand, hexponent, hfraction, Nat.pow_eq]

/-- Patterns of neighbouring floats differ by one, also where the spacing doubles. -/
theorem weight_pattern {e m : Nat} (hm : m ≤ 2 ^ 24) (he : e = 0 ∨ 2 ^ 23 ≤ m) :
    weight (e * 2 ^ 23 + m) = m * (2 : ℚ) ^ ((e : ℤ) - 149) := by
  obtain hsmall | ⟨hlow, hhigh⟩ | rfl : m < 2 ^ 23 ∨ (2 ^ 23 ≤ m ∧ m < 2 ^ 24) ∨ m = 2 ^ 24 := by omega
  · obtain rfl : e = 0 := by omega
    rw [Nat.zero_mul, Nat.zero_add, weight, significand_subnormal hsmall]
    norm_num
  · obtain ⟨f, rfl⟩ := Nat.exists_eq_add_of_le' hlow
    have hpattern : e * 2 ^ 23 + (f + 2 ^ 23) = (e + 1) * 2 ^ 23 + f := by ring
    rw [hpattern, weight, significand_normal (by omega)]
  · have hpattern : e * 2 ^ 23 + 2 ^ 24 = (e + 1 + 1) * 2 ^ 23 + 0 := by ring
    have hdouble : (2 : ℚ) ^ (((e + 1 : ℕ) : ℤ) - 149) = 2 * 2 ^ ((e : ℤ) - 149) := by
      rw [← zpow_one_add₀ two_ne_zero]
      congr 1
      push_cast
      ring
    rw [hpattern, weight, significand_normal (by norm_num), hdouble]
    norm_num
    ring

theorem exists_pattern (p : Nat) :
    ∃ e m, p = e * 2 ^ 23 + m ∧ m < 2 ^ 24 ∧ (e = 0 ∨ 2 ^ 23 ≤ m) :=
  ⟨p / 2 ^ 23 - 1, p - (p / 2 ^ 23 - 1) * 2 ^ 23, by omega, by omega, by omega⟩

theorem weight_strictMono : StrictMono weight := by
  refine strictMono_nat_of_lt_succ fun p => ?_
  obtain ⟨e, m, rfl, hm, he⟩ := exists_pattern p
  rw [Nat.add_assoc, weight_pattern hm.le he, weight_pattern (by omega) (by omega)]
  have hspacing : (0 : ℚ) < 2 ^ ((e : ℤ) - 149) := by positivity
  push_cast
  linarith

theorem weight_infinity : weight infinity = 2 ^ 128 := by
  have hpattern : infinity = 253 * 2 ^ 23 + 2 ^ 24 := by decide
  rw [hpattern, weight_pattern le_rfl (by omega)]
  norm_num

theorem weight_zero : weight 0 = 0 := by simp [weight, significand]

/-! ## Nearest magnitudes -/

/-- No magnitude up to infinity is nearer to the number, and of two equally near ones it is the even one. -/
structure IsNearest (x : ℚ) (m : Nat) : Prop where
  le_infinity : m ≤ infinity
  le_distance : ∀ n ≤ infinity, |x - weight m| ≤ |x - weight n|
  even_of_tie : ∀ n ≤ infinity, n ≠ m → |x - weight n| = |x - weight m| → m % 2 = 0

theorem IsNearest.unique {x : ℚ} {m n : Nat} (hm : IsNearest x m) (hn : IsNearest x n) : m = n := by
  by_contra hne
  wlog hlt : m < n generalizing m n with hswap
  · exact hswap hn hm (Ne.symm hne) (by omega)
  have hdistance := (hm.le_distance n hn.le_infinity).antisymm (hn.le_distance m hm.le_infinity)
  have hmeven := hm.even_of_tie n hn.le_infinity (Ne.symm hne) hdistance.symm
  have hneven := hn.even_of_tie m hm.le_infinity hne hdistance
  have hinner : m + 1 < n := by omega
  have hlow : weight m < weight (m + 1) := weight_strictMono (Nat.lt_succ_self m)
  have hhigh : weight (m + 1) < weight n := weight_strictMono hinner
  have hmiddle : 2 * x = weight m + weight n := by
    rcases abs_eq_abs.1 hdistance with h | h <;> linarith
  have hnearer : |x - weight (m + 1)| < |x - weight m| := by
    rw [abs_of_nonneg (by linarith : 0 ≤ x - weight m), abs_lt]
    constructor <;> linarith
  exact absurd (hm.le_distance (m + 1) (by have := hn.le_infinity; omega)) (not_le.2 hnearer)

theorem isNearest_weight {m : Nat} (hm : m ≤ infinity) : IsNearest (weight m) m where
  le_infinity := hm
  le_distance n _ := by simp
  even_of_tie n _ hne htie := by
    rw [sub_self, abs_zero, abs_eq_zero, sub_eq_zero] at htie
    exact absurd (weight_strictMono.injective htie).symm hne

theorem isNearest_infinity {x : ℚ} (h : weight infinity ≤ x) : IsNearest x infinity where
  le_infinity := le_rfl
  le_distance n hn := by
    have hweight := weight_strictMono.monotone hn
    rw [abs_of_nonneg (by linarith), abs_of_nonneg (by linarith)]
    linarith
  even_of_tie _ _ _ _ := by decide

/-- Of two neighbours that enclose a number, the nearer one is nearer than all others, and where both are
equally near the even one is taken. -/
theorem isNearest_of_between {x : ℚ} {p m : Nat} (hp : p < infinity) (hlow : weight p ≤ x)
    (hhigh : x ≤ weight (p + 1))
    (hm : m = p ∧ (2 * x < weight p + weight (p + 1) ∨ 2 * x = weight p + weight (p + 1) ∧ p % 2 = 0) ∨
      m = p + 1 ∧
        (weight p + weight (p + 1) < 2 * x ∨ 2 * x = weight p + weight (p + 1) ∧ (p + 1) % 2 = 0)) :
    IsNearest x m := by
  have hbelow (n : Nat) (hn : n ≤ p) : x - weight p ≤ |x - weight n| ∧
      (n ≠ p → x - weight p < |x - weight n|) := by
    have hweight := weight_strictMono.monotone hn
    rw [abs_of_nonneg (by linarith)]
    exact ⟨by linarith, fun hne => by linarith [weight_strictMono (lt_of_le_of_ne hn hne)]⟩
  have habove (n : Nat) (hn : p + 1 ≤ n) : weight (p + 1) - x ≤ |x - weight n| ∧
      (n ≠ p + 1 → weight (p + 1) - x < |x - weight n|) := by
    have hweight := weight_strictMono.monotone hn
    rw [abs_of_nonpos (by linarith)]
    exact ⟨by linarith, fun hne => by linarith [weight_strictMono (lt_of_le_of_ne hn (Ne.symm hne))]⟩
  rcases hm with ⟨rfl, hnear⟩ | ⟨rfl, hnear⟩
  · have hdistance : |x - weight m| = x - weight m := abs_of_nonneg (by linarith)
    refine ⟨hp.le, fun n _ => ?_, fun n _ hne htie => ?_⟩
    · rw [hdistance]
      rcases Nat.lt_or_ge m n with hn | hn
      · rcases hnear with h | h <;> linarith [(habove n hn).1]
      · exact (hbelow n hn).1
    · rcases hnear with h | h
      · rw [hdistance] at htie
        rcases Nat.lt_or_ge m n with hn | hn
        · linarith [(habove n hn).1]
        · exact absurd htie.symm ((hbelow n hn).2 hne).ne
      · exact h.2
  · have hdistance : |x - weight (p + 1)| = weight (p + 1) - x := by
      rw [abs_of_nonpos (by linarith)]
      ring
    refine ⟨hp, fun n _ => ?_, fun n _ hne htie => ?_⟩
    · rw [hdistance]
      rcases Nat.lt_or_ge p n with hn | hn
      · exact (habove n hn).1
      · rcases hnear with h | h <;> linarith [(hbelow n hn).1]
    · rcases hnear with h | h
      · rw [hdistance] at htie
        rcases Nat.lt_or_ge p n with hn | hn
        · exact absurd htie.symm ((habove n hn).2 hne).ne
        · linarith [(hbelow n hn).1]
      · exact h.2

/-! ## Rounding -/

theorem two_zpow (k : ℤ) : (2 : ℚ) ^ k = 2 ^ k.toNat / 2 ^ (-k).toNat := by
  rw [eq_div_iff (by positivity), ← zpow_natCast, ← zpow_natCast, ← zpow_add₀ two_ne_zero]
  congr 1
  omega

theorem two_zpow_log2_le {n : Nat} (hn : 0 < n) : (2 : ℚ) ^ (n.log2 : ℤ) ≤ n ∧
    (n : ℚ) < 2 ^ ((n.log2 : ℤ) + 1) := by
  constructor
  · exact_mod_cast Nat.log2_self_le hn.ne'
  · exact_mod_cast Nat.lt_log2_self (n := n)

theorem floorLog2_spec {num den : Nat} (hnum : 0 < num) (hden : 0 < den) :
    (2 : ℚ) ^ floorLog2 num den ≤ num / den ∧ (num / den : ℚ) < 2 ^ (floorLog2 num den + 1) := by
  obtain ⟨hnumlow, hnumhigh⟩ := two_zpow_log2_le hnum
  obtain ⟨hdenlow, hdenhigh⟩ := two_zpow_log2_le hden
  have hden' : (0 : ℚ) < den := by exact_mod_cast hden
  -- the logarithms alone leave two candidates
  have hlow : (2 : ℚ) ^ ((num.log2 : ℤ) - den.log2 - 1) ≤ num / den := by
    rw [le_div_iff₀ hden']
    calc (2 : ℚ) ^ ((num.log2 : ℤ) - den.log2 - 1) * den
        ≤ 2 ^ ((num.log2 : ℤ) - den.log2 - 1) * 2 ^ ((den.log2 : ℤ) + 1) := by gcongr
      _ = 2 ^ (num.log2 : ℤ) := by rw [← zpow_add₀ two_ne_zero]; congr 1; ring
      _ ≤ num := hnumlow
  have hhigh : (num / den : ℚ) < 2 ^ ((num.log2 : ℤ) - den.log2 + 1) := by
    rw [div_lt_iff₀ hden']
    calc (num : ℚ) < 2 ^ ((num.log2 : ℤ) + 1) := hnumhigh
      _ = 2 ^ ((num.log2 : ℤ) - den.log2 + 1) * 2 ^ (den.log2 : ℤ) := by
        rw [← zpow_add₀ two_ne_zero]; congr 1; ring
      _ ≤ 2 ^ ((num.log2 : ℤ) - den.log2 + 1) * den := by gcongr
  have htest (k : ℤ) : den * Nat.pow 2 k.toNat ≤ num * Nat.pow 2 (-k).toNat ↔
      (2 : ℚ) ^ k ≤ num / den := by
    rw [two_zpow, div_le_div_iff₀ (by positivity) hden', mul_comm ((2 : ℚ) ^ k.toNat)]
    exact_mod_cast Iff.rfl
  unfold floorLog2
  dsimp only
  split
  · rename_i h
    exact ⟨(htest _).1 h, hhigh⟩
  · rename_i h
    rw [htest, not_le] at h
    exact ⟨hlow, by rwa [sub_add_cancel]⟩

theorem roundHalfEven_spec (num : Nat) {den : Nat} (hden : 0 < den) :
    (roundHalfEven num den = num / den ∧
      (2 * (num / den : ℚ) < 2 * (num / den : ℕ) + 1 ∨
        2 * (num / den : ℚ) = 2 * (num / den : ℕ) + 1 ∧ num / den % 2 = 0)) ∨
    (roundHalfEven num den = num / den + 1 ∧
      (2 * (num / den : ℕ) + 1 < 2 * (num / den : ℚ) ∨
        2 * (num / den : ℚ) = 2 * (num / den : ℕ) + 1 ∧ (num / den + 1) % 2 = 0)) := by
  have hden' : (0 : ℚ) < den := by exact_mod_cast hden
  have hquotient : 2 * (num / den : ℚ) = 2 * (num / den : ℕ) + (2 * (num % den) : ℕ) / den := by
    have hnum : (num : ℚ) = den * (num / den : ℕ) + (num % den : ℕ) := by
      exact_mod_cast (Nat.div_add_mod num den).symm
    push_cast
    field_simp
    linarith
  have hless : (2 * (num % den) : ℕ) < (den : ℚ) ↔ 2 * (num % den) < den := Nat.cast_lt
  have hmore : (den : ℚ) < (2 * (num % den) : ℕ) ↔ den < 2 * (num % den) := Nat.cast_lt
  rw [hquotient]
  unfold roundHalfEven
  dsimp only
  split
  · rename_i h
    exact .inl ⟨rfl, .inl (by linarith [(div_lt_one hden').2 (hless.2 h)])⟩
  · rename_i h
    split
    · rename_i h'
      exact .inr ⟨rfl, .inl (by linarith [(one_lt_div hden').2 (hmore.2 h')])⟩
    · have htie : ((2 * (num % den) : ℕ) : ℚ) / den = 1 := by
        rw [div_eq_one_iff_eq hden'.ne']
        exact_mod_cast (by omega : 2 * (num % den) = den)
      rw [htie]
      split
      · rename_i heven
        exact .inl ⟨rfl, .inr ⟨rfl, heven⟩⟩
      · exact .inr ⟨rfl, .inr ⟨rfl, by omega⟩⟩

/-- What lies between the multiples `q` and `q + 1` of the spacing lies between two neighbours, and is
rounded to the nearer one as `m` is to the nearer integer. -/
theorem isNearest_pattern {x y : ℚ} {e q m : Nat} (hq : q < 2 ^ 24) (he : e = 0 ∨ 2 ^ 23 ≤ q)
    (hx : x = y * 2 ^ ((e : ℤ) - 149)) (hlow : (q : ℚ) ≤ y) (hhigh : y ≤ q + 1)
    (hm : m = q ∧ (2 * y < 2 * q + 1 ∨ 2 * y = 2 * q + 1 ∧ q % 2 = 0) ∨
      m = q + 1 ∧ (2 * q + 1 < 2 * y ∨ 2 * y = 2 * q + 1 ∧ (q + 1) % 2 = 0)) :
    IsNearest x (min (e * 2 ^ 23 + m) infinity) := by
  have hspacing : (0 : ℚ) < 2 ^ ((e : ℤ) - 149) := by positivity
  have hfirst : weight (e * 2 ^ 23 + q) = q * 2 ^ ((e : ℤ) - 149) := weight_pattern hq.le he
  have hsecond : weight (e * 2 ^ 23 + q + 1) = (q + 1) * 2 ^ ((e : ℤ) - 149) := by
    rw [Nat.add_assoc, weight_pattern hq (by omega)]
    push_cast
    ring
  have hfirst' : weight (e * 2 ^ 23 + q) ≤ x := by
    rw [hfirst, hx]
    gcongr
  rcases Nat.lt_or_ge (e * 2 ^ 23 + q) infinity with hfinite | hinfinite
  · have hmin : min (e * 2 ^ 23 + m) infinity = e * 2 ^ 23 + m := by omega
    have hsum : weight (e * 2 ^ 23 + q) + weight (e * 2 ^ 23 + q + 1) =
        (2 * q + 1) * 2 ^ ((e : ℤ) - 149) := by
      rw [hfirst, hsecond]
      ring
    have hx' : 2 * x = 2 * y * 2 ^ ((e : ℤ) - 149) := by
      rw [hx]
      ring
    rw [hmin]
    refine isNearest_of_between hfinite hfirst' (by rw [hsecond, hx]; gcongr) ?_
    rw [hsum, hx']
    refine hm.imp (fun h => ⟨by omega, h.2.imp (fun h => ?_) fun h => ⟨by rw [h.1], by omega⟩⟩)
      fun h => ⟨by omega, h.2.imp (fun h => ?_) fun h => ⟨by rw [h.1], by omega⟩⟩
    · gcongr
    · gcongr
  · have hmin : min (e * 2 ^ 23 + m) infinity = infinity := by omega
    rw [hmin]
    exact isNearest_infinity ((weight_strictMono.monotone hinfinite).trans hfirst')

/-- In units of the spacing, a number has 24 binary digits at most. -/
theorem div_spacing_lt {x : ℚ} {k e : ℤ} (hx : x < 2 ^ (k + 1)) (he : k - 23 ≤ e) : x / 2 ^ e < 2 ^ 24 := by
  rw [div_lt_iff₀ (by positivity), ← zpow_natCast, ← zpow_add₀ two_ne_zero]
  exact hx.trans_le (zpow_le_zpow_right₀ one_le_two (by push_cast; omega))

theorem le_div_spacing {x : ℚ} {k e : ℤ} (hx : 2 ^ k ≤ x) (he : e = k - 23) : 2 ^ 23 ≤ x / 2 ^ e := by
  rw [le_div_iff₀ (by positivity), ← zpow_natCast, ← zpow_add₀ two_ne_zero]
  exact (zpow_le_zpow_right₀ one_le_two (by push_cast; omega)).trans hx

theorem isNearest_nearest (num : Nat) {den : Nat} (hden : 0 < den) :
    IsNearest (num / den) (nearest num den) := by
  rcases Nat.eq_zero_or_pos num with rfl | hnum
  · have hzero := isNearest_weight (m := 0) (by decide)
    rw [weight_zero] at hzero
    simpa [nearest] using hzero
  · obtain ⟨hlow, hhigh⟩ := floorLog2_spec hnum hden
    have hden' : (0 : ℚ) < den := by exact_mod_cast hden
    rw [nearest, if_neg hnum.ne']
    dsimp only
    generalize floorLog2 num den = k at hlow hhigh ⊢
    generalize he : max (k - 23) (-149) = e
    have hquotient : ((num * Nat.pow 2 (-e).toNat : ℕ) / (den * Nat.pow 2 e.toNat : ℕ) : ℚ) =
        num / den / 2 ^ e := by
      rw [two_zpow e]
      push_cast [Nat.pow_eq]
      field_simp
    have hD : 0 < den * Nat.pow 2 e.toNat := Nat.mul_pos hden (Nat.pow_pos Nat.two_pos)
    generalize num * Nat.pow 2 (-e).toNat = N at hquotient ⊢
    generalize den * Nat.pow 2 e.toNat = D at hquotient hD ⊢
    have hD' : (0 : ℚ) < D := by exact_mod_cast hD
    have he' : ((e + 149).toNat : ℤ) - 149 = e := by omega
    have hx : (num / den : ℚ) = N / D * 2 ^ (((e + 149).toNat : ℤ) - 149) := by
      rw [he', hquotient, div_mul_cancel₀ _ (by positivity)]
    -- the quotient lies between two numbers of spacings that a pattern can hold
    have hq : N / D < 2 ^ 24 := by
      have hdigits := div_spacing_lt hhigh (le_of_le_of_eq (le_max_left _ _) he)
      rw [← hquotient, div_lt_iff₀ hD'] at hdigits
      exact (Nat.div_lt_iff_lt_mul hD).2 (by exact_mod_cast hdigits)
    have hq' : (e + 149).toNat = 0 ∨ 2 ^ 23 ≤ N / D := by
      by_cases hne : e = -149
      · exact .inl (by omega)
      · have hfull := le_div_spacing hlow (by omega : e = k - 23)
        rw [← hquotient, le_div_iff₀ hD'] at hfull
        exact .inr ((Nat.le_div_iff_mul_le hD).2 (by exact_mod_cast hfull))
    have hbelow : ((N / D : ℕ) : ℚ) ≤ N / D := Nat.cast_div_le
    have habove : (N / D : ℚ) ≤ (N / D : ℕ) + 1 := by
      rw [div_le_iff₀ hD', mul_comm]
      exact_mod_cast (Nat.lt_mul_div_succ N hD).le
    exact isNearest_pattern hq hq' hx hbelow habove (roundHalfEven_spec N hD)

/-! ## Decimal numbers -/

theorem isNearest_zero {x : ℚ} (hx : 0 ≤ x) (hsmall : 2 * x < 1 / 2 ^ 149) : IsNearest x 0 := by
  have hleast : weight (0 + 1) = 1 / 2 ^ 149 := by
    have hpattern := @weight_pattern 0 1 (by norm_num) (.inl rfl)
    rw [Nat.zero_mul] at hpattern
    rw [hpattern]
    norm_num
  refine isNearest_of_between (by decide) (by rwa [weight_zero]) ?_ (.inl ⟨rfl, .inl ?_⟩)
  · rw [hleast]
    linarith
  · rwa [weight_zero, hleast, zero_add]

theorem value_le_of_exponent_lt {d : Decimal} (h : d.exponent < -(65 + d.coefficient.log2 : ℤ)) :
    d.value ≤ 2 / 10 ^ 66 := by
  have hc : (d.coefficient : ℚ) ≤ 2 ^ (d.coefficient.log2 + 1) := by
    exact_mod_cast (Nat.lt_log2_self (n := d.coefficient)).le
  calc d.value ≤ 2 ^ (d.coefficient.log2 + 1) * 10 ^ (-(66 + d.coefficient.log2 : ℕ) : ℤ) := by
        rw [Decimal.value]
        gcongr
        · norm_num
        · push_cast
          omega
    _ = 2 / 10 ^ 66 * (2 / 10) ^ d.coefficient.log2 := by
        rw [zpow_neg, zpow_natCast, pow_succ, pow_add 10, div_pow]
        field_simp
    _ ≤ 2 / 10 ^ 66 * 1 := by
        gcongr
        exact pow_le_one₀ (by norm_num) (by norm_num)
    _ = 2 / 10 ^ 66 := mul_one _

/-- A decimal number is read as the float nearest to it. -/
theorem isNearest_ofDecimal (d : Decimal) : IsNearest d.value (ofDecimal d) := by
  have hpos : 0 ≤ d.value := by
    rw [Decimal.value]
    positivity
  rw [ofDecimal]
  split
  · rename_i hzero
    refine isNearest_zero hpos ?_
    rw [Decimal.value, hzero]
    norm_num
  · rename_i hne
    have hc : (1 : ℚ) ≤ d.coefficient := by exact_mod_cast Nat.one_le_iff_ne_zero.2 hne
    split
    · rename_i hlarge
      refine isNearest_infinity ?_
      rw [weight_infinity, Decimal.value]
      calc (2 : ℚ) ^ 128 ≤ 1 * 10 ^ (65 : ℤ) := by norm_num
        _ ≤ d.coefficient * 10 ^ d.exponent := by
          gcongr
          · norm_num
          · omega
    · split
      · rename_i hsmall
        have hgap : (2 / 10 ^ 66 : ℚ) * 2 < 1 / 2 ^ 149 := by norm_num
        exact isNearest_zero hpos (by linarith [value_le_of_exponent_lt hsmall])
      · rw [Decimal.value_eq_div]
        exact isNearest_nearest _ (Nat.pow_pos (by norm_num))

theorem value_exact (m : Nat) : (exact m).value = weight m := by
  rw [exact, weight]
  obtain ⟨f, q⟩ := significand m
  dsimp only
  split
  · rename_i hq
    obtain ⟨n, rfl⟩ := Int.eq_ofNat_of_zero_le hq
    simp [Decimal.value, Nat.pow_eq]
  · rename_i hq
    obtain ⟨n, rfl⟩ : ∃ n : ℕ, q = -n := ⟨(-q).toNat, by omega⟩
    have hten : (10 : ℚ) ^ n = 2 ^ n * 5 ^ n := by
      rw [← mul_pow]
      norm_num
    simp only [Decimal.value, neg_neg, Int.toNat_natCast, zpow_neg, zpow_natCast, hten]
    push_cast [Nat.pow_eq]
    field_simp

/-- The exact value of a float is read as this float. -/
theorem ofDecimal_exact {m : Nat} (hm : m ≤ infinity) : ofDecimal (exact m) = m := by
  have hread := isNearest_ofDecimal (exact m)
  rw [value_exact] at hread
  exact hread.unique (isNearest_weight hm)

end Binary32

end SceneConvert
