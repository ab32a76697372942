import SceneConvert.Proofs.Decimal.Readers
import SceneConvert.Statement.Reader

/-!
# SceneConvert.Proofs.Statement.Coercion

The classes of words and the values of words.

* `Value.ofWord_eq_integer_iff`, `ofWord_eq_float_iff`, `ofWord_eq_text_iff`: which words have which value.
* `Token.isNumber_iff_reads`, `Token.isInteger_iff_reads`: the ASCII words of a class are those that a reader
  accepts.
* `Value.isNumber_ofWord_iff`: the value of a word is a number if and only if floats are read from it.
-/

namespace SceneConvert

open Numeral (ReadsInteger ofChars? readsInteger_iff)
open Binary32 (Reads reads_iff)

variable {s : String}

/-! ## Values -/

namespace Value

/-- Integers in range go before floats, and floats before strings. -/
theorem ofWord_eq (s : String) : ofWord s =
    match ((ofChars? s.toList).bind Numeral.integer?).filter inIntegerRange,
      (ofChars? s.toList).bind Numeral.float? with
    | some i, _ => .integer i
    | none, some v => .float v
    | none, none => .text s := by
  unfold ofWord
  cases ofChars? s.toList with
  | none => rfl
  | some n => rfl

theorem ofWord_eq_integer_iff {i : ℤ} :
    ofWord s = .integer i ↔ ReadsInteger s.toList i ∧ inIntegerRange i = true := by
  rw [readsInteger_iff, ← Option.filter_eq_some_iff, ofWord_eq]
  generalize Option.filter inIntegerRange _ = integer
  generalize (ofChars? s.toList).bind Numeral.float? = float
  cases integer with
  | some _ => simp
  | none => cases float <;> simp

theorem ofWord_eq_float_iff {v : Float32} : ofWord s = .float v ↔
    Reads s.toList v ∧ ∀ i, ReadsInteger s.toList i → ¬inIntegerRange i = true := by
  simp only [readsInteger_iff, reads_iff]
  rw [← Option.filter_eq_none_iff, ofWord_eq]
  generalize Option.filter inIntegerRange _ = integer
  generalize (ofChars? s.toList).bind Numeral.float? = float
  cases integer with
  | some _ => simp
  | none => cases float <;> simp

end Value

/-! ## Classes -/

theorem Numeral.ReadsInteger.exists_reads {cs : List Char} {i : ℤ} (h : ReadsInteger cs i) :
    ∃ v, Reads cs v := by
  simp only [readsInteger_iff, reads_iff, Option.bind_eq_some_iff] at h ⊢
  obtain ⟨n, hn, hvalue⟩ := h
  rw [integer?, Option.ite_none_right_eq_some, Bool.and_eq_true] at hvalue
  exact ⟨_, n, hn, if_pos hvalue.1.2⟩

theorem Value.ofWord_eq_text_iff {t : String} :
    ofWord s = .text t ↔ (∀ v, ¬Reads s.toList v) ∧ t = s := by
  have hinteger : (∀ v, ¬Reads s.toList v) → ∀ i, ¬ReadsInteger s.toList i :=
    fun h i hi => hi.exists_reads.elim h
  simp only [reads_iff, readsInteger_iff, ← ne_eq, ← Option.eq_none_iff_forall_ne_some] at hinteger ⊢
  rw [ofWord_eq]
  generalize (ofChars? s.toList).bind Numeral.float? = float at hinteger ⊢
  generalize (ofChars? s.toList).bind Numeral.integer? = integer at hinteger ⊢
  cases float with
  | none => simp [hinteger rfl, eq_comm]
  | some v => cases integer.filter inIntegerRange <;> simp

namespace Token

theorem isNumber_of_reads {v : Float32} (h : Reads s.toList v) : (word s).isNumber = true := by
  obtain ⟨n, hn, -⟩ := Option.bind_eq_some_iff.1 (reads_iff.1 h)
  rw [isNumber, numeral?, hn]
  rfl

/-- The expression for numbers and the reader of floats accept the same ASCII words. -/
theorem isNumber_iff_reads (hs : ∀ c ∈ s.toList, c.toNat < 128) :
    (word s).isNumber = true ↔ ∃ v, Reads s.toList v := by
  refine ⟨fun h => ?_, fun ⟨_, hv⟩ => isNumber_of_reads hv⟩
  obtain ⟨n, hn⟩ := Option.isSome_iff_exists.1 h
  have hascii := Numeral.isAscii_of_spelled (Numeral.ofChars?_eq_some_iff.1 hn) hs
  exact ⟨_, reads_iff.2 (Option.bind_eq_some_iff.2 ⟨n, hn, if_pos hascii⟩)⟩

theorem isInteger_iff_reads (hs : ∀ c ∈ s.toList, c.toNat < 128) :
    (word s).isInteger = true ↔ ∃ i, ReadsInteger s.toList i := by
  rw [isInteger, Option.any_eq_true]
  constructor
  · rintro ⟨n, hn, hinteger⟩
    have hascii := Numeral.isAscii_of_spelled (Numeral.ofChars?_eq_some_iff.1 hn) hs
    have hboth : (n.isInteger && n.isAscii) = true := by rw [hinteger, hascii, Bool.and_self]
    exact ⟨_, readsInteger_iff.2 (Option.bind_eq_some_iff.2 ⟨n, hn, if_pos hboth⟩)⟩
  · rintro ⟨i, hi⟩
    obtain ⟨n, hn, hvalue⟩ := Option.bind_eq_some_iff.1 (readsInteger_iff.1 hi)
    rw [Numeral.integer?, Option.ite_none_right_eq_some, Bool.and_eq_true] at hvalue
    exact ⟨n, hn, hvalue.1.1⟩

end Token

/-! ## Agreement -/

namespace Value

def IsNumber : Value → Prop
  | .integer _ | .float _ => True
  | _ => False

theorem inIntegerRange_iff {i : ℤ} : inIntegerRange i = true ↔ -2 ^ 63 ≤ i ∧ i < 2 ^ 63 := by
  rw [inIntegerRange, Bool.and_eq_true, decide_eq_true_eq, decide_eq_true_eq]
  exact Iff.rfl

theorem isNumber_ofWord_iff : (ofWord s).IsNumber ↔ ∃ v, Reads s.toList v := by
  cases h : ofWord s with
  | integer i => simpa [IsNumber] using (ofWord_eq_integer_iff.1 h).1.exists_reads
  | float v => simpa [IsNumber] using ⟨v, (ofWord_eq_float_iff.1 h).1⟩
  | text t => simpa [IsNumber] using (ofWord_eq_text_iff.1 h).1
  | list vs =>
    rw [ofWord_eq] at h
    split at h <;> cases h

/-- The classes of an ASCII word are two regular expressions, and they are what the readers of floats and
integers accept. The value of a number is the integer if that is in range, and otherwise the nearest float;
any other word is kept. -/
theorem ofToken_word_classified (hs : ∀ c ∈ s.toList, c.toNat < 128) :
    ((Token.word s).isNumber = true ↔ s.toList ∈ Numeral.numberPattern) ∧
    ((Token.word s).isInteger = true ↔ s.toList ∈ Numeral.integerPattern) ∧
    ((Token.word s).isNumber = true ↔ ∃! v, Reads s.toList v) ∧
    ((Token.word s).isInteger = true ↔ ∃! i, ReadsInteger s.toList i) ∧
    ((ofToken (.word s)).IsNumber ↔ (Token.word s).isNumber = true) ∧
    (∀ i, ofToken (.word s) = .integer i ↔
      (Token.word s).isInteger = true ∧ ReadsInteger s.toList i ∧ -2 ^ 63 ≤ i ∧ i < 2 ^ 63) ∧
    (∀ v, ofToken (.word s) = .float v ↔
      (Token.word s).isNumber = true ∧ Reads s.toList v ∧
        ¬∃ i, ReadsInteger s.toList i ∧ -2 ^ 63 ≤ i ∧ i < 2 ^ 63) ∧
    ((Token.word s).isNumber = false → ofToken (.word s) = .text s) := by
  have hnumber := Token.isNumber_iff_reads hs
  have hinteger := Token.isInteger_iff_reads hs
  refine ⟨Token.isNumber_iff s, Token.isInteger_iff s, ?_, ?_, ?_, fun i => ?_, fun v => ?_, fun h => ?_⟩
  · rw [hnumber]
    exact ⟨fun ⟨v, hv⟩ => ⟨v, hv, fun w hw => hw.unique hv⟩, ExistsUnique.exists⟩
  · rw [hinteger]
    exact ⟨fun ⟨i, hi⟩ => ⟨i, hi, fun j hj => hj.unique hi⟩, ExistsUnique.exists⟩
  · rw [hnumber]
    exact isNumber_ofWord_iff
  · rw [hinteger, ← inIntegerRange_iff]
    exact ofWord_eq_integer_iff.trans ⟨fun h => ⟨⟨i, h.1⟩, h⟩, And.right⟩
  · simp only [hnumber, ← inIntegerRange_iff, not_exists, not_and]
    exact ofWord_eq_float_iff.trans ⟨fun h => ⟨⟨v, h.1⟩, h⟩, And.right⟩
  · refine ofWord_eq_text_iff.2 ⟨fun v hv => ?_, rfl⟩
    rw [hnumber.2 ⟨v, hv⟩] at h
    cases h

/-- The least integer keeps its value; the number behind the largest one becomes a float. -/
theorem ofToken_word_classified_limits :
    ofToken (.word "-9223372036854775808") = .integer (-9223372036854775808) ∧
    (Token.word "+9223372036854775808").isInteger = true ∧
    ∃ v, Reads "+9223372036854775808".toList v ∧ ofToken (.word "+9223372036854775808") = .float v := by
  obtain ⟨-, -, -, hleast, -, hinteger, -⟩ :=
    @ofToken_word_classified "-9223372036854775808" (by simp)
  obtain ⟨-, -, hread, hlarge, -, -, hfloat, -⟩ :=
    @ofToken_word_classified "+9223372036854775808" (by simp)
  have hleast' : ReadsInteger "-9223372036854775808".toList (-9223372036854775808) :=
    readsInteger_iff.2 (by decide +kernel)
  have hlarge' : ReadsInteger "+9223372036854775808".toList 9223372036854775808 :=
    readsInteger_iff.2 (by decide +kernel)
  have hnumber : (Token.word "+9223372036854775808").isNumber = true := by decide +kernel
  obtain ⟨v, hv, -⟩ := hread.1 hnumber
  refine ⟨(hinteger _).2 ⟨hleast.2 ⟨_, hleast', fun _ h => h.unique hleast'⟩, hleast', by decide⟩,
    hlarge.2 ⟨_, hlarge', fun _ h => h.unique hlarge'⟩, v, hv, (hfloat v).2 ⟨hnumber, hv, ?_⟩⟩
  rintro ⟨i, hi, -, hrange⟩
  rw [hi.unique hlarge'] at hrange
  exact absurd hrange (by decide)

/-- Digits that are not ASCII make a number for the expressions, but no reader accepts them. -/
example : (Token.word "٣").isNumber = true ∧ ofToken (.word "٣") = .text "٣" := by cbv

end Value

end SceneConvert
