import Mathlib.Data.List.TakeWhile
import SceneConvert.Proofs.Statement.Spread
import SceneConvert.Proofs.Survey.Facts
import SceneConvert.Proofs.Text.Avoids

/-!
# SceneConvert.Proofs.Statement.Words

Where the words of statements come from.

* `Spells`: tokens whose characters make words of some kind, if they can be values.
* `words_ofLexemes`: then so are the words of all statements in them.
* `StringsAvoid`, `avoids_of_mem_words`: what no string has in it, no word has in it.
-/

namespace SceneConvert

def Token.text? : Token → Option String
  | word s | quoted s => some s
  | openBracket | closeBracket => none

/-- The strings, numbers and truth values among the tokens satisfy `P`. -/
def Spells (P : String → Prop) (xs : List Lexeme) : Prop :=
  ∀ x ∈ xs, x.token.isScalar = true → ∀ s, x.token.text? = some s → P s

section

variable {P : String → Prop} {x : Lexeme} {xs : List Lexeme}

theorem Spells.head (h : Spells P (x :: xs)) (hscalar : x.token.isScalar = true) {s : String}
    (hs : x.token.text? = some s) : P s := h x List.mem_cons_self hscalar s hs

theorem Spells.tail (h : Spells P (x :: xs)) : Spells P xs :=
  fun y hy => h y (List.mem_cons_of_mem x hy)

/-! ## Values -/

theorem Value.mem_words_ofList {collapse : Bool} {vs : List Value} {w : String}
    (h : w ∈ (ofList collapse vs).words) : ∃ v ∈ vs, w ∈ v.words := by
  have hlist : w ∈ (list vs).words → ∃ v ∈ vs, w ∈ v.words := by
    intro h
    obtain ⟨v, hv, hw⟩ := List.mem_filterMap.1 h
    refine ⟨v, hv, ?_⟩
    cases v <;> cases hw
    simp [words, elements, asText?]
  unfold ofList at h
  split at h
  · exact ⟨_, List.mem_singleton_self _, h⟩
  · exact hlist h

theorem Value.text?_of_mem_words {t : Token} {w : String} (ht : t.isScalar = true)
    (h : w ∈ (ofToken t).words) : t.text? = some w := by
  have htext {s : String} (h : w ∈ (text s).words) : w = s := by
    simpa [words, elements, asText?] using h
  cases t with
  | word s =>
    simp only [ofToken, ofWord] at h
    split at h
    · rw [htext h]
      rfl
    · split at h
      · simp [words, elements, asText?] at h
      · simp [words, elements, asText?] at h
      · rw [htext h]
        rfl
  | quoted s =>
    rw [htext h]
    rfl
  | openBracket | closeBracket => cases ht

theorem isScalar_of_isNumber {t : Token} (h : t.isNumber = true) : t.isScalar = true := by
  simp [Token.isScalar, h]

/-! ## Reading -/

theorem words_readElements (start : Nat) (h : Spells P xs) :
    (∀ v ∈ (readElements start xs).result, ∀ w ∈ v.words, P w) ∧
      Spells P (readElements start xs).rest := by
  fun_induction readElements start xs with
  | case1 => exact ⟨by simp, h⟩
  | case2 x xs hclose => exact ⟨by simp, h.tail⟩
  | case3 x xs hclose hscalar ih =>
    obtain ⟨hvalues, hrest⟩ := ih h.tail
    refine ⟨fun v hv w hw => ?_, hrest⟩
    rcases List.mem_cons.1 hv with rfl | hv
    · exact h.head hscalar (Value.text?_of_mem_words hscalar hw)
    · exact hvalues v hv w hw
  | case4 x xs hclose hscalar => exact ⟨by simp, h⟩

theorem words_readValue? {collapse : Bool} (h : Spells P xs) {r : Reading Value}
    (hr : readValue? collapse xs = some r) : (∀ w ∈ r.result.words, P w) ∧ Spells P r.rest := by
  cases xs with
  | nil => cases hr
  | cons x xs =>
    obtain ⟨hvalues, hrest⟩ := words_readElements x.line h.tail
    simp only [readValue?] at hr
    split at hr
    · cases hr
      refine ⟨fun w hw => ?_, hrest⟩
      obtain ⟨v, hv, hw⟩ := Value.mem_words_ofList hw
      exact hvalues v hv w hw
    · rename_i s hs
      cases hr
      refine ⟨fun w hw => ?_, h.tail⟩
      obtain rfl : w = s := by simpa [Value.words, Value.elements, Value.asText?] using hw
      exact h.head (by rw [hs]; rfl) (by rw [hs]; rfl)
    · split at hr
      · rename_i hnumber
        cases hr
        refine ⟨fun w hw => ?_, fun y hy => h.tail y ((List.dropWhile_sublist _).subset hy)⟩
        obtain ⟨v, hv, hword⟩ := Value.mem_words_ofList hw
        obtain ⟨y, hy, rfl⟩ := List.mem_map.1 hv
        rcases List.mem_cons.1 hy with rfl | hy
        · have hscalar := isScalar_of_isNumber hnumber
          exact h.head hscalar (Value.text?_of_mem_words hscalar hword)
        · have hy' : y ∈ xs := (List.takeWhile_sublist _).subset hy
          have hnumber' := List.mem_takeWhile_imp hy
          have hscalar := isScalar_of_isNumber hnumber'
          exact h.tail y hy' hscalar w (Value.text?_of_mem_words hscalar hword)
      · split at hr
        · rename_i htruth
          cases hr
          have hscalar : x.token.isScalar = true := by simp [Token.isScalar, htruth]
          exact ⟨fun w hw => h.head hscalar (Value.text?_of_mem_words hscalar hw), h.tail⟩
        · cases hr

theorem Parameters.mem_words_add {ps : Parameters} {key w : String} {v : Value}
    (h : w ∈ (ps.add key v).words) : w ∈ ps.words ∨ w ∈ v.words := by
  obtain ⟨p, hp, hw⟩ := List.mem_flatMap.1 h
  rcases List.mem_append.1 hp with hp | hp
  · exact .inl (mem_words (List.mem_of_mem_eraseP hp) hw)
  · rw [List.mem_singleton.1 hp, Parameter.declare_value] at hw
    exact .inr hw

theorem words_readParameters (collapse : Bool) {ps : Parameters} (h : Spells P xs)
    (hps : ∀ w ∈ ps.words, P w) :
    (∀ w ∈ (readParameters collapse ps xs).result.words, P w) ∧
      Spells P (readParameters collapse ps xs).rest := by
  fun_induction readParameters collapse ps xs with
  | case1 => exact ⟨hps, h⟩
  | case2 ps x xs key hx v hv ih =>
    obtain ⟨hwords, hrest⟩ := words_readValue? h.tail hv
    exact ih hrest fun w hw => (Parameters.mem_words_add hw).elim (hps w) (hwords w)
  | case3 ps x xs key hx hv ih => exact ih h.tail hps
  | case4 ps x xs hx => exact ⟨hps, h⟩

theorem words_readOperands (collapse : Bool) (h : Spells P xs) :
    (∀ v ∈ (readOperands collapse xs).result.1, ∀ w ∈ v.words, P w) ∧
      (∀ w ∈ (readOperands collapse xs).result.2.words, P w) ∧
      Spells P (readOperands collapse xs).rest := by
  unfold readOperands
  split
  · exact ⟨by simp, by simp [Parameters.empty, Parameters.words], h⟩
  · rename_i v hv
    obtain ⟨hwords, hrest⟩ := words_readValue? h hv
    have hempty : ∀ w ∈ Parameters.empty.words, P w := by simp [Parameters.empty, Parameters.words]
    obtain ⟨hparameters, hrest'⟩ := words_readParameters collapse hrest hempty
    refine ⟨fun u hu w hw => ?_, hparameters, hrest'⟩
    obtain rfl : v.result = u := by simpa [Reading.after] using hu
    exact hwords w hw

theorem words_ofLexemes (hempty : P "") {collapse : Bool} (h : Spells P xs) {st : Statement}
    (hst : .statement st ∈ Event.ofLexemes collapse xs) : ∀ w ∈ st.words, P w := by
  fun_induction Event.ofLexemes collapse xs with
  | case1 => cases hst
  | case2 x xs s hx haction r ih =>
    obtain ⟨hoperand, hparameters, hrest⟩ := words_readOperands collapse h.tail
    rcases List.mem_append.1 hst with hst | hst
    · simp at hst
    · rcases List.mem_cons.1 hst with hst | hst
      · cases hst
        intro w hw
        rcases List.mem_append.1 hw with hw | hw
        · rcases List.mem_cons.1 hw with rfl | hw
          · exact hempty
          · obtain ⟨v, hv, hw⟩ := List.mem_flatMap.1 hw
            exact hoperand v (Option.mem_toList.1 hv) w hw
        · exact hparameters w hw
      · exact ih hrest hst
  | case3 x xs s hx haction ih =>
    rcases List.mem_cons.1 hst with hst | hst
    · cases hst
    · exact ih h.tail hst
  | case4 x xs hx ih =>
    rcases List.mem_append.1 hst with hst | hst
    · simp at hst
    · rcases List.mem_cons.1 hst with hst | hst
      · cases hst
      · exact ih h.tail hst

end

/-! ## Foreign characters -/

section

variable {c : Char} (hc : IsForeign c)

include hc

theorem IsForeign.not_mem_takeSign {cs : List Char} (h : c ∉ (Numeral.takeSign cs).2) : c ∉ cs := by
  unfold Numeral.takeSign at h
  split at h
  · exact List.not_mem_cons_of_ne_of_not_mem (fun e => absurd (e ▸ hc) (by decide)) h
  · exact List.not_mem_cons_of_ne_of_not_mem (fun e => absurd (e ▸ hc) (by decide)) h
  · exact h

theorem IsForeign.not_mem_digits {cs : List Char} (h : ∀ d ∈ cs, isDecimalDigit d = true) : c ∉ cs := by
  intro hmem
  have hdigit := h c hmem
  rw [hc.notDigit] at hdigit
  cases hdigit

theorem IsForeign.not_mem_exponent {cs : List Char} (h : (Numeral.exponent? cs).isSome) : c ∉ cs := by
  cases cs with
  | nil => exact List.not_mem_nil
  | cons d cs =>
    simp only [Numeral.exponent?] at h
    split at h
    · rename_i hexponent
      simp only [Bool.and_eq_true, Bool.or_eq_true, beq_iff_eq, List.all_eq_true] at hexponent
      obtain ⟨⟨hd, -⟩, hdigits⟩ := hexponent
      refine List.not_mem_cons_of_ne_of_not_mem ?_ (hc.not_mem_takeSign (hc.not_mem_digits hdigits))
      rintro rfl
      rcases hd with rfl | rfl <;> exact absurd hc (by decide)
    · cases h

/-- The characters of a number are signs, digits, points and an `e`. -/
theorem IsForeign.not_mem_numeral {cs : List Char} (h : (Numeral.ofChars? cs).isSome) : c ∉ cs := by
  have digits (ds : List Char) : c ∉ ds.takeWhile isDecimalDigit :=
    hc.not_mem_digits fun d hd => List.mem_takeWhile_imp hd
  refine hc.not_mem_takeSign ?_
  simp only [Numeral.ofChars?] at h
  generalize (Numeral.takeSign cs).2 = body at h ⊢
  rw [← body.takeWhile_append_dropWhile (p := isDecimalDigit), List.mem_append, not_or]
  refine ⟨digits body, ?_⟩
  split at h
  · rename_i rest hrest
    rw [hrest]
    refine List.not_mem_cons_of_ne_of_not_mem (fun e => absurd (e ▸ hc) (by decide)) ?_
    rw [← rest.takeWhile_append_dropWhile (p := isDecimalDigit), List.mem_append, not_or]
    refine ⟨digits rest, ?_⟩
    split at h
    · cases h
    · exact hc.not_mem_exponent (by simpa using h)
  · rename_i rest hpoint
    split at h
    · cases h
    · exact hc.not_mem_exponent (by simpa using h)

/-- No string of the text has the character in it. -/
def StringsAvoid (c : Char) (text : String) : Prop :=
  ∀ x ∈ Lexeme.ofText text, ∀ s, x.token = .quoted s → Avoids c s

theorem avoids_of_mem_words {collapse : Bool} {text : String} (h : StringsAvoid c text)
    {st : Statement} (hst : .statement st ∈ Event.ofText collapse text) : ∀ w ∈ st.words, Avoids c w := by
  refine words_ofLexemes (hc.avoids (by decide)) (fun x hx hscalar s hs => ?_) hst
  cases ht : x.token with
  | word w =>
    rw [ht] at hs hscalar
    cases hs
    simp only [Token.isScalar, Token.isQuoted, Bool.false_or, Bool.or_eq_true, Token.isTruth,
      beq_iff_eq] at hscalar
    rcases hscalar with hnumber | rfl | rfl
    · exact hc.not_mem_numeral hnumber
    · exact hc.avoids (by decide)
    · exact hc.avoids (by decide)
  | quoted w =>
    rw [ht] at hs
    cases hs
    exact h x hx s ht
  | openBracket | closeBracket =>
    rw [ht] at hs
    cases hs

end

end SceneConvert
