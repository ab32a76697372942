import SceneConvert.Proofs.Decimal.Written
import SceneConvert.Proofs.Statement.Coercion
import SceneConvert.Proofs.Text.Lines
import SceneConvert.Proofs.Token.Layout

/-!
# SceneConvert.Proofs.Statement.Literals

Literals of floats as words of a scene, and lists of them.

* `Lexeme.ofText_literal`: a literal is one word.
* `Binary32.ofToken_literal`: the value of this word is the float.
* `listPieces`: what stands between the commas of a list in brackets.
* `Binary32.literal_reread`: floats and lists of floats are recovered from their texts.
-/

namespace SceneConvert

/-! ## Words -/

/-- The characters of numbers are ASCII, and none of them ends a word. -/
theorem IsNumeric.inWord {c : Char} (h : IsNumeric c) : c.toNat < 128 ∧ Lexeme.endsWord c = false := by
  rcases h with h | h
  · have hrange : 48 ≤ c.toNat ∧ c.toNat ≤ 57 := by
      simpa [Char.isDigit, UInt32.le_iff_toNat_le] using h
    have hblank : isBlank c = false := by
      simp only [isBlank, Bool.or_eq_false_iff, Bool.and_eq_false_iff, decide_eq_false_iff_not,
        beq_eq_false_iff_ne]
      omega
    have hother : c ∉ ['#', '"', '[', ']'] := by
      intro hmem
      fin_cases hmem <;> simp at hrange
    exact ⟨by omega, Lexeme.endsWord_eq_false.2 ⟨hblank, hother⟩⟩
  · fin_cases h <;> decide

theorem Lexeme.ofText_literal (v : Float32) :
    ofText (Binary32.literal v) = [⟨1, .word (Binary32.literal v), []⟩] := by
  have hspellable : (Token.word (Binary32.literal v)).IsSpellable :=
    ⟨Binary32.literal_ne_empty v, fun c hc => endsWord_eq_false.1 (Binary32.isNumeric_literal hc).inWord.2⟩
  have hscan := scan_word 1 hspellable bounds_nil
  rwa [List.append_nil, scan] at hscan

namespace Binary32

variable {v : Float32}

/-- Literals have a point, so that no integer is read from them. -/
theorem isInteger_literal (hv : v.isFinite = true) : (Token.word (literal v)).isInteger = false := by
  have hascii : ∀ c ∈ (literal v).toList, c.toNat < 128 := fun c hc => (isNumeric_literal hc).inWord.1
  rw [← Bool.not_eq_true, Token.isInteger_iff_reads hascii]
  exact fun ⟨_, hi⟩ => hi.not_mem_point (point_mem_literal hv)

theorem ofToken_literal (hv : v.isFinite = true) : Value.ofToken (.word (literal v)) = .float v :=
  Value.ofWord_eq_float_iff.2
    ⟨reads_literal hv, fun _ hi => absurd (point_mem_literal hv) hi.not_mem_point⟩

end Binary32

/-! ## Lists -/

/-- What stands between the commas of a list in brackets. -/
def listPieces (text : String) : List String :=
  let inner := text.toList.tail.dropLast
  if inner.isEmpty then [] else (inner.splitOn ',').map String.ofList

theorem listPieces_literalList (vs : List Float32) :
    listPieces (Binary32.literalList vs) = vs.map Binary32.literal := by
  have hinner : (Binary32.literalList vs).toList.tail.dropLast =
      [','].intercalate (vs.map fun v => (Binary32.literal v).toList) := by
    simp [Binary32.literalList, String.toList_intercalate, Function.comp_def]
  rw [listPieces, hinner]
  cases vs with
  | nil => rfl
  | cons v vs =>
    have hcomma : ∀ cs ∈ (v :: vs).map fun v => (Binary32.literal v).toList, ',' ∉ cs := by
      intro cs hcs
      obtain ⟨w, -, rfl⟩ := List.mem_map.1 hcs
      exact Binary32.not_mem_literal (by unfold IsNumeric; decide)
    have hsplit := List.splitOn_intercalate ',' hcomma (by simp)
    have hne : ([','].intercalate ((v :: vs).map fun v => (Binary32.literal v).toList)).isEmpty = false := by
      rw [List.isEmpty_eq_false_iff]
      intro hempty
      rw [hempty, List.splitOn_nil, List.map_cons, List.cons.injEq] at hsplit
      exact Binary32.literal_ne_empty v (String.toList_eq_nil_iff.1 hsplit.1.symm)
    rw [hne, hsplit]
    simp [Function.comp_def]

namespace Binary32

theorem read_listPieces {vs : List Float32} (hvs : ∀ v ∈ vs, v.isFinite = true) :
    (listPieces (literalList vs)).map (fun s => Value.ofToken (.word s)) = vs.map .float := by
  rw [listPieces_literalList, List.map_map]
  exact List.map_congr_left fun v hv => ofToken_literal (hvs v hv)

/-- Finite floats and lists of them are recovered from their texts. -/
theorem literal_reread :
    (∀ v : Float32, v.isFinite = true →
      Lexeme.ofText (literal v) = [⟨1, .word (literal v), []⟩] ∧
      (Token.word (literal v)).isNumber = true ∧ (Token.word (literal v)).isInteger = false ∧
      Value.ofToken (.word (literal v)) = .float v) ∧
    Set.InjOn literalList {vs | ∀ v ∈ vs, v.isFinite = true} ∧
    ∀ vs : List Float32, (∀ v ∈ vs, v.isFinite = true) →
      (listPieces (literalList vs)).map (fun s => Value.ofToken (.word s)) = vs.map .float := by
  refine ⟨fun v hv => ?_, fun vs hvs ws hws heq => ?_, fun vs hvs => read_listPieces hvs⟩
  · exact ⟨Lexeme.ofText_literal v, Token.isNumber_of_reads (reads_literal hv), isInteger_literal hv,
      ofToken_literal hv⟩
  · have hread := read_listPieces hvs
    rw [heq, read_listPieces hws] at hread
    exact (List.map_injective_iff.2 (fun _ _ h => Value.float.inj h) hread).symm

/-- Zero keeps its sign, also in lists. -/
theorem literal_reread_zeros :
    literal (float true 0) = "-0.0" ∧ Value.ofToken (.word "-0.0") = .float (float true 0) ∧
    literalList [float true 0] ≠ literalList [float false 0] ∧
    (listPieces "[-0.0,0.0]").map (fun s => Value.ofToken (.word s)) =
      [.float (float true 0), .float (float false 0)] := by
  have hminus : (float true 0).isFinite = true := by decide +kernel
  have hplus : (float false 0).isFinite = true := by decide +kernel
  have htext : literal (float true 0) = "-0.0" := by decide +kernel
  have hlist : literalList [float true 0, float false 0] = "[-0.0,0.0]" := by decide +kernel
  refine ⟨htext, htext ▸ (literal_reread.1 _ hminus).2.2.2, fun h => ?_, ?_⟩
  · have hzeros := literal_reread.2.1 (by simpa using hminus) (by simpa using hplus) h
    exact absurd (List.cons.inj hzeros).1 (by decide +kernel)
  · have hpieces := literal_reread.2.2 [float true 0, float false 0] (by simp [hminus, hplus])
    rwa [hlist] at hpieces

end Binary32

end SceneConvert
