import SceneConvert.Proofs.Text.Lines
import SceneConvert.Proofs.Token.Append

/-!
# SceneConvert.Proofs.Token.Places

Where the tokens of a text stand in it.

* `Lexeme.Opens`: a token at the very start of some characters.
* `Lexeme.StandsIn`: a token of a text, on the line that counts the line breaks before it.
* `Lexeme.standsIn_of_mem_scan`: so stands every token that the lexer finds.
-/

namespace SceneConvert

/-- The characters that a token starts with. -/
def Token.opening : Token → List Char
  | word s => s.toList
  | quoted _ => ['"']
  | openBracket => ['[']
  | closeBracket => [']']

namespace Lexeme

/-- The token is the first thing among these characters. What is wrong inside it is wrong inside the
string that opens there. -/
structure Opens (x : Lexeme) (after : List Char) : Prop where
  opening : x.token.opening <+: after
  solid : ∃ c rest, after = c :: rest ∧ isBlank c = false
  faults : ∀ p ∈ x.faults, ∃ rest, after = '"' :: rest ∧ p ∈ (readQuoted rest).faults

/-- The token stands in this text, which starts on line `line`. -/
def StandsIn (line : Nat) (cs : List Char) (x : Lexeme) : Prop :=
  ∃ before after, cs = before ++ after ∧ x.line = line + before.count '\n' ∧ x.Opens after

theorem Opens.standsIn {x : Lexeme} {cs : List Char} (h : x.Opens cs) : x.StandsIn x.line cs :=
  ⟨[], cs, rfl, rfl, h⟩

theorem StandsIn.prepend {x : Lexeme} {line : Nat} {front cs : List Char}
    (h : x.StandsIn (line + front.count '\n') cs) : x.StandsIn line (front ++ cs) := by
  obtain ⟨before, after, rfl, hline, hopens⟩ := h
  refine ⟨front ++ before, after, (List.append_assoc ..).symm, ?_, hopens⟩
  rw [hline, List.count_append, Nat.add_assoc]

theorem StandsIn.of_suffix {x : Lexeme} {line : Nat} {c : Char} {rest cs : List Char}
    (h : x.StandsIn line rest) (hsuffix : rest <:+ cs) (hcount : rest.count '\n' = cs.count '\n')
    (hc : c ≠ '\n') : x.StandsIn line (c :: cs) := by
  obtain ⟨front, rfl⟩ := hsuffix
  have hfront : (c :: front).count '\n' = 0 := by
    rw [List.count_append] at hcount
    rw [List.count_cons_of_ne hc]
    omega
  have hrest : x.StandsIn (line + (c :: front).count '\n') rest := by rwa [hfront]
  exact hrest.prepend

theorem suffix_rest_readQuoted (cs : List Char) : (readQuoted cs).rest <:+ cs := by
  fun_induction readQuoted cs with
  | case1 | case2 | case3 | case4 | case5 => simp
  | case6 c cs hne e he ih => exact ih.trans ((List.suffix_cons c cs).trans (List.suffix_cons _ _))
  | case7 c cs hne he ih => exact ih.trans ((List.suffix_cons c cs).trans (List.suffix_cons _ _))
  | case8 c cs _ _ _ _ _ ih => exact ih.trans (List.suffix_cons c cs)

theorem standsIn_of_mem_scan {line : Nat} {cs : List Char} {x : Lexeme} (h : x ∈ scan line cs) :
    x.StandsIn line cs := by
  have hdrop (p : Char → Bool) (hp : p '\n' = false) (cs : List Char) :
      cs.dropWhile p <:+ cs ∧ (cs.dropWhile p).count '\n' = cs.count '\n' :=
    ⟨List.dropWhile_suffix p, count_dropWhile_newline p hp cs⟩
  fun_induction scan line cs with
  | case1 => cases h
  | case2 line c cs hc ih =>
    have hcs : x.StandsIn (line + [c].count '\n') cs := by
      by_cases hline : c = '\n' <;> simpa [hline] using ih h
    exact hcs.prepend
  | case3 line cs _ ih =>
    obtain ⟨hsuffix, hcount⟩ := hdrop (· != '\n') (by decide) cs
    exact (ih h).of_suffix hsuffix hcount (by decide)
  | case4 line cs _ _ ih =>
    rcases List.mem_cons.1 h with rfl | h
    · exact Opens.standsIn ⟨by simp [Token.opening], ⟨_, _, rfl, by decide⟩, fun p hp => ⟨cs, rfl, hp⟩⟩
    · exact (ih h).of_suffix (suffix_rest_readQuoted cs) (count_rest_readQuoted cs) (by decide)
  | case5 line cs _ _ _ ih =>
    rcases List.mem_cons.1 h with rfl | h
    · exact Opens.standsIn ⟨by simp [Token.opening], ⟨_, _, rfl, by decide⟩, List.forall_mem_nil _⟩
    · exact (ih h).of_suffix List.suffix_rfl rfl (by decide)
  | case6 line cs _ _ _ _ ih =>
    rcases List.mem_cons.1 h with rfl | h
    · exact Opens.standsIn ⟨by simp [Token.opening], ⟨_, _, rfl, by decide⟩, List.forall_mem_nil _⟩
    · exact (ih h).of_suffix List.suffix_rfl rfl (by decide)
  | case7 line c cs hblank _ _ _ _ ih =>
    rcases List.mem_cons.1 h with rfl | h
    · refine Opens.standsIn ⟨?_, ⟨c, cs, rfl, by simpa using hblank⟩, List.forall_mem_nil _⟩
      rw [Token.opening, String.toList_ofList, List.cons_prefix_cons]
      exact ⟨rfl, List.takeWhile_prefix _⟩
    · obtain ⟨hsuffix, hcount⟩ := hdrop (fun d => !endsWord d) (by decide) cs
      refine (ih h).of_suffix hsuffix hcount ?_
      rintro rfl
      exact hblank (by decide)

/-- What is wrong inside a token is wrong inside a string that opens on its line. -/
theorem exists_string_of_mem_faults {text : String} {x : Lexeme} (h : x ∈ ofText text) {p : Problem}
    (hp : p ∈ x.faults) : ∃ before rest, text.toList = before ++ '"' :: rest ∧
      x.line = before.count '\n' + 1 ∧ p ∈ (readQuoted rest).faults := by
  obtain ⟨before, after, htext, hline, hopens⟩ := standsIn_of_mem_scan h
  obtain ⟨rest, rfl, hp⟩ := hopens.faults p hp
  exact ⟨before, rest, htext, by omega, hp⟩

theorem line_of_mem_ofText {text : String} {x : Lexeme} (h : x ∈ ofText text) :
    1 ≤ x.line ∧ x.line ≤ (textLines text).length := by
  obtain ⟨before, after, htext, hline, hopens⟩ := standsIn_of_mem_scan h
  obtain ⟨c, rest, rfl, hsolid⟩ := hopens.solid
  have hc : c ≠ '\n' := by
    rintro rfl
    cases hsolid
  have hlast := line_le_length_textLines htext hc
  omega

end Lexeme

end SceneConvert
