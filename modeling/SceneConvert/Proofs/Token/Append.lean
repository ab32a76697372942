import SceneConvert.Token.Lexer

/-!
# SceneConvert.Proofs.Token.Append

At a line break the lexer is where it was at the start: no string, escape, comment or word reaches
over one.

* `Lexeme.scan_append_line`: the tokens of two texts with a line break between them are those of the
  first, then those of the second further down.
* `Lexeme.kind_of_mem_faults`: what can be wrong inside a token is wrong inside a string.
-/

namespace SceneConvert

/-! ## Runs of characters -/

section

variable {α : Type} (p : α → Bool) {d : α}

theorem takeWhile_append_cons_of_neg (hd : p d = false) (a b : List α) :
    (a ++ d :: b).takeWhile p = a.takeWhile p := by
  induction a with
  | nil => simp [hd]
  | cons c a ih => by_cases hc : p c <;> simp [hc, ih]

theorem dropWhile_append_cons_of_neg (hd : p d = false) (a b : List α) :
    (a ++ d :: b).dropWhile p = a.dropWhile p ++ d :: b := by
  induction a with
  | nil => simp [hd]
  | cons c a ih => by_cases hc : p c <;> simp [hc, ih]

end

theorem count_dropWhile_newline (p : Char → Bool) (h : p '\n' = false) (cs : List Char) :
    (cs.dropWhile p).count '\n' = cs.count '\n' := by
  induction cs with
  | nil => rfl
  | cons c cs ih =>
    by_cases hc : p c
    · have hne : c ≠ '\n' := fun e => by simp [e, h] at hc
      simp [hc, ih, hne]
    · simp [hc]

namespace Lexeme

def shift (n : Nat) (x : Lexeme) : Lexeme := { x with line := x.line + n }

@[simp] theorem token_shift (n : Nat) (x : Lexeme) : (x.shift n).token = x.token := rfl

@[simp] theorem line_shift (n : Nat) (x : Lexeme) : (x.shift n).line = x.line + n := rfl

/-! ## Strings -/

def QuotedReading.extend (more : List Char) (r : QuotedReading) : QuotedReading :=
  { r with rest := r.rest ++ more }

/-- A string ends before a line break at the latest. -/
theorem readQuoted_append_line (a b : List Char) :
    readQuoted (a ++ '\n' :: b) = (readQuoted a).extend ('\n' :: b) := by
  fun_induction readQuoted a with
  | case8 c cs hline hquote hend _ hescape ih =>
    -- A backslash would have been one of the cases before.
    have hslash : c ≠ '\\' := by
      intro h
      cases cs with
      | nil => exact hend h rfl
      | cons d cs => exact hescape d cs h rfl
    rw [List.cons_append, readQuoted, ih]
    · rfl
    all_goals simp_all
  | _ => simp_all [readQuoted, QuotedReading.extend, QuotedReading.cons, QuotedReading.blame]

theorem count_rest_readQuoted (cs : List Char) :
    (readQuoted cs).rest.count '\n' = cs.count '\n' := by
  fun_induction readQuoted cs <;>
    simp_all [QuotedReading.cons, QuotedReading.blame]

theorem kind_of_mem_readQuoted {cs : List Char} :
    ∀ p ∈ (readQuoted cs).faults, p.kind = .lexical := by
  fun_induction readQuoted cs <;> simp_all [QuotedReading.cons, QuotedReading.blame, Problem.kind]

/-! ## Tokens -/

/-- The line a text starts on counts for the lines of its tokens only. -/
theorem scan_add (line n : Nat) (cs : List Char) :
    scan (line + n) cs = (scan line cs).map (shift n) := by
  fun_induction scan line cs with
  | case1 => simp [scan]
  | case2 line c cs hc ih =>
    by_cases hline : c = '\n' <;> simp_all [scan, Nat.add_right_comm]
  | _ => simp_all [scan, shift]

theorem scan_append_line (line : Nat) (a b : List Char) :
    scan line (a ++ '\n' :: b) = scan line a ++ scan (line + (a.count '\n' + 1)) b := by
  have hword : (!endsWord '\n') = false := by decide
  have hcomment : ('\n' != '\n') = false := by decide
  fun_induction scan line a with
  | case1 => simp [scan, isBlank]
  | case2 line c cs hc ih =>
    by_cases hline : c = '\n'
    · subst hline
      simp only [↓reduceDIte] at ih
      simp [scan, hc, ih, Nat.add_assoc, Nat.add_comm 1]
    · simp only [hline, ↓reduceDIte] at ih
      simp [scan, hc, hline, ih]
  | case3 line cs hblank ih =>
    rw [count_dropWhile_newline (· != '\n') hcomment] at ih
    simp only [List.cons_append, scan, hblank, dropWhile_append_cons_of_neg (· != '\n') hcomment, ih]
    simp
  | case4 line cs hblank hhash ih =>
    rw [count_rest_readQuoted] at ih
    simp only [List.cons_append, scan, hblank, hhash, readQuoted_append_line,
      QuotedReading.extend, ih]
    simp
  | case5 line cs hblank hhash hquote ih => simp [scan, hblank, ih]
  | case6 line cs hblank hhash hquote hopen ih => simp [scan, hblank, ih]
  | case7 line c cs hblank hhash hquote hopen hclose ih =>
    have hline : c ≠ '\n' := by
      intro h
      simp [h, isBlank] at hblank
    rw [count_dropWhile_newline (fun d => !endsWord d) hword] at ih
    simp only [List.cons_append, scan, hblank, hhash, hquote, hopen, hclose,
      dropWhile_append_cons_of_neg (fun d => !endsWord d) hword,
      takeWhile_append_cons_of_neg (fun d => !endsWord d) hword, ih]
    simp [hline]

theorem kind_of_mem_faults {line : Nat} {cs : List Char} {x : Lexeme} (h : x ∈ scan line cs) :
    ∀ p ∈ x.faults, p.kind = .lexical := by
  fun_induction scan line cs with
  | case1 => cases h
  | case2 _ _ _ _ ih => exact ih h
  | case3 _ _ _ ih => exact ih h
  | case4 line cs _ _ ih =>
    rcases List.mem_cons.1 h with rfl | h
    · exact kind_of_mem_readQuoted
    · exact ih h
  | _ => simp_all; rcases h with rfl | h <;> simp_all

theorem bracketUnclosed_not_mem_faults {line : Nat} {cs : List Char} {x : Lexeme}
    (h : x ∈ scan line cs) : .bracketUnclosed ∉ x.faults := by
  intro hmem
  cases kind_of_mem_faults h _ hmem

end Lexeme

end SceneConvert
