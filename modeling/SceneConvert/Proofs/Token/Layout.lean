import Mathlib.Data.List.Chain
import Mathlib.Data.List.TakeWhile
import SceneConvert.Proofs.Token.Append
import SceneConvert.Proofs.Token.Spelling

/-!
# SceneConvert.Proofs.Token.Layout

All the ways to lay out a list of tokens as a text, and that the lexer sees through each of them.

* `Token.IsSpellable`: a token that a text can spell.
* `Layout`: tokens with the space before each of them and the space at the end.
* `Layout.ofText_text`: the tokens of a text that is laid out are the tokens it was laid out from,
  without a fault, and each is on the line it was put on.
-/

namespace SceneConvert

/-! ## Tokens as a text spells them -/

namespace Token

/-- Words and brackets stand as they are, a string stands between quotes. -/
def spell : Token → List Char
  | word s => s.toList
  | quoted s => (spellString s).toList
  | openBracket => ['[']
  | closeBracket => [']']

/-- A word is not empty and has neither a blank nor a character that starts another token or a
comment. Strings are arbitrary. -/
def IsSpellable : Token → Prop
  | word s => s ≠ "" ∧ ∀ c ∈ s.toList, isBlank c = false ∧ c ∉ ['#', '"', '[', ']']
  | _ => True

def IsWord : Token → Prop
  | word _ => True
  | _ => False

theorem count_spellChar (c : Char) : (spellChar c).count '\n' = 0 := by
  unfold spellChar
  split <;> simp_all

/-- No token reaches over a line break. -/
theorem count_spell {t : Token} (ht : t.IsSpellable) : t.spell.count '\n' = 0 := by
  cases t with
  | word s =>
    refine List.count_eq_zero.2 fun hmem => ?_
    exact absurd (ht.2 _ hmem).1 (by decide)
  | quoted s =>
    have hspelled : (s.toList.flatMap spellChar).count '\n' = 0 := by
      refine List.count_eq_zero.2 fun hmem => ?_
      obtain ⟨c, -, hc⟩ := List.mem_flatMap.1 hmem
      exact List.count_eq_zero.1 (count_spellChar c) hc
    simp [spell, spellString, hspelled]
  | openBracket | closeBracket => decide

end Token

/-! ## The space between tokens -/

/-- The text of a comment between the mark that starts it and the end of its line. -/
structure Comment where
  text : List Char
  oneLine : '\n' ∉ text

def Comment.chars (c : Comment) : List Char := '#' :: c.text

/-- What can stand between two tokens: a blank, or a comment with the end of its line. -/
inductive Spacer where
  | blank (c : Char) (h : isBlank c = true)
  | comment (c : Comment)

def Spacer.chars : Spacer → List Char
  | blank c _ => [c]
  | comment c => c.chars ++ ['\n']

/-- Any mixture of blanks and comments. -/
def spaceChars (gap : List Spacer) : List Char := gap.flatMap Spacer.chars

namespace Lexeme

theorem scan_comment (line : Nat) (c : Comment) (rest : List Char) :
    scan line (c.chars ++ '\n' :: rest) = scan (line + 1) rest := by
  have hrest : (c.text ++ '\n' :: rest).dropWhile (· != '\n') = '\n' :: rest := by
    rw [dropWhile_append_cons_of_neg _ (by decide), List.dropWhile_eq_nil_iff.2, List.nil_append]
    intro d hd
    have hne : d ≠ '\n' := fun h => c.oneLine (h ▸ hd)
    simpa using hne
  simp [Comment.chars, scan, hrest, isBlank]

/-- A comment may also end with the text. -/
theorem scan_last_comment (line : Nat) (c : Comment) : scan line c.chars = [] := by
  have hrest : c.text.dropWhile (· != '\n') = [] := by
    refine List.dropWhile_eq_nil_iff.2 fun d hd => ?_
    have hne : d ≠ '\n' := fun h => c.oneLine (h ▸ hd)
    simpa using hne
  simp [Comment.chars, scan, hrest, isBlank]

theorem scan_spacer (line : Nat) (x : Spacer) (rest : List Char) :
    scan line (x.chars ++ rest) = scan (line + x.chars.count '\n') rest := by
  cases x with
  | blank c h =>
    by_cases hline : c = '\n'
    · subst hline
      simp [Spacer.chars, scan, h]
    · simp [Spacer.chars, scan, h, hline]
  | comment c =>
    have hcount : c.text.count '\n' = 0 := List.count_eq_zero.2 c.oneLine
    have hscan := scan_comment line c rest
    simp_all [Spacer.chars, Comment.chars]

theorem scan_space (line : Nat) (gap : List Spacer) (rest : List Char) :
    scan line (spaceChars gap ++ rest) = scan (line + (spaceChars gap).count '\n') rest := by
  induction gap generalizing line with
  | nil => rfl
  | cons x gap ih =>
    have hcons : spaceChars (x :: gap) = x.chars ++ spaceChars gap := List.flatMap_cons
    rw [hcons, List.append_assoc, scan_spacer, ih, List.count_append, Nat.add_assoc]

/-! ## One token -/

/-- A text at whose start no word goes on. -/
def Bounds (cs : List Char) : Prop := ∀ c ∈ cs.head?, endsWord c = true

theorem bounds_nil : Bounds [] := by simp [Bounds]

theorem bounds_spell {t : Token} (ht : ¬ t.IsWord) (rest : List Char) :
    Bounds (t.spell ++ rest) := by
  cases t with
  | word s => exact absurd trivial ht
  | quoted s => simp [Bounds, Token.spell, spellString, endsWord]
  | openBracket | closeBracket => simp [Bounds, Token.spell, endsWord]

theorem bounds_comment (c : Comment) : Bounds c.chars := by simp [Bounds, Comment.chars, endsWord]

theorem bounds_space {gap : List Spacer} (hgap : gap ≠ []) (rest : List Char) :
    Bounds (spaceChars gap ++ rest) := by
  cases gap with
  | nil => exact absurd rfl hgap
  | cons x gap =>
    cases x with
    | blank c h => simp [Bounds, spaceChars, Spacer.chars, endsWord, h]
    | comment c => simp [Bounds, spaceChars, Spacer.chars, Comment.chars, endsWord]

theorem endsWord_eq_false {c : Char} :
    endsWord c = false ↔ isBlank c = false ∧ c ∉ ['#', '"', '[', ']'] := by
  simp [endsWord, and_assoc]

theorem scan_word (line : Nat) {s : String} (hs : (Token.word s).IsSpellable) {rest : List Char}
    (hrest : Bounds rest) :
    scan line (s.toList ++ rest) = ⟨line, .word s, []⟩ :: scan line rest := by
  obtain ⟨hne, hchars⟩ := hs
  cases hcs : s.toList with
  | nil => exact absurd (String.toList_eq_nil_iff.1 hcs) hne
  | cons c cs =>
    rw [hcs] at hchars
    obtain ⟨hblank, hother⟩ := hchars c (by simp)
    have hgoes : ∀ d ∈ cs, (!endsWord d) = true := by
      intro d hd
      simp [endsWord_eq_false.2 (hchars d (by simp [hd]))]
    have htake : (cs ++ rest).takeWhile (fun d => !endsWord d) = cs := by
      rw [List.takeWhile_append_of_pos hgoes]
      cases rest with
      | nil => simp
      | cons d rest => simp [hrest d rfl]
    have hdrop : (cs ++ rest).dropWhile (fun d => !endsWord d) = rest := by
      rw [List.dropWhile_append_of_pos hgoes]
      cases rest with
      | nil => simp
      | cons d rest => simp [hrest d rfl]
    have hs : String.ofList (c :: cs) = s := by rw [← hcs, String.ofList_toList]
    obtain ⟨hhash, hquote, hopen, hclose⟩ : c ≠ '#' ∧ c ≠ '"' ∧ c ≠ '[' ∧ c ≠ ']' := by
      simpa using hother
    rw [List.cons_append, scan, htake, hdrop, hs]
    simp [hblank, hhash, hquote, hopen, hclose]

/-- The lexer reads a token from its spelling, provided that a word ends there. -/
theorem scan_spell (line : Nat) {t : Token} (ht : t.IsSpellable) {rest : List Char}
    (hrest : t.IsWord → Bounds rest) :
    scan line (t.spell ++ rest) = ⟨line, t, []⟩ :: scan line rest := by
  cases t with
  | word s => exact scan_word line ht (hrest trivial)
  | quoted s =>
    simp [Token.spell, spellString, scan, readQuoted_spelled, isBlank]
  | openBracket | closeBracket => simp [Token.spell, scan, isBlank]

end Lexeme

/-! ## Whole texts -/

/-- A token and the space before it. -/
structure SpacedToken where
  gap : List Spacer
  token : Token

namespace SpacedToken

def chars (p : SpacedToken) : List Char := spaceChars p.gap ++ p.token.spell

/-- Two words that follow each other need space between them, everywhere else there may be none. -/
def Apart (p q : SpacedToken) : Prop := p.token.IsWord → q.token.IsWord → q.gap ≠ []

/-- The text before the first character of the `i`-th token. -/
def textBefore (ps : List SpacedToken) (i : Nat) : List Char :=
  (ps.take i).flatMap chars ++ (ps[i]?.map fun p => spaceChars p.gap).getD []

/-- The tokens of a text that starts on line `line`. -/
def lexemes (line : Nat) (ps : List SpacedToken) : List Lexeme :=
  ps.mapIdx fun i p => ⟨line + (textBefore ps i).count '\n', p.token, []⟩

theorem lexemes_cons (line : Nat) {p : SpacedToken} (hp : p.token.IsSpellable)
    (ps : List SpacedToken) :
    lexemes line (p :: ps) =
      ⟨line + (spaceChars p.gap).count '\n', p.token, []⟩ ::
        lexemes (line + (spaceChars p.gap).count '\n') ps := by
  have hhead : textBefore (p :: ps) 0 = spaceChars p.gap := by simp [textBefore]
  have htail (i : Nat) : textBefore (p :: ps) (i + 1) = p.chars ++ textBefore ps i := by
    simp [textBefore]
  have hcount : p.chars.count '\n' = (spaceChars p.gap).count '\n' := by
    simp [chars, Token.count_spell hp]
  simp [lexemes, List.mapIdx_cons, hhead, htail, hcount, Nat.add_assoc]

/-- The induction is on the tokens. What follows one is a word only behind space, hence a word
always ends where its spelling does. -/
theorem scan_flatMap_chars (line : Nat) {ps : List SpacedToken}
    (hps : ∀ p ∈ ps, p.token.IsSpellable) (hapart : ps.IsChain Apart) {rest : List Char}
    (hrest : Lexeme.Bounds rest) (hnone : ∀ line, Lexeme.scan line rest = []) :
    Lexeme.scan line (ps.flatMap chars ++ rest) = lexemes line ps := by
  induction ps generalizing line with
  | nil => exact hnone line
  | cons p ps ih =>
    have hp : p.token.IsSpellable := hps p (by simp)
    have hbounds : p.token.IsWord → Lexeme.Bounds (ps.flatMap chars ++ rest) := by
      intro hword
      cases ps with
      | nil => exact hrest
      | cons q qs =>
        rw [List.flatMap_cons, chars, List.append_assoc, List.append_assoc]
        by_cases hgap : q.gap = []
        · have hq : ¬ q.token.IsWord := fun h => (List.isChain_cons_cons.1 hapart).1 hword h hgap
          rw [hgap]
          exact Lexeme.bounds_spell hq _
        · exact Lexeme.bounds_space hgap _
    rw [List.flatMap_cons, chars, List.append_assoc, List.append_assoc, Lexeme.scan_space,
      Lexeme.scan_spell _ hp hbounds, lexemes_cons line hp,
      ih _ (fun q hq => hps q (by simp [hq])) hapart.of_cons]

end SpacedToken

/-- Tokens with the space around them, and the comment that ends with the text if there is one. -/
structure Layout where
  placed : List SpacedToken
  /-- The space behind the last token. -/
  tail : List Spacer
  last : Option Comment
  spellable : ∀ p ∈ placed, p.token.IsSpellable
  apart : placed.IsChain SpacedToken.Apart

namespace Layout

def tokens (l : Layout) : List Token := l.placed.map SpacedToken.token

theorem exists_of_tokens {ts : List Token} (h : ∀ t ∈ ts, t.IsSpellable) :
    ∃ l : Layout, l.tokens = ts := by
  let space : List Spacer := [.blank ' ' (by decide)]
  have hapart : ∀ t u, SpacedToken.Apart ⟨space, t⟩ ⟨space, u⟩ := by
    simp [SpacedToken.Apart, space]
  refine ⟨⟨ts.map fun t => ⟨space, t⟩, [], none, by simpa using h, ?_⟩, ?_⟩
  · exact (List.isChain_map _).2 (List.pairwise_of_forall hapart).isChain
  · simp [tokens, Function.comp_def]

def ending (l : Layout) : List Char :=
  spaceChars l.tail ++ (l.last.map Comment.chars).getD []

def text (l : Layout) : String := String.ofList (l.placed.flatMap SpacedToken.chars ++ l.ending)

theorem bounds_ending (l : Layout) : Lexeme.Bounds l.ending := by
  by_cases htail : l.tail = []
  · cases hlast : l.last with
    | none => simp [ending, htail, hlast, spaceChars, Lexeme.bounds_nil]
    | some c => simp [ending, htail, hlast, spaceChars, Lexeme.bounds_comment]
  · exact Lexeme.bounds_space htail _

theorem scan_ending (l : Layout) (line : Nat) : Lexeme.scan line l.ending = [] := by
  rw [ending, Lexeme.scan_space]
  cases l.last with
  | none => simp [Lexeme.scan]
  | some c => exact Lexeme.scan_last_comment _ c

/-- The lexer undoes every layout: the tokens of the text are those that were laid out, without a
fault, each on the line of its first character. -/
theorem ofText_text (l : Layout) :
    Lexeme.ofText l.text =
      l.placed.mapIdx fun i p =>
        ⟨1 + (SpacedToken.textBefore l.placed i).count '\n', p.token, []⟩ := by
  rw [Lexeme.ofText, text, String.toList_ofList]
  exact SpacedToken.scan_flatMap_chars 1 l.spellable l.apart l.bounds_ending l.scan_ending

/-- Nothing between brackets and words, a comment right behind a word, a line break in a string, and a
comment that ends with the text. -/
example : Lexeme.ofText "A[1]\n\nB#c \"x\"\n\"d\\n\"#e" =
    [⟨1, .word "A", []⟩, ⟨1, .openBracket, []⟩, ⟨1, .word "1", []⟩, ⟨1, .closeBracket, []⟩,
      ⟨3, .word "B", []⟩, ⟨4, .quoted "d\n", []⟩] := by
  cbv

end Layout

end SceneConvert
