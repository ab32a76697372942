import SceneConvert.Report.Problem
import SceneConvert.Token.Basic

/-!
# SceneConvert.Token.Lexer

From a text to its tokens. A fault inside a quoted string never stops the lexer: it stays with the
token of the string.

* `readQuoted`: the content of a string behind its opening quote, its faults, and the rest.
* `Lexeme.ofText`: all tokens of a text, each with the line it starts on.
-/

namespace SceneConvert

/-- A token with the line of its first character and what was wrong inside it. -/
structure Lexeme where
  line : Nat
  token : Token
  faults : List Problem

namespace Lexeme

/-- A character that ends a bare word. -/
def endsWord (c : Char) : Bool := isBlank c || c == '#' || c == '"' || c == '[' || c == ']'

/-- What a character stands for behind a backslash. -/
def escape? : Char → Option Char
  | '\\' => some '\\'
  | 'n' => some '\n'
  | 't' => some '\t'
  | 'r' => some '\r'
  | 'f' => some '\x0c'
  | '"' => some '"'
  | _ => none

/-- What a string consists of, and the text behind it. -/
structure QuotedReading where
  content : List Char
  faults : List Problem
  rest : List Char

namespace QuotedReading

def cons (c : Char) (r : QuotedReading) : QuotedReading := { r with content := c :: r.content }

def blame (p : Problem) (r : QuotedReading) : QuotedReading := { r with faults := p :: r.faults }

end QuotedReading

/-- Reads a string behind its opening quote. The string ends at the closing quote, or before the end
of its line. An unknown escape stands for the character itself. -/
def readQuoted : List Char → QuotedReading
  | [] => ⟨[], [.unterminatedString], []⟩
  | '\n' :: cs => ⟨[], [.unterminatedString], '\n' :: cs⟩
  | '"' :: cs => ⟨[], [], cs⟩
  | '\\' :: [] => ⟨[], [.danglingEscape, .unterminatedString], []⟩
  | '\\' :: '\n' :: cs => ⟨[], [.danglingEscape, .unterminatedString], '\n' :: cs⟩
  | '\\' :: c :: cs =>
    match escape? c with
    | some e => (readQuoted cs).cons e
    | none => ((readQuoted cs).cons c).blame (.unknownEscape c)
  | c :: cs => (readQuoted cs).cons c

theorem length_rest_readQuoted (cs : List Char) : (readQuoted cs).rest.length ≤ cs.length := by
  fun_induction readQuoted cs <;>
    simp_all [QuotedReading.cons, QuotedReading.blame] <;> omega

/-- The tokens of `cs`, which starts on line `line`. Blanks and comments separate tokens; a comment
reaches to the end of its line. -/
def scan (line : Nat) : List Char → List Lexeme
  | [] => []
  | c :: cs =>
    if isBlank c then scan (if c = '\n' then line + 1 else line) cs
    else if c = '#' then scan line (cs.dropWhile (· != '\n'))
    else if c = '"' then
      ⟨line, .quoted (String.ofList (readQuoted cs).content), (readQuoted cs).faults⟩ ::
        scan line (readQuoted cs).rest
    else if c = '[' then ⟨line, .openBracket, []⟩ :: scan line cs
    else if c = ']' then ⟨line, .closeBracket, []⟩ :: scan line cs
    else
      ⟨line, .word (String.ofList (c :: cs.takeWhile fun d => !endsWord d)), []⟩ ::
        scan line (cs.dropWhile fun d => !endsWord d)
  termination_by cs => cs.length
  decreasing_by
  all_goals simp only [List.length_cons]
  all_goals
    first
      | omega
      | have := length_rest_readQuoted cs; omega
      | have := (List.dropWhile_sublist (l := cs) (· != '\n')).length_le; omega
      | have := (List.dropWhile_sublist (l := cs) fun d => !endsWord d).length_le; omega

def ofText (text : String) : List Lexeme := scan 1 text.toList

end Lexeme

end SceneConvert
