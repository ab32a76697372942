import SceneConvert.Token.Lexer

/-!
# SceneConvert.Proofs.Token.Spelling

How a scene text has to spell a string for the lexer to read it.
-/

namespace SceneConvert

def spellChar : Char → List Char
  | '\\' => ['\\', '\\']
  | '"' => ['\\', '"']
  | '\n' => ['\\', 'n']
  | c => [c]

def spellString (s : String) : String := "\"" ++ String.ofList (s.toList.flatMap spellChar) ++ "\""

namespace Lexeme

theorem readQuoted_spelled (cs rest : List Char) :
    readQuoted (cs.flatMap spellChar ++ '"' :: rest) = ⟨cs, [], rest⟩ := by
  induction cs with
  | nil => simp [readQuoted]
  | cons c cs ih =>
    rw [List.flatMap_cons, List.append_assoc]
    by_cases hslash : c = '\\'
    · simp [hslash, spellChar, readQuoted, escape?, ih, QuotedReading.cons]
    by_cases hquote : c = '"'
    · simp [hquote, spellChar, readQuoted, escape?, ih, QuotedReading.cons]
    by_cases hline : c = '\n'
    · simp [hline, spellChar, readQuoted, escape?, ih, QuotedReading.cons]
    have hc : spellChar c = [c] := by unfold spellChar; split <;> trivial
    rw [hc, List.singleton_append, readQuoted, ih]
    · rfl
    all_goals simp_all

end Lexeme

end SceneConvert
