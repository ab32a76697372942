import SceneConvert.Decimal.Numeral

/-!
# SceneConvert.Token.Basic

The tokens of a scene text and their classes.
-/

namespace SceneConvert

inductive Token where
  /-- Bare characters: a directive's name, a number or a truth value. -/
  | word (s : String)
  /-- The content of a quoted string, escapes resolved. -/
  | quoted (s : String)
  | openBracket
  | closeBracket
  deriving Repr, DecidableEq

namespace Token

def numeral? : Token → Option Numeral
  | word s => Numeral.ofChars? s.toList
  | _ => none

def isNumber (t : Token) : Bool := t.numeral?.isSome

def isInteger (t : Token) : Bool := t.numeral?.any Numeral.isInteger

def isTruth : Token → Bool
  | word s => s == "true" || s == "false"
  | _ => false

def isQuoted : Token → Bool
  | quoted _ => true
  | _ => false

/-- Whether the token can stand in a bracketed list. -/
def isScalar (t : Token) : Bool := t.isQuoted || t.isNumber || t.isTruth

/-- Whether the token names a directive: a bare word that is neither a number nor a truth value. -/
def isAction : Token → Bool
  | word s => !(word s).isNumber && !(word s).isTruth
  | _ => false

def display : Token → String
  | word s => s
  | quoted s => "\"" ++ s ++ "\""
  | openBracket => "["
  | closeBracket => "]"

end Token

end SceneConvert
