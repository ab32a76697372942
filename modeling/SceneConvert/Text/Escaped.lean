import SceneConvert.Text.Hidden

/-!
# SceneConvert.Text.Escaped

A text between double quotes with escapes for everything that does not show, as messages about mesh
files spell texts.
-/

namespace SceneConvert

def escapedChar (c : Char) : List Char :=
  if c = '\x00' then ['\\', '0']
  else if c = '\t' then ['\\', 't']
  else if c = '\r' then ['\\', 'r']
  else if c = '\n' then ['\\', 'n']
  else if c = '"' then ['\\', '"']
  else if c = '\\' then ['\\', '\\']
  else if isHidden c then ['\\', 'u', '\x7b'] ++ Nat.toDigits 16 c.toNat ++ ['\x7d']
  else [c]

def escaped (s : String) : String := "\"" ++ String.ofList (s.toList.flatMap escapedChar) ++ "\""

end SceneConvert
