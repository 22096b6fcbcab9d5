import CallSignaling.Text.Printed

/-!
# Quoted text for descriptions

* `Text.quoted`: a text between quotes, with the quotes, backslashes and line controls in it escaped
  by a backslash and every other character without a glyph shown by its number.
-/

namespace CallSignaling.Text

/-- A character of quoted text. -/
def escaped (c : Char) : List Char :=
  match c with
  | '"' => ['\\', '"']
  | '\\' => ['\\', '\\']
  | '\t' => ['\\', 't']
  | '\n' => ['\\', 'n']
  | '\r' => ['\\', 'r']
  | '\x00' => ['\\', '0']
  | c =>
    if isPrinted c then [c]
    else '\\' :: 'u' :: '\x7b' :: Nat.toDigits 16 c.toNat ++ ['\x7d']

/-- A text between quotes. -/
def quoted (s : String) : String :=
  String.ofList ('"' :: s.toList.flatMap escaped ++ ['"'])

end CallSignaling.Text
