import ApprovalFlow.Text.Hidden

/-!
# Quoted texts

How a message shows a text that was found where something else was expected: between double
quotes, with a backslash before quotes and backslashes, short names for the common controls, and
every other hidden character as its number in braces.

- `quotedChar`: the form of one character.
- `quoted`: the form of a text.
-/

namespace ApprovalFlow.Text

/-- The digits of `n` in base sixteen, in lower case. -/
def hexDigits (n : Nat) : List Char := Nat.toDigits 16 n

/-- What stands for one character between the quotes. -/
def quotedChar (c : Char) : List Char :=
  match c with
  | '\x00' => ['\\', '0']
  | '\t' => ['\\', 't']
  | '\r' => ['\\', 'r']
  | '\n' => ['\\', 'n']
  | '"' => ['\\', '"']
  | '\\' => ['\\', '\\']
  | c => if isHidden c then ['\\', 'u', '\x7b'] ++ hexDigits c.toNat ++ ['\x7d'] else [c]

/-- A text as messages show it. -/
def quoted (s : String) : String :=
  String.ofList (['"'] ++ s.toList.flatMap quotedChar ++ ['"'])

end ApprovalFlow.Text
