import ApprovalFlow.Json.Basic
import ApprovalFlow.Number.Shortest
import ApprovalFlow.Text.Quoted

/-!
# Writing documents

- `Json.quotedText`: a text between quotes, controls escaped and all else as it is.
- `Json.render`: a document on one line, without blanks.
- `Json.renderIndented`: a document over several lines, each level two blanks further in.
-/

namespace ApprovalFlow.Json

/-- What stands for a character between the quotes: the quote, the backslash and the controls
below the blank are escaped, by a short name where there is one. -/
def escapedChar (c : Char) : List Char :=
  match c with
  | '"' => ['\\', '"']
  | '\\' => ['\\', '\\']
  | '\n' => ['\\', 'n']
  | '\r' => ['\\', 'r']
  | '\t' => ['\\', 't']
  | '\x08' => ['\\', 'b']
  | '\x0c' => ['\\', 'f']
  | c =>
    if c.toNat < 0x20 then
      ['\\', 'u', '0', '0'] ++ [Nat.digitChar (c.toNat / 16), Nat.digitChar (c.toNat % 16)]
    else [c]

/-- A text between quotes. -/
def quotedText (s : String) : String :=
  String.ofList (['"'] ++ s.toList.flatMap escapedChar ++ ['"'])

/-- The text of a document without parts. -/
def renderScalar : Json → String
  | .null => "null"
  | .bool true => "true"
  | .bool false => "false"
  | .integer n => toString n
  | .decimal x => x.text
  | .text s => quotedText s
  | .array _ => "[]"
  | .object _ => "\x7b\x7d"

mutual

/-- The document on one line. -/
def render : Json → String
  | .array items => "[" ++ ",".intercalate (renderItems items) ++ "]"
  | .object members => "\x7b" ++ ",".intercalate (renderMembers members) ++ "\x7d"
  | .null => renderScalar .null
  | .bool b => renderScalar (.bool b)
  | .integer n => renderScalar (.integer n)
  | .decimal x => renderScalar (.decimal x)
  | .text s => renderScalar (.text s)

/-- The items of an array, each on one line. -/
def renderItems : List Json → List String
  | [] => []
  | j :: rest => j.render :: renderItems rest

/-- The members of an object, each on one line. -/
def renderMembers : List (String × Json) → List String
  | [] => []
  | (name, j) :: rest => (quotedText name ++ ":" ++ j.render) :: renderMembers rest

end

/-- The lines of an array or object between its brackets, `depth` levels in. -/
def enclose (opening closing : String) (depth : Nat) (parts : List String) : String :=
  let margin (n : Nat) : String := "\n" ++ String.ofList (List.replicate (2 * n) ' ')
  if parts.isEmpty then opening ++ closing
  else
    opening ++ ",".intercalate (parts.map fun p => margin (depth + 1) ++ p) ++ margin depth ++ closing

mutual

/-- The document over several lines; its first line is `depth` levels in already. -/
def renderAt (depth : Nat) : Json → String
  | .array items => enclose "[" "]" depth (renderItemsAt (depth + 1) items)
  | .object members => enclose "\x7b" "\x7d" depth (renderMembersAt (depth + 1) members)
  | .null => renderScalar .null
  | .bool b => renderScalar (.bool b)
  | .integer n => renderScalar (.integer n)
  | .decimal x => renderScalar (.decimal x)
  | .text s => renderScalar (.text s)

/-- The items of an array, over several lines each. -/
def renderItemsAt (depth : Nat) : List Json → List String
  | [] => []
  | j :: rest => renderAt depth j :: renderItemsAt depth rest

/-- The members of an object, over several lines each. -/
def renderMembersAt (depth : Nat) : List (String × Json) → List String
  | [] => []
  | (name, j) :: rest => (quotedText name ++ ": " ++ renderAt depth j) :: renderMembersAt depth rest

end

/-- The document over several lines, two blanks to a level; an empty array or object on one. -/
def renderIndented (j : Json) : String := renderAt 0 j

end ApprovalFlow.Json
