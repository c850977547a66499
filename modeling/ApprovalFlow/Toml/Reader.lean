import ApprovalFlow.Toml.Scalar
import ApprovalFlow.Toml.Table
import ApprovalFlow.Toml.Text

/-!
# Reading settings files

A file is a sequence of lines: headers of tables, keys with values, comments. Lists of tables do not
occur in settings and are refused. So are values nested too deeply, and keys with too many parts.

- `Toml.readPath?`: a key, with or without dots.
- `Toml.readValue?`: a value; lists and tables in braces hold further values.
- `Toml.readLines?`: all lines.
- `Toml.ofText?`: the document of a file.
-/

namespace ApprovalFlow.Toml

/-- How deeply values may be nested in lists and tables in braces, and of how many parts a key may
consist. -/
def maxDepth : Nat := 80

/-! ## Between values -/

/-- The text without the blanks at its start. -/
def skipBlanks (cs : List Char) : List Char := cs.dropWhile isBlank

/-- The text without the blanks, line ends and comments at its start; refused if a control stands
there. -/
def skipGap? : (inComment : Bool) → List Char → Option (List Char)
  | _, '\n' :: rest => skipGap? false rest
  | _, '\r' :: '\n' :: rest => skipGap? false rest
  | true, c :: rest => if isPlain c then skipGap? true rest else none
  | false, c :: rest =>
    if isBlank c then skipGap? false rest
    else if c = '#' then skipGap? true rest
    else some (c :: rest)
  | _, [] => some []

/-- What follows the end of a line, which may have a comment. -/
def endLine? (cs : List Char) : Option (List Char) :=
  let cs := skipBlanks cs
  let cs := match cs with
    | '#' :: rest => rest.dropWhile isPlain
    | cs => cs
  if cs.isEmpty then some [] else dropLineEnd? cs

/-! ## Keys -/

/-- May the character stand in a key without quotes? -/
def isKeyChar (c : Char) : Bool := c.isAlphanum || c == '_' || c == '-'

/-- A key without dots. -/
def readKey? (cs : List Char) : Option (String × List Char) :=
  match readOneLine? cs with
  | some (key, rest) => some (String.ofList key, rest)
  | none =>
    let key := cs.takeWhile isKeyChar
    if key.isEmpty then none else some (String.ofList key, cs.dropWhile isKeyChar)

/-- A key of no more than `room` parts: the parts before its last dot, its last part, and what
follows it. -/
def readPath? : (room : Nat) → List Char → Option (List String × String × List Char)
  | 0, _ => none
  | room + 1, cs => do
    let (key, rest) ← readKey? (skipBlanks cs)
    match skipBlanks rest with
    | '.' :: rest =>
      let (path, last, rest) ← readPath? room rest
      some (key :: path, last, rest)
    | rest => some ([], key, rest)

/-! ## Values -/

mutual

/-- The value at the start of a text, nested in no more than `room` lists and tables. `fuel` bounds
the parts of values. -/
def readValue? (fuel room : Nat) (cs : List Char) : Option (Json × List Char) :=
  match fuel with
  | 0 => none
  | fuel + 1 =>
    match cs, room with
    | '[' :: rest, room + 1 => do readItems? fuel room [] (← skipGap? false rest)
    | '\x7b' :: rest, room + 1 => do readPairs? fuel room .empty (← skipGap? false rest)
    | cs, _ =>
      match readQuoted? cs with
      | some (text, rest) => some (.text (String.ofList text), rest)
      | none => do
        let (word, rest) := spanWord cs
        let j ← ofWord? word
        some (j, rest)

/-- A list after the items read already. -/
def readItems? (fuel room : Nat) (items : List Json) (cs : List Char) :
    Option (Json × List Char) :=
  match fuel with
  | 0 => none
  | fuel + 1 =>
    match cs with
    | ']' :: rest => some (.array items, rest)
    | cs => do
      let (j, rest) ← readValue? fuel room cs
      match ← skipGap? false rest with
      | ',' :: rest => readItems? fuel room (items ++ [j]) (← skipGap? false rest)
      | ']' :: rest => some (.array (items ++ [j]), rest)
      | _ => none

/-- A table in braces after the members read already. Lines may end anywhere between its marks, but
not inside a key. -/
def readPairs? (fuel room : Nat) (t : Table) (cs : List Char) : Option (Json × List Char) :=
  match fuel with
  | 0 => none
  | fuel + 1 =>
    match cs with
    | '\x7d' :: rest => some (t.toJson, rest)
    | cs => do
      let (path, key, rest) ← readPath? maxDepth cs
      let rest ← dropMark? '=' (← skipGap? false rest)
      let (j, rest) ← readValue? fuel room (← skipGap? false rest)
      let t ← t.assign? path key j
      match ← skipGap? false rest with
      | ',' :: rest => readPairs? fuel room t (← skipGap? false rest)
      | '\x7d' :: rest => some (t.toJson, rest)
      | _ => none

end

/-! ## Lines -/

/-- The line at the start of a text, in the table that `current` leads to: the file with it, the
table for the next line, and what follows. -/
def readLine? (file : Table) (current : List String) (cs : List Char) :
    Option (Table × List String × List Char) :=
  match skipBlanks cs with
  | [] => some (file, current, [])
  | '[' :: rest => do
    let (path, key, rest) ← readPath? maxDepth rest
    let file ← file.declare? path key
    let rest ← endLine? (← dropMark? ']' rest)
    some (file, path ++ [key], rest)
  | c :: rest =>
    if (endLine? (c :: rest)).isSome then
      (endLine? (c :: rest)).map fun rest => (file, current, rest)
    else do
      let (path, key, rest) ← readPath? maxDepth (c :: rest)
      let (j, rest) ← readValue? (cs.length + 1) maxDepth (skipBlanks (← dropMark? '=' rest))
      let file ← file.alter? false (Table.assign? path key j) current
      let rest ← endLine? rest
      some (file, current, rest)

/-- All lines. `fuel` bounds their number. -/
def readLines? : (fuel : Nat) → Table → (current : List String) → List Char → Option Table
  | 0, _, _, _ => none
  | _ + 1, file, _, [] => some file
  | fuel + 1, file, current, cs => do
    let (file, current, rest) ← readLine? file current cs
    readLines? fuel file current rest

/-- The text without a byte order mark. -/
def dropOrderMark : List Char → List Char
  | '\ufeff' :: rest => rest
  | cs => cs

/-- The document of a file. -/
def ofText? (s : String) : Option Json :=
  let cs := dropOrderMark s.toList
  (readLines? (cs.length + 1) .empty [] cs).map Table.toJson

end ApprovalFlow.Toml
