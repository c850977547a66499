import ApprovalFlow.Text.Digit

/-!
# Texts in settings files

A text stands between single or double quotes, on one line, or between three of them, over several
lines. Escapes count between double quotes only.

- `Toml.Quotes`: the four forms.
- `Toml.readEscape?`: what a backslash and the characters after it denote.
- `Toml.readBody?`: a text up to its closing quotes.
- `Toml.readQuoted?`: a text with its quotes.
-/

namespace ApprovalFlow.Toml

/-- May the character stand in a text or a comment? All may but controls, of which the tab may. -/
def isPlain (c : Char) : Bool := c == '\t' || (0x20 ≤ c.toNat && c.toNat != 0x7f)

/-- Is it a blank within a line? -/
def isBlank (c : Char) : Bool := c == ' ' || c == '\t'

/-- The text without the blanks and line ends at its start. -/
def skipLines : List Char → List Char
  | '\r' :: '\n' :: rest => skipLines rest
  | c :: rest => if isBlank c || c == '\n' then skipLines rest else c :: rest
  | [] => []

theorem length_skipLines (cs : List Char) : (skipLines cs).length ≤ cs.length := by
  fun_induction skipLines cs with
  | case1 rest ih =>
    simp only [List.length_cons]
    omega
  | case2 c rest _ _ ih =>
    simp only [List.length_cons]
    omega
  | case3 => exact Nat.le_refl _
  | case4 => exact Nat.le_refl _

/-- What follows the line end at the start of a text. -/
def dropLineEnd? : List Char → Option (List Char)
  | '\n' :: rest => some rest
  | '\r' :: '\n' :: rest => some rest
  | _ => none

/-! ## Escapes -/

/-- A number of so many digits in base sixteen, after the value of the digits before it. -/
def readHex? : (digits : Nat) → (value : Nat) → List Char → Option (Nat × List Char)
  | 0, value, cs => some (value, cs)
  | digits + 1, value, c :: rest =>
    match Text.hexValue? c with
    | some d => readHex? digits (value * 16 + d) rest
    | none => none
  | _ + 1, _, [] => none

theorem length_readHex? {digits value n : Nat} {cs rest : List Char}
    (h : readHex? digits value cs = some (n, rest)) : rest.length ≤ cs.length := by
  fun_induction readHex? digits value cs with
  | case1 =>
    simp only [Option.some.injEq, Prod.mk.injEq] at h
    exact Nat.le_of_eq (by rw [h.2])
  | case2 _ _ _ _ _ _ ih => exact Nat.le_succ_of_le (ih h)
  | case3 => simp at h
  | case4 => simp at h

/-- A character by its number, in so many digits of base sixteen. -/
def readNumbered? (digits : Nat) (cs : List Char) : Option (List Char × List Char) :=
  match readHex? digits 0 cs with
  | some (n, rest) => if n.isValidChar then some ([Char.ofNat n], rest) else none
  | none => none

/-- What an escape denotes, after its backslash. Over several lines a backslash at the end of a line
takes away the line end with all blanks and line ends after it. -/
def readEscape? (severalLines : Bool) (cs : List Char) : Option (List Char × List Char) :=
  match cs with
  | '"' :: rest => some (['"'], rest)
  | '\\' :: rest => some (['\\'], rest)
  | 'b' :: rest => some (['\x08'], rest)
  | 'e' :: rest => some (['\x1b'], rest)
  | 'f' :: rest => some (['\x0c'], rest)
  | 'n' :: rest => some (['\n'], rest)
  | 'r' :: rest => some (['\r'], rest)
  | 't' :: rest => some (['\t'], rest)
  | 'x' :: rest => readNumbered? 2 rest
  | 'u' :: rest => readNumbered? 4 rest
  | 'U' :: rest => readNumbered? 8 rest
  | cs =>
    if severalLines && (dropLineEnd? (cs.dropWhile isBlank)).isSome then some ([], skipLines cs)
    else none

theorem length_readNumbered? {digits : Nat} {cs rest ds : List Char}
    (h : readNumbered? digits cs = some (ds, rest)) : rest.length ≤ cs.length := by
  unfold readNumbered? at h
  split at h
  · rename_i hn
    split at h
    · simp only [Option.some.injEq, Prod.mk.injEq] at h
      obtain ⟨_, rfl⟩ := h
      exact length_readHex? hn
    · simp at h
  · simp at h

theorem length_readEscape? {severalLines : Bool} {cs rest ds : List Char}
    (h : readEscape? severalLines cs = some (ds, rest)) : rest.length ≤ cs.length := by
  unfold readEscape? at h
  split at h
  case h_9 => exact Nat.le_succ_of_le (length_readNumbered? h)
  case h_10 => exact Nat.le_succ_of_le (length_readNumbered? h)
  case h_11 => exact Nat.le_succ_of_le (length_readNumbered? h)
  case h_12 =>
    split at h
    · simp only [Option.some.injEq, Prod.mk.injEq] at h
      obtain ⟨_, rfl⟩ := h
      exact length_skipLines _
    · simp at h
  all_goals
    simp only [Option.some.injEq, Prod.mk.injEq] at h
    obtain ⟨_, rfl⟩ := h
    simp

/-! ## Texts -/

/-- How a text is quoted. -/
structure Quotes where
  /-- The quote, double or single. -/
  mark : Char
  /-- Are there three of them, so that the text may go over several lines? -/
  severalLines : Bool
  deriving DecidableEq, Repr

/-- The end of a text over several lines: three quotes. Up to two more in front of them belong to
the text. -/
def readClosing? (mark : Char) : List Char → Option (List Char × List Char)
  | a :: b :: c :: rest =>
    if a = mark ∧ b = mark ∧ c = mark then
      let more := (rest.take 2).takeWhile (· == mark)
      some (more, rest.drop more.length)
    else none
  | _ => none

/-- A text up to its closing quotes, escapes resolved, and what follows the quotes. -/
def readBody? (q : Quotes) (cs : List Char) : Option (List Char × List Char) :=
  match cs with
  | [] => none
  | c :: rest =>
    if c = q.mark then
      if q.severalLines then
        match readClosing? q.mark (c :: rest) with
        | some result => some result
        | none => (readBody? q rest).map fun p => (c :: p.1, p.2)
      else some ([], rest)
    else if c = '\\' ∧ q.mark = '"' then
      match h : readEscape? q.severalLines rest with
      | some (e, rest') =>
        have := length_readEscape? h
        (readBody? q rest').map fun p => (e ++ p.1, p.2)
      | none => none
    else if isPlain c || (q.severalLines && (dropLineEnd? (c :: rest)).isSome) then
      (readBody? q rest).map fun p => (c :: p.1, p.2)
    else none
termination_by cs.length
decreasing_by
  · simp
  · simp only [List.length_cons]
    omega
  · simp

/-- A text on one line, with its quotes. -/
def readOneLine? : List Char → Option (List Char × List Char)
  | '"' :: rest => readBody? ⟨'"', false⟩ rest
  | '\'' :: rest => readBody? ⟨'\'', false⟩ rest
  | _ => none

/-- What follows the line end at the start of a text, if there is one. -/
def dropFirstLineEnd (cs : List Char) : List Char := (dropLineEnd? cs).getD cs

/-- A text with its quotes. Over several lines a line end right after the opening quotes does not
belong to the text. -/
def readQuoted? : List Char → Option (List Char × List Char)
  | '"' :: '"' :: '"' :: rest => readBody? ⟨'"', true⟩ (dropFirstLineEnd rest)
  | '\'' :: '\'' :: '\'' :: rest => readBody? ⟨'\'', true⟩ (dropFirstLineEnd rest)
  | cs => readOneLine? cs

end ApprovalFlow.Toml
