import ApprovalFlow.Json.Basic
import ApprovalFlow.Text.Digit

/-!
# Tokens of written documents

- `Json.Token`: brackets, punctuation and the documents without parts.
- `Json.ofNumeral?`: the number that a sign, digits, fraction and exponent denote.
- `Json.readPieces?`, `Json.joinPieces?`: a text up to its closing quote, and the characters that it
  denotes.
- `Json.tokens?`: all tokens of a text; each token takes at least one character.
-/

namespace ApprovalFlow.Json

/-- A token: a bracket, a mark of punctuation, or a document without parts. Two are well formed but
denote no document. -/
inductive Token where
  | openArray
  | closeArray
  | openObject
  | closeObject
  | comma
  | colon
  /-- null, a truth value or a number -/
  | scalar (value : Json)
  | text (value : String)
  /-- a number beyond the largest -/
  | hugeNumber
  /-- a text in which half of a surrogate pair stands alone -/
  | brokenText

/-! ## Numbers -/

/-- Append digits to a significand as long as it stays below `2 ^ 64`: the significand reached and
how many digits it took. -/
def absorb (significand : Nat) : List Char → Nat × Nat
  | [] => (significand, 0)
  | d :: rest =>
    let next := significand * 10 + Text.digitValue d
    if next < Nat.pow 2 64 then
      let (final, taken) := absorb next rest
      (final, taken + 1)
    else (significand, 0)

/-- The number written as digits, a fraction and an exponent (with its sign). Without fraction and
exponent it is whole if it fits 64 bits; minus zero is a decimal. Digits beyond those that fit the
significand only count by their place. An exponent too large for 32 bits gives zero, or no number
if the significand is not zero and the exponent positive. -/
def ofNumeral? (negative : Bool) (whole : List Char) (fraction : List Char)
    (exponent : Option (Bool × List Char)) : Option Json :=
  let (significand, taken) := absorb 0 whole
  let skipped := whole.length - taken
  match fraction, exponent with
  | [], none =>
    if skipped = 0 then
      if !negative then some (.integer significand)
      else if 0 < significand ∧ significand ≤ Nat.pow 2 63 then some (.integer (-(significand : Int)))
      else (Binary64.ofDecimal true significand 0).map .decimal
    else (Binary64.ofDecimal negative significand skipped).map .decimal
  | _, _ =>
    let (significand, places) := absorb significand fraction
    let start : Int := (skipped : Int) - places
    match exponent with
    | none => (Binary64.ofDecimal negative significand start).map .decimal
    | some (minus, digits) =>
      let e := Text.digitsValue digits
      if e < Nat.pow 2 31 then
        (Binary64.ofDecimal negative significand (if minus then start - e else start + e)).map .decimal
      else if significand ≠ 0 ∧ !minus then none
      else some (.decimal (Binary64.zero negative))

/-- The digits at the start of a text, and what follows them. -/
def spanDigits (cs : List Char) : List Char × List Char :=
  (cs.takeWhile Char.isDigit, cs.dropWhile Char.isDigit)

/-- The fraction at the start of a text: nothing if there is no point, refused if no digit follows
the point. -/
def readFraction? : List Char → Option (List Char × List Char)
  | '.' :: rest =>
    match spanDigits rest with
    | ([], _) => none
    | (digits, rest) => some (digits, rest)
  | cs => some ([], cs)

/-- The digits of an exponent after its letter and sign. -/
def readExponentDigits? (minus : Bool) (cs : List Char) :
    Option (Option (Bool × List Char) × List Char) :=
  match spanDigits cs with
  | ([], _) => none
  | (digits, rest) => some (some (minus, digits), rest)

/-- The exponent at the start of a text, if there is one; refused if it has no digits. -/
def readExponent? (cs : List Char) : Option (Option (Bool × List Char) × List Char) :=
  match cs with
  | c :: rest =>
    if c = 'e' ∨ c = 'E' then
      match rest with
      | '+' :: rest => readExponentDigits? false rest
      | '-' :: rest => readExponentDigits? true rest
      | rest => readExponentDigits? false rest
    else some (none, cs)
  | [] => some (none, [])

/-- The token of a number, if there is one. -/
def ofNumber : Option Json → Token
  | some j => .scalar j
  | none => .hugeNumber

/-- The number at the start of a text, after its sign. A leading zero stands alone. -/
def readNumber? (negative : Bool) (cs : List Char) : Option (Token × List Char) :=
  match spanDigits cs with
  | ([], _) => none
  | ('0' :: _ :: _, _) => none
  | (whole, rest) => do
    let (fraction, rest) ← readFraction? rest
    let (exponent, rest) ← readExponent? rest
    some (ofNumber (ofNumeral? negative whole fraction exponent), rest)

/-! ## Texts -/

/-- A part of a written text: a character, or a unit of sixteen bits given by its number. -/
inductive Piece where
  | char (c : Char)
  | unit (n : Nat)
  deriving DecidableEq, Repr

/-- Four digits in base sixteen. -/
def readUnit? : List Char → Option (Nat × List Char)
  | a :: b :: c :: d :: rest => do
    let a ← Text.hexValue? a
    let b ← Text.hexValue? b
    let c ← Text.hexValue? c
    let d ← Text.hexValue? d
    some (((a * 16 + b) * 16 + c) * 16 + d, rest)
  | _ => none

/-- What an escape denotes, after its backslash. -/
def readEscape? : List Char → Option (Piece × List Char)
  | '"' :: rest => some (.char '"', rest)
  | '\\' :: rest => some (.char '\\', rest)
  | '/' :: rest => some (.char '/', rest)
  | 'b' :: rest => some (.char '\x08', rest)
  | 'f' :: rest => some (.char '\x0c', rest)
  | 'n' :: rest => some (.char '\n', rest)
  | 'r' :: rest => some (.char '\r', rest)
  | 't' :: rest => some (.char '\t', rest)
  | 'u' :: rest => (readUnit? rest).map fun p => (.unit p.1, p.2)
  | _ => none

theorem length_readUnit? {cs rest : List Char} {n : Nat} (h : readUnit? cs = some (n, rest)) :
    rest.length < cs.length := by
  unfold readUnit? at h
  split at h
  · simp only [Option.bind_eq_bind, Option.bind_eq_some_iff, Option.some.injEq, Prod.mk.injEq] at h
    obtain ⟨_, _, _, _, _, _, _, _, _, rfl⟩ := h
    simp only [List.length_cons]
    omega
  · simp at h

theorem length_readEscape? {cs rest : List Char} {p : Piece}
    (h : readEscape? cs = some (p, rest)) : rest.length < cs.length := by
  unfold readEscape? at h
  split at h
  case h_9 =>
    obtain ⟨⟨_, r⟩, hr, hp⟩ := Option.map_eq_some_iff.1 h
    simp only [Prod.mk.injEq] at hp
    obtain ⟨_, rfl⟩ := hp
    exact Nat.lt_succ_of_lt (length_readUnit? hr)
  case h_10 => simp at h
  all_goals
    simp only [Option.some.injEq, Prod.mk.injEq] at h
    obtain ⟨_, rfl⟩ := h
    simp

/-- The parts of a text up to its closing quote, and what follows the quote. A control below the
blank must be escaped. -/
def readPieces? (cs : List Char) : Option (List Piece × List Char) :=
  match cs with
  | [] => none
  | c :: rest =>
    if c = '"' then some ([], rest)
    else if c = '\\' then
      match h : readEscape? rest with
      | some (e, rest') =>
        have := length_readEscape? h
        (readPieces? rest').map fun p => (e :: p.1, p.2)
      | none => none
    else if c.toNat < 0x20 then none
    else (readPieces? rest).map fun p => (.char c :: p.1, p.2)
termination_by cs.length
decreasing_by
  · simp only [List.length_cons]
    omega
  · simp

/-- Is the unit the first half of a surrogate pair? -/
def isLeading (n : Nat) : Bool := decide (0xd800 ≤ n) && decide (n < 0xdc00)

/-- Is the unit the second half of a surrogate pair? -/
def isTrailing (n : Nat) : Bool := decide (0xdc00 ≤ n) && decide (n < 0xe000)

/-- The characters that the parts of a text denote. A surrogate pair denotes one character; half of
one denotes none. -/
def joinPieces? : List Piece → Option (List Char)
  | [] => some []
  | .char c :: rest => (joinPieces? rest).map (c :: ·)
  | .unit high :: .unit low :: rest =>
    if isLeading high then
      if isTrailing low then
        (joinPieces? rest).map
          (Char.ofNat (0x10000 + (high - 0xd800) * 0x400 + (low - 0xdc00)) :: ·)
      else none
    else if isTrailing high then none
    else (joinPieces? (.unit low :: rest)).map (Char.ofNat high :: ·)
  | .unit n :: rest =>
    if isLeading n || isTrailing n then none
    else (joinPieces? rest).map (Char.ofNat n :: ·)

/-- The token of a text with the parts. -/
def ofPieces (ps : List Piece) : Token :=
  match joinPieces? ps with
  | some cs => .text (String.ofList cs)
  | none => .brokenText

/-! ## All tokens -/

/-- The blanks that may stand between tokens. -/
def isSeparator (c : Char) : Bool := c == ' ' || c == '\n' || c == '\t' || c == '\r'

/-- The token at the start of a text that does not start with a blank. -/
def readToken? (cs : List Char) : Option (Token × List Char) :=
  match cs with
  | '[' :: rest => some (.openArray, rest)
  | ']' :: rest => some (.closeArray, rest)
  | '\x7b' :: rest => some (.openObject, rest)
  | '\x7d' :: rest => some (.closeObject, rest)
  | ',' :: rest => some (.comma, rest)
  | ':' :: rest => some (.colon, rest)
  | 'n' :: 'u' :: 'l' :: 'l' :: rest => some (.scalar .null, rest)
  | 't' :: 'r' :: 'u' :: 'e' :: rest => some (.scalar (.bool true), rest)
  | 'f' :: 'a' :: 'l' :: 's' :: 'e' :: rest => some (.scalar (.bool false), rest)
  | '"' :: rest => (readPieces? rest).map fun p => (ofPieces p.1, p.2)
  | '-' :: rest => readNumber? true rest
  | cs => readNumber? false cs

theorem length_spanDigits (cs : List Char) :
    (spanDigits cs).1.length + (spanDigits cs).2.length = cs.length := by
  rw [spanDigits, ← List.length_append, List.takeWhile_append_dropWhile]

theorem length_readFraction? {cs rest ds : List Char} (h : readFraction? cs = some (ds, rest)) :
    rest.length ≤ cs.length := by
  unfold readFraction? at h
  split at h
  · rename_i tail
    have hlen := length_spanDigits tail
    split at h
    · simp at h
    · rename_i heq
      rw [heq] at hlen
      simp only [Option.some.injEq, Prod.mk.injEq] at h
      obtain ⟨_, rfl⟩ := h
      simp only [List.length_cons] at hlen ⊢
      omega
  · simp only [Option.some.injEq, Prod.mk.injEq] at h
    exact Nat.le_of_eq (by rw [h.2])

theorem length_readExponentDigits? {minus : Bool} {cs rest : List Char}
    {e : Option (Bool × List Char)} (h : readExponentDigits? minus cs = some (e, rest)) :
    rest.length ≤ cs.length := by
  have hlen := length_spanDigits cs
  unfold readExponentDigits? at h
  split at h
  · simp at h
  · rename_i heq
    rw [heq] at hlen
    simp only [Option.some.injEq, Prod.mk.injEq] at h
    obtain ⟨_, rfl⟩ := h
    simp only at hlen
    omega

theorem length_readExponent? {cs rest : List Char} {e : Option (Bool × List Char)}
    (h : readExponent? cs = some (e, rest)) : rest.length ≤ cs.length := by
  unfold readExponent? at h
  split at h
  · split at h
    · split at h <;>
      · have := length_readExponentDigits? h
        simp only [List.length_cons] at this ⊢
        omega
    · simp only [Option.some.injEq, Prod.mk.injEq] at h
      exact Nat.le_of_eq (by rw [h.2])
  · simp only [Option.some.injEq, Prod.mk.injEq] at h
    simp [← h.2]

theorem length_readNumber? {negative : Bool} {cs rest : List Char} {t : Token}
    (h : readNumber? negative cs = some (t, rest)) : rest.length < cs.length := by
  have hlen := length_spanDigits cs
  unfold readNumber? at h
  split at h
  · simp at h
  · simp at h
  · rename_i hne _ heq
    rw [heq] at hlen
    simp only [Option.bind_eq_bind, Option.bind_eq_some_iff, Option.some.injEq,
      Prod.mk.injEq] at h
    obtain ⟨⟨_, r₁⟩, h₁, ⟨_, r₂⟩, h₂, _, rfl⟩ := h
    have h₁ := length_readFraction? h₁
    have h₂ := length_readExponent? h₂
    have hpos := List.length_pos_iff.2 hne
    simp only at h₁ h₂ hlen ⊢
    omega

theorem length_readPieces? {cs rest : List Char} {ps : List Piece}
    (h : readPieces? cs = some (ps, rest)) : rest.length < cs.length := by
  fun_induction readPieces? cs generalizing ps with
  | case1 => simp at h
  | case2 =>
    simp only [Option.some.injEq, Prod.mk.injEq] at h
    simp [h.2]
  | case3 =>
    rename_i hlt ih
    obtain ⟨⟨_, r⟩, hr, hp⟩ := Option.map_eq_some_iff.1 h
    simp only [Prod.mk.injEq] at hp
    obtain ⟨_, rfl⟩ := hp
    have := ih hr
    simp only [List.length_cons]
    omega
  | case4 => simp at h
  | case5 => simp at h
  | case6 =>
    rename_i ih
    obtain ⟨⟨_, r⟩, hr, hp⟩ := Option.map_eq_some_iff.1 h
    simp only [Prod.mk.injEq] at hp
    obtain ⟨_, rfl⟩ := hp
    have := ih hr
    simp only [List.length_cons]
    omega

/-- A token takes at least one character. -/
theorem length_readToken? {cs rest : List Char} {t : Token} (h : readToken? cs = some (t, rest)) :
    rest.length < cs.length := by
  unfold readToken? at h
  split at h
  case h_10 =>
    obtain ⟨⟨_, r⟩, hr, hp⟩ := Option.map_eq_some_iff.1 h
    simp only [Prod.mk.injEq] at hp
    obtain ⟨_, rfl⟩ := hp
    exact Nat.lt_succ_of_lt (length_readPieces? hr)
  case h_11 => exact Nat.lt_succ_of_lt (length_readNumber? h)
  case h_12 => exact length_readNumber? h
  all_goals
    simp only [Option.some.injEq, Prod.mk.injEq] at h
    obtain ⟨_, rfl⟩ := h
    simp only [List.length_cons]
    omega

/-- All tokens of a text, unless some part of it is no token. -/
def tokens? (cs : List Char) : Option (List Token) :=
  if (cs.dropWhile isSeparator).isEmpty then some []
  else
    match h : readToken? (cs.dropWhile isSeparator) with
    | some (t, rest) =>
      have := length_readToken? h
      have := (List.dropWhile_suffix (l := cs) isSeparator).length_le
      (tokens? rest).map (t :: ·)
    | none => none
termination_by cs.length
decreasing_by omega

end ApprovalFlow.Json
