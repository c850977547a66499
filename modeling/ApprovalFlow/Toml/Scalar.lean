import ApprovalFlow.Json.Basic
import ApprovalFlow.Toml.Text

/-!
# Values without quotes in settings files

- `Toml.integer?`: whole numbers, in four bases and with underscores between digits.
- `Toml.isUnfinished`: words that are only as good as whole numbers as long as nobody looks.
- `Toml.isFloat`, `Toml.isInstant`: numbers with a fraction or exponent, and dates and times.
- `Toml.ofWord?`: the value that a word is.
- `Toml.spanWord`: the word at the start of a text.
-/

namespace ApprovalFlow.Toml

/-! ## Numbers -/

/-- The parts of a text between the marks. -/
def pieces (mark : Char) : List Char → List (List Char)
  | [] => [[]]
  | c :: rest =>
    if c = mark then [] :: pieces mark rest
    else
      match pieces mark rest with
      | p :: ps => (c :: p) :: ps
      | [] => [[c]]

/-- Digits without the underscores between them; an underscore needs a digit on both sides. -/
def digits? (isDigit : Char → Bool) (cs : List Char) : Option (List Char) :=
  let ps := pieces '_' cs
  if ps.all fun p => !p.isEmpty && p.all isDigit then some ps.flatten else none

/-- The number that digits below a base denote. -/
def natural? (base : Nat) (cs : List Char) : Option Nat :=
  (digits? (fun c => (Text.hexValue? c).any (· < base)) cs).map fun ds =>
    ds.foldl (fun n d => n * base + (Text.hexValue? d).getD 0) 0

/-- A decimal number without a sign; a leading zero stands alone. -/
def decimal? (cs : List Char) : Option Nat :=
  match cs with
  | '0' :: _ :: _ => none
  | cs => natural? 10 cs

/-- A whole number. Only decimal ones have a sign. -/
def integer? : List Char → Option Int
  | '0' :: 'x' :: rest => (natural? 16 rest).map Int.ofNat
  | '0' :: 'o' :: rest => (natural? 8 rest).map Int.ofNat
  | '0' :: 'b' :: rest => (natural? 2 rest).map Int.ofNat
  | '+' :: rest => (decimal? rest).map Int.ofNat
  | '-' :: rest => (decimal? rest).map fun n => -Int.ofNat n
  | cs => (decimal? cs).map Int.ofNat

/-- The text without the sign at its start. -/
def dropSign : List Char → List Char
  | '+' :: rest => rest
  | '-' :: rest => rest
  | cs => cs

/-- Do the parts after the first underscore of a number begin and end with digits, the last part only
begin with one? Digits in base sixteen count as well. -/
def areSpaced : List (List Char) → Bool
  | [] => true
  | [p] => p.head?.any fun c => (Text.hexValue? c).isSome
  | p :: ps =>
    (p.head?.any fun c => (Text.hexValue? c).isSome)
      && (p.getLast?.any fun c => (Text.hexValue? c).isSome) && areSpaced ps

/-- Is it taken for a whole number without being one? A base without digits is, and so is a decimal
number with an underscore after its first digits, whatever stands between digits further on. -/
def isUnfinished (cs : List Char) : Bool :=
  match cs with
  | ['0', 'x'] => true
  | ['0', 'o'] => true
  | ['0', 'b'] => true
  | cs =>
    let digits := dropSign cs
    match pieces '_' digits with
    | first :: second :: more =>
      !first.isEmpty && first.all Char.isDigit && first.head? != some '0'
        && areSpaced (second :: more)
        && !digits.any fun c => c == ' ' || c == '.' || c == 'e' || c == 'E'
    | _ => false

/-- Is it the exponent of a number? -/
def isExponent : List Char → Bool
  | c :: rest => (c == 'e' || c == 'E') && (digits? Char.isDigit (dropSign rest)).isSome
  | [] => false

/-- Is it a number with a fraction, with an exponent, or with both? -/
def isFloat (cs : List Char) : Bool :=
  let cs := dropSign cs
  let inNumber (c : Char) : Bool := c.isDigit || c == '_'
  cs == ['i', 'n', 'f'] || cs == ['n', 'a', 'n']
    || ((decimal? (cs.takeWhile inNumber)).isSome
      && match cs.dropWhile inNumber with
        | '.' :: rest =>
          (digits? Char.isDigit (rest.takeWhile inNumber)).isSome
            && ((rest.dropWhile inNumber).isEmpty || isExponent (rest.dropWhile inNumber))
        | rest => isExponent rest)

/-! ## Dates and times -/

/-- A number of two digits, and what follows it. -/
def pair? : List Char → Option (Nat × List Char)
  | a :: b :: rest =>
    if a.isDigit && b.isDigit then some (Text.digitsValue [a, b], rest) else none
  | _ => none

/-- The days of a month. -/
def daysIn (year month : Nat) : Nat :=
  if month = 2 then
    if year % 4 = 0 ∧ (year % 100 ≠ 0 ∨ year % 400 = 0) then 29 else 28
  else if month = 4 ∨ month = 6 ∨ month = 9 ∨ month = 11 then 30
  else 31

/-- What follows a mark. -/
def dropMark? (mark : Char) : List Char → Option (List Char)
  | c :: rest => if c = mark then some rest else none
  | [] => none

/-- What follows a date. -/
def dropDate? (cs : List Char) : Option (List Char) := do
  let (century, cs) ← pair? cs
  let (year, cs) ← pair? cs
  let (month, cs) ← pair? (← dropMark? '-' cs)
  let (day, cs) ← pair? (← dropMark? '-' cs)
  if 1 ≤ month ∧ month ≤ 12 ∧ 1 ≤ day ∧ day ≤ daysIn (century * 100 + year) month then some cs
  else none

/-- What follows the fraction of a second, if there is one. -/
def dropFraction? : List Char → Option (List Char)
  | '.' :: rest =>
    if (rest.takeWhile Char.isDigit).isEmpty then none else some (rest.dropWhile Char.isDigit)
  | cs => some cs

/-- What follows a time of day. -/
def dropTime? (cs : List Char) : Option (List Char) := do
  let (hour, cs) ← pair? cs
  let (minute, cs) ← pair? (← dropMark? ':' cs)
  if 24 ≤ hour ∨ 60 ≤ minute then none
  else
    match cs with
    | ':' :: rest =>
      let (second, rest) ← pair? rest
      if 60 < second then none else dropFraction? rest
    | cs => some cs

/-- Is it a distance from universal time, or nothing? -/
def isOffset : List Char → Bool
  | [] => true
  | ['Z'] => true
  | ['z'] => true
  | c :: rest =>
    (c == '+' || c == '-') &&
      match dropTime? rest with
      | some [] => rest.length == 5
      | _ => false

/-- Is it a date, a time of day, or both? -/
def isInstant (cs : List Char) : Bool :=
  match dropDate? cs with
  | some [] => true
  | some (mark :: rest) =>
    (mark == 'T' || mark == 't' || mark == ' ') && (dropTime? rest).any isOffset
  | none => dropTime? cs == some []

/-! ## Words -/

/-- The value that a word is. Numbers with a fraction or exponent, dates, times and unfinished numbers
are no setting: whatever they are, they are read as null. -/
def ofWord? (cs : List Char) : Option Json :=
  if cs = ['t', 'r', 'u', 'e'] then some (.bool true)
  else if cs = ['f', 'a', 'l', 's', 'e'] then some (.bool false)
  else
    match integer? cs with
    | some n => some (.integer n)
    | none => if isFloat cs || isInstant cs || isUnfinished cs then some .null else none

/-- The characters that end a word, blanks apart. -/
def wordEnds : List Char := ['=', ',', '[', ']', '\x7b', '\x7d', '#', '\r', '\n']

/-- May the character stand in a word? -/
def isWordChar (c : Char) : Bool := !isBlank c && !wordEnds.contains c

/-- Does a word go on after blanks? A point or a quote does not go on with it. -/
def goesOn (cs : List Char) : Bool :=
  match cs.dropWhile isBlank with
  | c :: _ => isWordChar c && c != '.' && c != '"' && c != '\''
  | [] => false

/-- The word at the start of a text, and what follows it. Blanks may stand inside, as between a date
and a time of day; those at the end do not belong to it. -/
def spanWord : List Char → List Char × List Char
  | [] => ([], [])
  | c :: rest =>
    if isWordChar c || (isBlank c && goesOn rest) then
      let (word, rest) := spanWord rest
      (c :: word, rest)
    else ([], c :: rest)

end ApprovalFlow.Toml
