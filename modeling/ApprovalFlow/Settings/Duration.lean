import ApprovalFlow.Text.Blank
import ApprovalFlow.Text.Digit

/-!
# Durations

Spans of time as settings write them: a whole number and one of the units `ms`, `s`, `m` and `h`.

- `Duration`: a span, in milliseconds.
- `Duration.parse`: the span that a text denotes.
- `DurationError`: why a text denotes none, and the wording.
-/

namespace ApprovalFlow

/-- A span of time. -/
structure Duration where
  /-- The length in milliseconds. -/
  millis : Nat
  deriving DecidableEq, Repr

/-- Why a text denotes no span of time. -/
inductive DurationError where
  /-- nothing but white space -/
  | empty
  /-- a number alone -/
  | noUnit (text : String)
  /-- no digit at the start -/
  | noNumber (text : String)
  /-- a number that does not fit 64 bits -/
  | tooLarge (text : String)
  /-- something else than a unit after the number -/
  | unknownUnit (unit text : String)
  deriving DecidableEq, Repr

/-- The wording of a refusal. -/
def DurationError.message : DurationError → String
  | .empty => "empty duration string"
  | .noUnit text => "duration '" ++ text ++ "' is missing a unit (ms, s, m, h)"
  | .noNumber text =>
    "invalid number in duration '" ++ text ++ "': cannot parse integer from empty string"
  | .tooLarge text =>
    "invalid number in duration '" ++ text ++ "': number too large to fit in target type"
  | .unknownUnit unit text => "unsupported duration unit '" ++ unit ++ "' in '" ++ text ++ "'"

namespace Duration

/-- A number of seconds. -/
def ofSecs (n : Nat) : Duration := ⟨n * 1000⟩

/-- The most seconds that a span holds; minutes and hours beyond it count as this many. -/
def maxSecs : Nat := Nat.pow 2 64 - 1

/-- The whole seconds of a span. -/
def secs (d : Duration) : Nat := d.millis / 1000

/-- What a span has beyond its whole seconds, in nanoseconds. -/
def nanos (d : Duration) : Nat := d.millis % 1000 * 1000000

/-- `n` of a unit, by the unit's lower-case name. -/
def ofUnit? (n : Nat) (unit : String) : Option Duration :=
  match unit with
  | "ms" => some ⟨n⟩
  | "s" => some (ofSecs n)
  | "m" => some (ofSecs (min (n * 60) maxSecs))
  | "h" => some (ofSecs (min (n * 3600) maxSecs))
  | _ => none

/-- The span that a text denotes. White space at its ends and before the unit does not count, nor
does the case of the unit. -/
def parse (s : String) : Except DurationError Duration :=
  let cs := Text.trimChars s.toList
  let text := String.ofList cs
  let number := cs.takeWhile Char.isDigit
  let rest := cs.dropWhile Char.isDigit
  if cs.isEmpty then .error .empty
  else if rest.isEmpty then .error (.noUnit text)
  else if number.isEmpty then .error (.noNumber text)
  else if Nat.pow 2 64 ≤ Text.digitsValue number then .error (.tooLarge text)
  else
    let unit := String.ofList ((Text.trimChars rest).map Char.toLower)
    match ofUnit? (Text.digitsValue number) unit with
    | some d => .ok d
    | none => .error (.unknownUnit unit text)

end Duration

end ApprovalFlow
