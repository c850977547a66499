import ApprovalFlow.Proofs.Text.Blank
import ApprovalFlow.Settings.Duration
import Mathlib.Data.List.Basic

/-!
# Durations, exactly

A span of time is written as a number and a unit. The reader cuts the text three times: white space
off its ends, the digits off the front of what is left, white space off the ends of the rest. The cuts
are forced, since a digit is no white space and no letter of a unit is either of both. So a text is
read just if it can be taken apart by hand.

- `TimeUnit`, `TimeUnit.span`: the units, and so many of one.
- `TimeUnit.Spelling`: the ways of writing a number of a unit.
- `Duration.parse_spelling`, `Duration.exists_spelling`: what is written so is read, and nothing else
  is.
- `Duration.parse_by_grammar`: **a text is read just if it is written so**, spans grow with their
  numbers and stay within what can be held, and a number in decimal with a unit behind it is read
  back.
-/

namespace ApprovalFlow

/-! ## Units -/

/-- The units of spans of time. -/
inductive TimeUnit where
  | millisecond
  | second
  | minute
  | hour
  deriving DecidableEq, Repr

namespace TimeUnit

/-- The letters of a unit. -/
def name : TimeUnit → String
  | .millisecond => "ms"
  | .second => "s"
  | .minute => "m"
  | .hour => "h"

/-- So many of a unit. Minutes and hours beyond what 64 bits hold in seconds count as the most that
they hold. -/
def span (n : Nat) : TimeUnit → Duration
  | .millisecond => ⟨n⟩
  | .second => ⟨1000 * n⟩
  | .minute => ⟨1000 * min (60 * n) Duration.maxSecs⟩
  | .hour => ⟨1000 * min (3600 * n) Duration.maxSecs⟩

variable {n n' : Nat}

/-- More of a unit is no shorter. -/
theorem span_mono (h : n ≤ n') (u : TimeUnit) : (u.span n).millis ≤ (u.span n').millis := by
  cases u with
  | millisecond => exact h
  | second => exact Nat.mul_le_mul_left 1000 h
  | minute =>
    show 1000 * min (60 * n) Duration.maxSecs ≤ 1000 * min (60 * n') Duration.maxSecs
    omega
  | hour =>
    show 1000 * min (3600 * n) Duration.maxSecs ≤ 1000 * min (3600 * n') Duration.maxSecs
    omega

/-- No number of 64 bits gives a span of more seconds than 64 bits hold, and none gives one of fewer
milliseconds than the number. -/
theorem span_bounds (h : n < Nat.pow 2 64) (u : TimeUnit) :
    (u.span n).secs ≤ Duration.maxSecs ∧ n ≤ (u.span n).millis := by
  have hmax : n ≤ Duration.maxSecs := Nat.le_sub_one_of_lt h
  cases u with
  | millisecond =>
    show n / 1000 ≤ Duration.maxSecs ∧ n ≤ n
    omega
  | second =>
    show 1000 * n / 1000 ≤ Duration.maxSecs ∧ n ≤ 1000 * n
    omega
  | minute =>
    show 1000 * min (60 * n) Duration.maxSecs / 1000 ≤ Duration.maxSecs ∧
      n ≤ 1000 * min (60 * n) Duration.maxSecs
    omega
  | hour =>
    show 1000 * min (3600 * n) Duration.maxSecs / 1000 ≤ Duration.maxSecs ∧
      n ≤ 1000 * min (3600 * n) Duration.maxSecs
    omega

end TimeUnit

namespace Duration

variable {n : Nat} {unit : String} {d : Duration}

theorem ofUnit?_name (n : Nat) (u : TimeUnit) : ofUnit? n u.name = some (u.span n) := by
  have hsecs : ∀ k, ofSecs k = ⟨1000 * k⟩ := fun k => congrArg Duration.mk (Nat.mul_comm k 1000)
  cases u with
  | millisecond => rfl
  | second => exact congrArg some (hsecs n)
  | minute =>
    show some (ofSecs (min (n * 60) maxSecs)) = _
    rw [hsecs, Nat.mul_comm n]
    rfl
  | hour =>
    show some (ofSecs (min (n * 3600) maxSecs)) = _
    rw [hsecs, Nat.mul_comm n]
    rfl

/-- Nothing but the letters of a unit stands for one. -/
theorem ofUnit?_eq_some_iff :
    ofUnit? n unit = some d ↔ ∃ u : TimeUnit, unit = u.name ∧ d = u.span n := by
  constructor
  · intro h
    obtain ⟨u, rfl⟩ : ∃ u : TimeUnit, unit = u.name := by
      unfold ofUnit? at h
      split at h
      · exact ⟨.millisecond, rfl⟩
      · exact ⟨.second, rfl⟩
      · exact ⟨.minute, rfl⟩
      · exact ⟨.hour, rfl⟩
      · cases h
    exact ⟨u, rfl, Option.some.inj (h.symm.trans (ofUnit?_name n u))⟩
  · rintro ⟨u, rfl, rfl⟩
    exact ofUnit?_name n u

end Duration

/-! ## Letters, digits and white space -/

namespace Text

theorem toNat_of_isDigit {c : Char} (h : c.isDigit = true) : 48 ≤ c.toNat ∧ c.toNat ≤ 57 := by
  simp only [Char.isDigit, Bool.and_eq_true, decide_eq_true_eq] at h
  exact ⟨UInt32.le_iff_toNat_le.mp h.1, UInt32.le_iff_toNat_le.mp h.2⟩

/-- No digit is white space. -/
theorem isBlank_of_isDigit {c : Char} (h : c.isDigit = true) : isBlank c = false := by
  rw [← Bool.not_eq_true]
  intro hblank
  have := toNat_of_isBlank hblank
  have := toNat_of_isDigit h
  omega

/-- Neither white space nor a digit is a capital letter. -/
theorem toLower_eq_self {c : Char} (h : isBlank c = true ∨ c.isDigit = true) : c.toLower = c := by
  have hout : c.toNat < 65 ∨ 90 < c.toNat := by
    rcases h with h | h
    · have := toNat_of_isBlank h
      omega
    · have := toNat_of_isDigit h
      omega
  have hnot : ¬ (c.val ≥ 'A'.val ∧ c.val ≤ 'Z'.val) := by
    rintro ⟨hA, hZ⟩
    have hA : 65 ≤ c.toNat := UInt32.le_iff_toNat_le.mp hA
    have hZ : c.toNat ≤ 90 := UInt32.le_iff_toNat_le.mp hZ
    omega
  unfold Char.toLower
  exact dif_neg hnot

/-- The value of digits is the number that they stand for in decimal. -/
theorem digitsValue_eq (ds : List Char) : digitsValue ds = Nat.ofDigitChars 10 ds 0 := by
  unfold digitsValue Nat.ofDigitChars digitValue
  congr 1
  funext n c
  rw [Nat.mul_comm]

end Text

/-! ## Spellings -/

namespace TimeUnit

/-- A way of writing a number of a unit: decimal digits, and the letters of the unit in either case,
with white space at most before, between and after them. -/
structure Spelling (u : TimeUnit) where
  before : List Char
  digits : List Char
  gap : List Char
  letters : List Char
  after : List Char
  blank_before : ∀ c ∈ before, Text.isBlank c = true
  blank_gap : ∀ c ∈ gap, Text.isBlank c = true
  blank_after : ∀ c ∈ after, Text.isBlank c = true
  digits_ne_nil : digits ≠ []
  isDigit : ∀ c ∈ digits, c.isDigit = true
  lower : letters.map Char.toLower = u.name.toList

namespace Spelling

variable {u : TimeUnit}

/-- The number that is written. -/
def number (w : u.Spelling) : Nat := Nat.ofDigitChars 10 w.digits 0

/-- What is written, with the white space around it. -/
def text (w : u.Spelling) : List Char := w.before ++ (w.digits ++ (w.gap ++ w.letters)) ++ w.after

/-- A letter of a unit is neither white space nor a digit. -/
theorem plain (w : u.Spelling) : ∀ c ∈ w.letters, Text.isBlank c = false ∧ c.isDigit = false := by
  intro c hc
  have hname : c.toLower ∈ u.name.toList := w.lower ▸ List.mem_map_of_mem hc
  have hall : u.name.toList.all (fun x => !Text.isBlank x && !x.isDigit) = true := by
    cases u <;> rfl
  have hplain : ∀ x ∈ u.name.toList, Text.isBlank x = false ∧ x.isDigit = false := by
    intro x hx
    have hx := List.all_eq_true.mp hall x hx
    rwa [Bool.and_eq_true, Bool.not_eq_true', Bool.not_eq_true'] at hx
  by_contra hnot
  -- either of both has no other case, and would be in the name itself
  have hsame : c.toLower = c := by
    refine Text.toLower_eq_self ?_
    by_contra hneither
    rw [not_or, Bool.not_eq_true, Bool.not_eq_true] at hneither
    exact hnot hneither
  exact hnot (hplain c (hsame ▸ hname))

theorem letters_ne_nil (w : u.Spelling) : w.letters ≠ [] := by
  intro hnil
  have hlower := w.lower
  rw [hnil] at hlower
  cases u <;> cases hlower

/-- Trimming cuts off the white space around the number and the unit. -/
theorem trimChars_text (w : u.Spelling) :
    Text.trimChars w.text = w.digits ++ (w.gap ++ w.letters) := by
  refine Text.trimChars_eq_iff.mpr ⟨⟨w.before, w.after, rfl, w.blank_before, w.blank_after⟩, ?_, ?_⟩
  · intro c hc
    rw [List.head?_append_of_ne_nil _ w.digits_ne_nil] at hc
    exact Text.isBlank_of_isDigit (w.isDigit c (List.mem_of_mem_head? hc))
  · intro c hc
    rw [← List.append_assoc, List.getLast?_append_of_ne_nil _ w.letters_ne_nil] at hc
    exact (w.plain c (List.mem_of_mem_getLast? hc)).1

/-- The digits are what stands in front of the first character that is none. -/
theorem span_digits (w : u.Spelling) :
    (w.digits ++ (w.gap ++ w.letters)).takeWhile Char.isDigit = w.digits ∧
      (w.digits ++ (w.gap ++ w.letters)).dropWhile Char.isDigit = w.gap ++ w.letters := by
  have hhead : ∀ c rest, w.gap ++ w.letters = c :: rest → c.isDigit ≠ true := by
    intro c rest hcons hdigit
    have hmem : c ∈ w.gap ++ w.letters := hcons ▸ List.mem_cons_self
    rcases List.mem_append.mp hmem with hc | hc
    · have := w.blank_gap c hc
      rw [Text.isBlank_of_isDigit hdigit] at this
      cases this
    · rw [(w.plain c hc).2] at hdigit
      cases hdigit
  rw [List.takeWhile_append_of_pos w.isDigit, List.dropWhile_append_of_pos w.isDigit]
  cases hrest : w.gap ++ w.letters with
  | nil => exact ⟨List.append_nil _, rfl⟩
  | cons c rest =>
    have hc := hhead c rest hrest
    rw [List.takeWhile_cons_of_neg hc, List.dropWhile_cons_of_neg hc]
    exact ⟨List.append_nil _, rfl⟩

/-- Trimming the rest leaves the letters. -/
theorem trimChars_rest (w : u.Spelling) : Text.trimChars (w.gap ++ w.letters) = w.letters := by
  refine Text.trimChars_eq_iff.mpr ⟨⟨w.gap, [], (List.append_nil _).symm, w.blank_gap, nofun⟩, ?_, ?_⟩
  · exact fun c hc => (w.plain c (List.mem_of_mem_head? hc)).1
  · exact fun c hc => (w.plain c (List.mem_of_mem_getLast? hc)).1

/-- A number in decimal with a unit behind it. -/
def decimal (u : TimeUnit) (n : Nat) : u.Spelling where
  before := []
  digits := Nat.toDigits 10 n
  gap := []
  letters := u.name.toList
  after := []
  blank_before := nofun
  blank_gap := nofun
  blank_after := nofun
  digits_ne_nil := Nat.toDigits_ne_nil
  isDigit _ hc := Nat.isDigit_of_mem_toDigits (by decide) (by decide) hc
  lower := by cases u <;> rfl

theorem number_decimal (u : TimeUnit) (n : Nat) : (decimal u n).number = n :=
  Nat.ofDigitChars_ten_toDigits

theorem text_decimal (u : TimeUnit) (n : Nat) :
    (toString n ++ u.name).toList = (decimal u n).text := by
  rw [Nat.toString_eq_ofList_toDigits, String.toList_append, String.toList_ofList]
  exact (List.append_nil _).symm

end Spelling

end TimeUnit

namespace Duration

variable {s : String} {d : Duration}

/-! ## Reading -/

/-- A text is read if digits stand at its front, not too many, and a unit behind them. -/
theorem parse_eq_ok_iff :
    parse s = .ok d ↔
      (Text.trimChars s.toList).takeWhile Char.isDigit ≠ [] ∧
        Text.digitsValue ((Text.trimChars s.toList).takeWhile Char.isDigit) < Nat.pow 2 64 ∧
          ofUnit? (Text.digitsValue ((Text.trimChars s.toList).takeWhile Char.isDigit))
            (String.ofList ((Text.trimChars
              ((Text.trimChars s.toList).dropWhile Char.isDigit)).map Char.toLower)) = some d := by
  unfold parse
  generalize Text.trimChars s.toList = cs
  dsimp only
  constructor
  · intro h
    split_ifs at h with hcs hrest hnumber hlarge
    split at h
    · rename_i d' hunit
      obtain rfl := Except.ok.inj h
      refine ⟨fun hnil => hnumber (List.isEmpty_iff.mpr hnil), Nat.lt_of_not_le hlarge, hunit⟩
    · cases h
  · rintro ⟨hnumber, hlarge, hunit⟩
    have hcs : ¬ cs.isEmpty = true := by
      intro hnil
      rw [List.isEmpty_iff.mp hnil] at hnumber
      exact hnumber rfl
    -- no unit has no letters
    have hrest : ¬ (cs.dropWhile Char.isDigit).isEmpty = true := by
      intro hnil
      rw [List.isEmpty_iff.mp hnil] at hunit
      cases hunit
    rw [if_neg hcs, if_neg hrest, if_neg fun hnil => hnumber (List.isEmpty_iff.mp hnil),
      if_neg (Nat.not_le_of_lt hlarge), hunit]

/-- **What is spelled is read.** -/
theorem parse_spelling {u : TimeUnit} (w : u.Spelling) (hs : s.toList = w.text)
    (hsize : w.number < Nat.pow 2 64) : parse s = .ok (u.span w.number) := by
  obtain ⟨hdigits, hrest⟩ := w.span_digits
  have hlower : String.ofList (w.letters.map Char.toLower) = u.name := by
    rw [w.lower, String.ofList_toList]
  rw [parse_eq_ok_iff, hs, w.trimChars_text, hdigits, hrest, w.trimChars_rest, hlower,
    Text.digitsValue_eq]
  exact ⟨w.digits_ne_nil, hsize, ofUnit?_name w.number u⟩

/-- **What is read is spelled.** -/
theorem exists_spelling (h : parse s = .ok d) :
    ∃ (u : TimeUnit) (w : u.Spelling), s.toList = w.text ∧ w.number < Nat.pow 2 64 ∧
      d = u.span w.number := by
  obtain ⟨hnumber, hsize, hunit⟩ := parse_eq_ok_iff.mp h
  obtain ⟨u, hname, rfl⟩ := ofUnit?_eq_some_iff.mp hunit
  obtain ⟨before, after, hs, hbefore, hafter⟩ := (Text.trims_trimChars s.toList).around
  obtain ⟨gap, tail, hrest, hgap, htail⟩ :=
    (Text.trims_trimChars ((Text.trimChars s.toList).dropWhile Char.isDigit)).around
  have hlower := congrArg String.toList hname
  rw [String.toList_ofList] at hlower
  have hcut := List.takeWhile_append_dropWhile (p := Char.isDigit) (l := Text.trimChars s.toList)
  let w : u.Spelling :=
    { before, gap, after := tail ++ after
      digits := (Text.trimChars s.toList).takeWhile Char.isDigit
      letters := Text.trimChars ((Text.trimChars s.toList).dropWhile Char.isDigit)
      blank_before := hbefore
      blank_gap := hgap
      blank_after := fun c hc => (List.mem_append.mp hc).elim (htail c) (hafter c)
      digits_ne_nil := hnumber
      isDigit := fun c hc => List.mem_takeWhile_imp hc
      lower := hlower }
  rw [Text.digitsValue_eq] at hsize ⊢
  refine ⟨u, w, ?_, hsize, rfl⟩
  calc s.toList
      = before ++ Text.trimChars s.toList ++ after := hs
    _ = before ++ ((Text.trimChars s.toList).takeWhile Char.isDigit ++ (gap ++ w.letters ++ tail))
          ++ after := by rw [← hrest, hcut]
    _ = w.text := by simp only [TimeUnit.Spelling.text, List.append_assoc, w]

/-- **Durations are read by their grammar.** A text is read just if it spells a number of 64 bits and
a unit, and it is read as so many of the unit. Spans grow with their numbers, none is cut down to what
64 bits hold but by counting as the most of it, and a number in decimal with a unit behind it is read
back. -/
theorem parse_by_grammar :
    (∀ s d, parse s = .ok d ↔
        ∃ (u : TimeUnit) (w : u.Spelling), s.toList = w.text ∧ w.number < Nat.pow 2 64 ∧
          d = u.span w.number) ∧
      (∀ (u : TimeUnit) n n', n ≤ n' → (u.span n).millis ≤ (u.span n').millis) ∧
      (∀ (u : TimeUnit) n, n < Nat.pow 2 64 →
        (u.span n).secs ≤ maxSecs ∧ n ≤ (u.span n).millis) ∧
      ∀ (u : TimeUnit) n, n < Nat.pow 2 64 → parse (toString n ++ u.name) = .ok (u.span n) := by
  refine ⟨fun s d => ⟨exists_spelling, ?_⟩, fun u n n' h => TimeUnit.span_mono h u,
    fun u n h => TimeUnit.span_bounds h u, fun u n h => ?_⟩
  · rintro ⟨u, w, hs, hsize, rfl⟩
    exact parse_spelling w hs hsize
  · have hn := TimeUnit.Spelling.number_decimal u n
    rw [parse_spelling _ (TimeUnit.Spelling.text_decimal u n) (hn.symm ▸ h), hn]

/-- Leading zeros, a capital and a space of another alphabet; and the most hours that can be written,
which count as less than they are. -/
theorem parse_by_grammar_longest :
    parse " 007\u3000mS" = .ok ⟨7⟩ ∧
      parse (toString maxSecs ++ "h") = .ok ⟨1000 * maxSecs⟩ ∧
      (TimeUnit.hour.span 1).millis ≤ (TimeUnit.hour.span maxSecs).millis ∧
      (TimeUnit.hour.span maxSecs).secs ≤ maxSecs := by
  obtain ⟨hgrammar, hmono, hbounds, hdecimal⟩ := parse_by_grammar
  let w : TimeUnit.millisecond.Spelling :=
    { before := [' '], digits := ['0', '0', '7'], gap := ['\u3000'], letters := ['m', 'S'], after := []
      blank_before := List.all_eq_true.mp rfl
      blank_gap := List.all_eq_true.mp rfl
      blank_after := nofun
      digits_ne_nil := nofun
      isDigit := List.all_eq_true.mp rfl
      lower := by decide }
  exact ⟨(hgrammar _ _).mpr ⟨.millisecond, w, rfl, by decide, rfl⟩,
    hdecimal .hour maxSecs (by decide), hmono .hour 1 maxSecs (by decide),
    (hbounds .hour maxSecs (by decide)).1⟩

end Duration

end ApprovalFlow
