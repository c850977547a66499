import ApprovalFlow.Text.Blank
import Mathlib.Data.List.TakeWhile

/-!
# White space cut off

Trimming drops white space at the front, turns the text around, drops white space again and turns it
back. What comes out can be said without any of this: the text is what was trimmed off, the rest, and
what was trimmed off, and the rest neither begins nor ends in white space. That determines the rest,
so whoever takes a text apart by hand has found what trimming leaves.

- `Text.NonBlank`: is there anything but white space in a text?
- `Text.Trims`: what is left without the white space at both ends, as a relation.
- `Text.trimChars_eq_iff`: **trimming leaves just that.**
- `Text.isEmpty_trim_iff`, `Text.nonBlank_trim`: nothing is left just of a text without anything else
  in it.
-/

namespace ApprovalFlow.Text

/-- Does the text have a character that is no white space? -/
def NonBlank (s : String) : Prop := ∃ c ∈ s.toList, isBlank c = false

/-- Does neither end of the list have white space? -/
structure Bare (cs : List Char) : Prop where
  head : ∀ c ∈ cs.head?, isBlank c = false
  last : ∀ c ∈ cs.getLast?, isBlank c = false

/-- Is `core` what is left of `cs` without the white space at both ends? -/
structure Trims (cs core : List Char) : Prop where
  around : ∃ before after, cs = before ++ core ++ after ∧ (∀ c ∈ before, isBlank c = true) ∧
    ∀ c ∈ after, isBlank c = true
  bare : Bare core

variable {cs core before rest : List Char} {s : String}

/-- No printable character of ASCII is white space. -/
theorem toNat_of_isBlank {c : Char} (h : isBlank c = true) : c.toNat ≤ 32 ∨ 127 < c.toNat := by
  simp only [isBlank, blankRanges, List.any_cons, List.any_nil, Bool.or_eq_true, Bool.and_eq_true,
    decide_eq_true_eq, Bool.or_false] at h
  omega

/-! ## One end -/

/-- What is dropped is white space. -/
theorem exists_dropBlank (cs : List Char) :
    ∃ before, cs = before ++ dropBlank cs ∧ ∀ c ∈ before, isBlank c = true :=
  ⟨cs.takeWhile isBlank, List.takeWhile_append_dropWhile.symm, fun _ hc =>
    List.mem_takeWhile_imp hc⟩

/-- What is left does not begin with white space. -/
theorem head_dropBlank (cs : List Char) : ∀ c ∈ (dropBlank cs).head?, isBlank c = false := by
  intro c hc
  have h := List.head?_dropWhile_not isBlank cs
  rw [show (cs.dropWhile isBlank).head? = some c from hc] at h
  exact h

/-- White space in front of a list that begins with something else is all that is dropped. -/
theorem dropBlank_append (hbefore : ∀ c ∈ before, isBlank c = true)
    (hrest : ∀ c ∈ rest.head?, isBlank c = false) : dropBlank (before ++ rest) = rest := by
  unfold dropBlank
  rw [List.dropWhile_append_of_pos hbefore]
  cases rest with
  | nil => rfl
  | cons c rest => exact List.dropWhile_cons_of_neg (by simp [hrest c rfl])

theorem dropBlank_eq_nil_iff : dropBlank cs = [] ↔ ∀ c ∈ cs, isBlank c = true :=
  List.dropWhile_eq_nil_iff

/-! ## Both ends -/

theorem trims_trimChars (cs : List Char) : Trims cs (trimChars cs) := by
  obtain ⟨before, hcs, hbefore⟩ := exists_dropBlank cs
  obtain ⟨after, hback, hafter⟩ := exists_dropBlank (dropBlank cs).reverse
  -- turned back, the white space dropped last stands at the end
  have hfront : dropBlank cs = trimChars cs ++ after.reverse := by
    rw [← (dropBlank cs).reverse_reverse, hback, List.reverse_append]
    rfl
  constructor
  case around =>
    refine ⟨before, after.reverse, ?_, hbefore, fun c hc => hafter c (List.mem_reverse.mp hc)⟩
    rw [List.append_assoc, ← hfront]
    exact hcs
  case bare =>
    constructor
    case head =>
      intro c hc
      refine head_dropBlank cs c ?_
      rw [hfront, List.head?_append, Option.mem_def.mp hc]
      rfl
    case last =>
      intro c hc
      unfold trimChars at hc
      rw [List.getLast?_reverse] at hc
      exact head_dropBlank _ c hc

/-- **Trimming leaves what is between the white space at both ends.** -/
theorem trimChars_eq_iff : trimChars cs = core ↔ Trims cs core := by
  constructor
  · rintro rfl
    exact trims_trimChars cs
  · rintro ⟨⟨before, after, rfl, hbefore, hafter⟩, hhead, hlast⟩
    cases core with
    | nil =>
      have hnil : dropBlank (before ++ [] ++ after) = [] := by
        rw [dropBlank_eq_nil_iff, List.append_nil]
        exact fun c hc => (List.mem_append.mp hc).elim (hbefore c) (hafter c)
      unfold trimChars
      rw [hnil]
      rfl
    | cons c core =>
      have hfront : dropBlank (before ++ c :: core ++ after) = c :: core ++ after := by
        rw [List.append_assoc]
        exact dropBlank_append hbefore hhead
      have hback : dropBlank (after.reverse ++ (c :: core).reverse) = (c :: core).reverse :=
        dropBlank_append (fun x hx => hafter x (List.mem_reverse.mp hx))
          (by rw [List.head?_reverse]; exact hlast)
      unfold trimChars
      rw [hfront, List.reverse_append, hback, List.reverse_reverse]

theorem trims_trim (s : String) : Trims s.toList (trim s).toList := by
  unfold trim
  rw [String.toList_ofList]
  exact trims_trimChars s.toList

/-! ## Nothing but white space -/

theorem isAllBlank_eq_false_iff : isAllBlank s = false ↔ NonBlank s := by
  unfold isAllBlank NonBlank
  rw [List.all_eq_false]
  simp only [Bool.not_eq_true]

theorem not_nonBlank_iff : ¬ NonBlank s ↔ isAllBlank s = true := by
  rw [← isAllBlank_eq_false_iff, Bool.not_eq_false]

/-- Nothing is left just of white space. -/
theorem Trims.eq_nil_iff (h : Trims cs core) : core = [] ↔ ∀ c ∈ cs, isBlank c = true := by
  obtain ⟨⟨before, after, rfl, hbefore, hafter⟩, hbare⟩ := h
  constructor
  · rintro rfl c hc
    rw [List.append_nil] at hc
    exact (List.mem_append.mp hc).elim (hbefore c) (hafter c)
  · intro hall
    cases core with
    | nil => rfl
    | cons c core =>
      have hblank : isBlank c = true := hall c (by simp)
      rw [hbare.head c rfl] at hblank
      cases hblank

theorem isEmpty_trim_iff : (trim s).isEmpty = true ↔ ¬ NonBlank s := by
  rw [not_nonBlank_iff, String.isEmpty_iff, ← String.toList_eq_nil_iff, (trims_trim s).eq_nil_iff]
  unfold isAllBlank
  rw [List.all_eq_true]

/-- What is left of a text with something else in it has something else in it. -/
theorem nonBlank_trim (h : NonBlank s) : NonBlank (trim s) := by
  have hne : (trim s).toList ≠ [] := fun hnil =>
    absurd h (isEmpty_trim_iff.mp (String.isEmpty_iff.mpr (String.toList_eq_nil_iff.mp hnil)))
  cases hcs : (trim s).toList with
  | nil => exact absurd hcs hne
  | cons c cs =>
    refine ⟨c, by simp [hcs], (trims_trim s).bare.head c ?_⟩
    rw [hcs]
    rfl

end ApprovalFlow.Text
