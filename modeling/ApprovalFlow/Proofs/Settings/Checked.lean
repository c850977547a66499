import ApprovalFlow.Error
import ApprovalFlow.Proofs.Text.Blank
import ApprovalFlow.Settings.Checked

/-!
# Checking settings

Written settings have to keep five rules, and they are tried one after the other. The rules are stated
here about what is written, without the order and without the checks: an interval can be compared with
a timeout only if both are spans of time, and so the rule on the two says something about spans alone.

- `Settings.Rule`, `WrittenSettings.Keeps`: the rules, and what it is to keep one.
- `WrittenSettings.KeepsBefore`: the rules before one are kept; `WrittenSettings.KeepsBefore.next`: one
  more.
- `WrittenSettings.Denotes`: the settings that written ones stand for.
- `SettingsError.Fits`: what a refusal says is so. `SettingsError.not_keeps_of_fits`: then its rule is
  broken.
- `SettingsError.IsFirst`: what a refusal says is so, and the rules before its own are kept.
- `Settings.ofWritten_eq_ok_iff`: **settings are accepted just if they keep every rule.**
- `SettingsError.IsFirst.unique`: settings have one first fault.
- `Settings.ofWritten_cases`: every check in turn.
- `Settings.checked_exactly`: acceptance, refusal and the wording.
-/

namespace ApprovalFlow

/-! ## Rules -/

/-- The rules for written settings. -/
inductive Settings.Rule where
  | expression
  | span (key : DurationKey)
  | comparison
  | eventBuffer
  deriving DecidableEq, Repr

namespace Settings.Rule

/-- The place of a rule among those that are tried. -/
def place : Rule → Nat
  | .expression => 0
  | .span .timeout => 1
  | .span .pollInterval => 2
  | .comparison => 3
  | .eventBuffer => 4

/-- The setting that a rule is about, with its section. -/
def setting : Rule → String
  | .expression => "[compiler].default_condition_expression"
  | .span key => key.name
  | .comparison => DurationKey.pollInterval.name
  | .eventBuffer => "[dispatch].event_buffer"

theorem eq_of_place_eq {r r' : Rule} (h : r.place = r'.place) : r = r' := by
  match r, r', h with
  | .expression, .expression, _ => rfl
  | .span .timeout, .span .timeout, _ => rfl
  | .span .pollInterval, .span .pollInterval, _ => rfl
  | .comparison, .comparison, _ => rfl
  | .eventBuffer, .eventBuffer, _ => rfl

end Settings.Rule

/-- The text of a setting that is a span of time. -/
def WrittenProxy.span (w : WrittenProxy) : DurationKey → String
  | .timeout => w.timeout
  | .pollInterval => w.pollInterval

/-- The span of time of a setting. -/
def AutoPassOptions.span (o : AutoPassOptions) : DurationKey → Duration
  | .timeout => o.timeout
  | .pollInterval => o.pollInterval

namespace WrittenSettings

/-- Do written settings keep the rule? -/
def Keeps (w : WrittenSettings) : Settings.Rule → Prop
  | .expression => Text.NonBlank w.compiler.defaultExpression
  | .span key => ∃ d, Duration.parse (w.proxy.span key) = .ok d ∧ 0 < d.millis
  | .comparison => ∀ timeout pollInterval, Duration.parse w.proxy.timeout = .ok timeout →
      Duration.parse w.proxy.pollInterval = .ok pollInterval → pollInterval.millis < timeout.millis
  | .eventBuffer => 1 ≤ w.dispatch.eventBuffer

/-- Are the rules before this one kept? -/
def KeepsBefore (w : WrittenSettings) (r : Settings.Rule) : Prop :=
  ∀ r' : Settings.Rule, r'.place < r.place → w.Keeps r'

theorem KeepsBefore.next {w : WrittenSettings} {r r' : Settings.Rule}
    (h : w.KeepsBefore r) (hr : w.Keeps r) (hplace : r'.place = r.place + 1) : w.KeepsBefore r' := by
  intro q hq
  rcases Nat.lt_or_eq_of_le (show q.place ≤ r.place by omega) with hlt | heq
  · exact h q hlt
  · exact Settings.Rule.eq_of_place_eq heq ▸ hr

/-- Do written settings stand for these? The expression is trimmed and spans of time are read; nothing
else is changed. -/
structure Denotes (w : WrittenSettings) (s : Settings) : Prop where
  expression : Text.Trims w.compiler.defaultExpression.toList s.compiler.defaultExpression.toList
  unknownNodes : s.compiler.unknownNodes = w.compiler.unknownNodes
  span : ∀ key, Duration.parse (w.proxy.span key) = .ok (s.autoPass.span key)
  comment : s.autoPass.comment = w.proxy.comment
  passComment : s.dispatch.passComment = w.dispatch.passComment
  rejectComment : s.dispatch.rejectComment = w.dispatch.rejectComment
  cleanupComment : s.dispatch.cleanupComment = w.dispatch.cleanupComment
  eventBuffer : s.dispatch.eventBuffer = w.dispatch.eventBuffer

end WrittenSettings

/-! ## Refusals -/

namespace SettingsError

/-- The rule that settings are refused by. -/
def rule : SettingsError → Settings.Rule
  | .blankExpression => .expression
  | .badDuration key _ => .span key
  | .zeroDuration key => .span key
  | .pollNotShorter _ _ => .comparison
  | .noEventBuffer => .eventBuffer

/-- Is what a refusal says so? -/
def Fits (w : WrittenSettings) : SettingsError → Prop
  | .blankExpression => ¬ Text.NonBlank w.compiler.defaultExpression
  | .badDuration key cause => Duration.parse (w.proxy.span key) = .error cause
  | .zeroDuration key => Duration.parse (w.proxy.span key) = .ok ⟨0⟩
  | .pollNotShorter pollInterval timeout =>
    pollInterval = w.proxy.pollInterval ∧ timeout = w.proxy.timeout ∧
      ∃ d d', Duration.parse timeout = .ok d ∧ Duration.parse pollInterval = .ok d' ∧
        d.millis ≤ d'.millis
  | .noEventBuffer => w.dispatch.eventBuffer = 0

/-- Is a refusal about the first rule that is broken? -/
structure IsFirst (w : WrittenSettings) (e : SettingsError) : Prop where
  broken : ¬ w.Keeps e.rule
  before : w.KeepsBefore e.rule
  fits : e.Fits w

variable {w : WrittenSettings} {e e' : SettingsError}

/-- What fits has its rule broken. -/
theorem not_keeps_of_fits (h : e.Fits w) : ¬ w.Keeps e.rule := by
  cases e with
  | blankExpression => exact h
  | badDuration key cause =>
    rintro ⟨d, hd, -⟩
    cases hd.symm.trans h
  | zeroDuration key =>
    rintro ⟨d, hd, hpos⟩
    cases hd.symm.trans h
    exact Nat.lt_irrefl 0 hpos
  | pollNotShorter pollInterval timeout =>
    obtain ⟨rfl, rfl, d, d', hd, hd', hle⟩ := h
    exact fun hkeeps => Nat.not_lt_of_le hle (hkeeps d d' hd hd')
  | noEventBuffer =>
    intro hkeeps
    have hzero : w.dispatch.eventBuffer = 0 := h
    have hone : 1 ≤ w.dispatch.eventBuffer := hkeeps
    omega

/-- A broken rule has one refusal that fits. -/
theorem eq_of_fits (hrule : e.rule = e'.rule) (h : e.Fits w) (h' : e'.Fits w) : e = e' := by
  cases e with
  | blankExpression => cases e' <;> first | rfl | cases hrule
  | badDuration key cause =>
    cases e' with
    | badDuration key' cause' =>
      cases hrule
      cases h.symm.trans h'
      rfl
    | zeroDuration key' =>
      cases hrule
      cases h.symm.trans h'
    | _ => cases hrule
  | zeroDuration key =>
    cases e' with
    | badDuration key' cause' =>
      cases hrule
      cases h.symm.trans h'
    | zeroDuration key' =>
      cases hrule
      rfl
    | _ => cases hrule
  | pollNotShorter pollInterval timeout =>
    cases e' with
    | pollNotShorter pollInterval' timeout' => rw [h.1, h.2.1, h'.1, h'.2.1]
    | _ => cases hrule
  | noEventBuffer => cases e' <;> first | rfl | cases hrule

/-- **Settings have one first fault.** -/
theorem IsFirst.unique (h : e.IsFirst w) (h' : e'.IsFirst w) : e = e' := by
  have hplace : e.rule.place = e'.rule.place := by
    rcases Nat.lt_trichotomy e.rule.place e'.rule.place with hlt | heq | hlt
    · exact absurd (h'.before _ hlt) h.broken
    · exact heq
    · exact absurd (h.before _ hlt) h'.broken
  exact eq_of_fits (Settings.Rule.eq_of_place_eq hplace) h.fits h'.fits

/-- The wording names the setting that the broken rule is about. -/
theorem exists_message (e : SettingsError) :
    ∃ rest, (FlowError.settings e).message? =
      some ("Configuration error: " ++ (e.rule.setting ++ rest)) := by
  cases e with
  | blankExpression => exact ⟨" must not be empty", rfl⟩
  | badDuration key cause =>
    exact ⟨": " ++ cause.message, congrArg (fun m => some ("Configuration error: " ++ m))
      (String.append_assoc ..)⟩
  | zeroDuration key => exact ⟨" must be greater than zero", rfl⟩
  | pollNotShorter pollInterval timeout =>
    have hname : "[proxy].poll_interval (" = DurationKey.pollInterval.name ++ " (" := rfl
    refine ⟨" (" ++ (pollInterval ++ (") must be shorter than [proxy].timeout (" ++ (timeout ++ ")"))),
      congrArg (fun m => some ("Configuration error: " ++ m)) ?_⟩
    show "[proxy].poll_interval (" ++ pollInterval ++ _ ++ timeout ++ ")" =
      DurationKey.pollInterval.name ++ _
    rw [hname]
    simp only [String.append_assoc]
  | noEventBuffer => exact ⟨" must be >= 1 (got 0)", rfl⟩

end SettingsError

/-! ## The checks, one after the other -/

/-- What is wrong first is what is wrong where everything before is right. -/
theorem SettingsError.Fits.isFirst {w : WrittenSettings} {e : SettingsError} {r : Settings.Rule}
    (h : e.Fits w) (hrule : e.rule = r) (hbefore : w.KeepsBefore r) : e.IsFirst w :=
  ⟨SettingsError.not_keeps_of_fits h, hrule ▸ hbefore, h⟩

namespace Settings

variable (w : WrittenSettings)

theorem checkCompiler_cases :
    ¬ w.Keeps .expression ∧ checkCompiler w.compiler = .error .blankExpression ∨
      w.Keeps .expression ∧ checkCompiler w.compiler =
        .ok ⟨Text.trim w.compiler.defaultExpression, w.compiler.unknownNodes⟩ := by
  by_cases hempty : (Text.trim w.compiler.defaultExpression).isEmpty = true
  · exact .inl ⟨Text.isEmpty_trim_iff.mp hempty, if_pos hempty⟩
  · refine .inr ⟨?_, if_neg hempty⟩
    by_contra hblank
    exact hempty (Text.isEmpty_trim_iff.mpr hblank)

/-- One setting that is a span of time, whichever it is. -/
theorem checkDuration_cases (key : DurationKey) :
    (∃ e : SettingsError, e.Fits w ∧ e.rule = .span key ∧
        checkDuration key (w.proxy.span key) = .error e) ∨
      ∃ d, Duration.parse (w.proxy.span key) = .ok d ∧ 0 < d.millis ∧
        checkDuration key (w.proxy.span key) = .ok d := by
  unfold checkDuration
  cases hparse : Duration.parse (w.proxy.span key) with
  | error cause => exact .inl ⟨.badDuration key cause, hparse, rfl, rfl⟩
  | ok d =>
    by_cases hzero : d.millis = 0
    · refine .inl ⟨.zeroDuration key, ?_, rfl, if_pos hzero⟩
      rw [show d = ⟨0⟩ from congrArg Duration.mk hzero] at hparse
      exact hparse
    · exact .inr ⟨d, rfl, Nat.pos_of_ne_zero hzero, if_neg hzero⟩

/-- The spans of time and their comparison, where the expression is right. -/
theorem checkProxy_cases (hexpression : w.Keeps .expression) :
    (∃ e : SettingsError, e.IsFirst w ∧ checkProxy w.proxy = .error e) ∨
      w.KeepsBefore .eventBuffer ∧ ∃ o, checkProxy w.proxy = .ok o ∧
        (∀ key, Duration.parse (w.proxy.span key) = .ok (o.span key)) ∧
          o.comment = w.proxy.comment := by
  have hstart : w.KeepsBefore .expression := nofun
  have hfirst : w.KeepsBefore (.span .timeout) := hstart.next hexpression rfl
  unfold checkProxy
  rcases checkDuration_cases w .timeout with ⟨e, he, hrule, hcheck⟩ | ⟨d, hd, hpos, hcheck⟩
  · refine .inl ⟨e, he.isFirst hrule hfirst, ?_⟩
    rw [show checkDuration .timeout w.proxy.timeout = .error e from hcheck]
    rfl
  have hsecond : w.KeepsBefore (.span .pollInterval) := hfirst.next ⟨d, hd, hpos⟩ rfl
  rw [show checkDuration .timeout w.proxy.timeout = .ok d from hcheck]
  rcases checkDuration_cases w .pollInterval with ⟨e, he, hrule, hcheck⟩ | ⟨d', hd', hpos', hcheck⟩
  · refine .inl ⟨e, he.isFirst hrule hsecond, ?_⟩
    rw [show checkDuration .pollInterval w.proxy.pollInterval = .error e from hcheck]
    rfl
  have hthird : w.KeepsBefore .comparison := hsecond.next ⟨d', hd', hpos'⟩ rfl
  rw [show checkDuration .pollInterval w.proxy.pollInterval = .ok d' from hcheck]
  by_cases hle : d.millis ≤ d'.millis
  · have he : (SettingsError.pollNotShorter w.proxy.pollInterval w.proxy.timeout).Fits w :=
      ⟨rfl, rfl, d, d', hd, hd', hle⟩
    exact .inl ⟨_, he.isFirst rfl hthird, if_pos hle⟩
  · have hkeeps : w.Keeps .comparison := by
      intro timeout pollInterval htimeout hpollInterval
      cases htimeout.symm.trans hd
      cases hpollInterval.symm.trans hd'
      omega
    refine .inr ⟨hthird.next hkeeps rfl, _, if_neg hle, fun key => ?_, rfl⟩
    cases key with
    | timeout => exact hd
    | pollInterval => exact hd'

theorem checkDispatch_cases :
    w.dispatch.eventBuffer = 0 ∧ checkDispatch w.dispatch = .error .noEventBuffer ∨
      w.Keeps .eventBuffer ∧ checkDispatch w.dispatch =
        .ok ⟨w.dispatch.passComment, w.dispatch.rejectComment, w.dispatch.cleanupComment,
          w.dispatch.eventBuffer⟩ := by
  by_cases hzero : w.dispatch.eventBuffer = 0
  · exact .inl ⟨hzero, if_pos hzero⟩
  · exact .inr ⟨Nat.one_le_iff_ne_zero.mpr hzero, if_neg hzero⟩

/-- **Every check in turn:** settings have a first fault and are refused with it, or they keep all
rules and are accepted as what they stand for. -/
theorem ofWritten_cases :
    (∃ e : SettingsError, e.IsFirst w ∧ ofWritten w = .error e) ∨
      ∃ s : Settings, (∀ r, w.Keeps r) ∧ w.Denotes s ∧ ofWritten w = .ok s := by
  unfold ofWritten
  rcases checkCompiler_cases w with ⟨hblank, hcheck⟩ | ⟨hexpression, hcheck⟩
  · have he : SettingsError.blankExpression.Fits w := hblank
    refine .inl ⟨_, he.isFirst rfl nofun, ?_⟩
    rw [hcheck]
    rfl
  rw [hcheck]
  rcases checkProxy_cases w hexpression with ⟨e, he, hcheck⟩ | ⟨hbefore, o, hcheck, hspan, hcomment⟩
  · refine .inl ⟨e, he, ?_⟩
    rw [hcheck]
    rfl
  rw [hcheck]
  rcases checkDispatch_cases w with ⟨hzero, hcheck⟩ | ⟨hbuffer, hcheck⟩
  · have he : SettingsError.noEventBuffer.Fits w := hzero
    refine .inl ⟨_, he.isFirst rfl hbefore, ?_⟩
    rw [hcheck]
    rfl
  rw [hcheck]
  let s : Settings :=
    ⟨⟨Text.trim w.compiler.defaultExpression, w.compiler.unknownNodes⟩, o,
      ⟨w.dispatch.passComment, w.dispatch.rejectComment, w.dispatch.cleanupComment,
        w.dispatch.eventBuffer⟩⟩
  have hdenotes : w.Denotes s :=
    ⟨Text.trims_trim _, rfl, hspan, hcomment, rfl, rfl, rfl, rfl⟩
  refine .inr ⟨s, fun r => ?_, hdenotes, rfl⟩
  -- every rule but the last is before the last
  by_cases hr : r = .eventBuffer
  · exact hr ▸ hbuffer
  · refine hbefore r ?_
    match r with
    | .expression | .span .timeout | .span .pollInterval | .comparison => decide
    | .eventBuffer => exact absurd rfl hr

/-! ## Exactly -/

variable {w : WrittenSettings} {s s' : Settings} {e : SettingsError}

theorem defaultExpression_of_denotes (h : w.Denotes s) :
    s.compiler.defaultExpression = Text.trim w.compiler.defaultExpression := by
  unfold Text.trim
  rw [Text.trimChars_eq_iff.mpr h.expression, String.ofList_toList]

/-- Written settings stand for one thing. -/
theorem unique_of_denotes (h : w.Denotes s) (h' : w.Denotes s') : s = s' := by
  have hexpression : s.compiler.defaultExpression = s'.compiler.defaultExpression :=
    (defaultExpression_of_denotes h).trans (defaultExpression_of_denotes h').symm
  have hspan : ∀ key, s.autoPass.span key = s'.autoPass.span key := fun key =>
    Except.ok.inj ((h.span key).symm.trans (h'.span key))
  obtain ⟨⟨_, _⟩, ⟨_, _, _⟩, ⟨_, _, _, _⟩⟩ := s
  obtain ⟨⟨_, _⟩, ⟨_, _, _⟩, ⟨_, _, _, _⟩⟩ := s'
  cases hexpression
  cases h.unknownNodes.trans h'.unknownNodes.symm
  cases hspan .timeout
  cases hspan .pollInterval
  cases h.comment.trans h'.comment.symm
  cases h.passComment.trans h'.passComment.symm
  cases h.rejectComment.trans h'.rejectComment.symm
  cases h.cleanupComment.trans h'.cleanupComment.symm
  cases h.eventBuffer.trans h'.eventBuffer.symm
  rfl

/-- **Settings are accepted just if they keep every rule**, and as what they stand for. -/
theorem ofWritten_eq_ok_iff : ofWritten w = .ok s ↔ (∀ r, w.Keeps r) ∧ w.Denotes s := by
  rcases ofWritten_cases w with ⟨e, he, hw⟩ | ⟨s', hkeeps, hdenotes, hw⟩
  · rw [hw]
    exact ⟨nofun, fun h => absurd (h.1 _) he.broken⟩
  · rw [hw, Except.ok.injEq]
    constructor
    · rintro rfl
      exact ⟨hkeeps, hdenotes⟩
    · exact fun h => unique_of_denotes hdenotes h.2

/-- **Settings are refused with their first fault.** -/
theorem ofWritten_eq_error_iff : ofWritten w = .error e ↔ e.IsFirst w := by
  rcases ofWritten_cases w with ⟨e', he', hw⟩ | ⟨s, hkeeps, -, hw⟩
  · rw [hw, Except.error.injEq]
    constructor
    · rintro rfl
      exact he'
    · exact he'.unique
  · rw [hw]
    exact ⟨nofun, fun h => absurd (hkeeps _) h.broken⟩

/-- **Settings are checked soundly, completely and in order.** They are accepted just if every rule is
kept, with the expression trimmed, the spans of time read and all else unchanged; they are refused
just with what is wrong under the first rule that is broken; and a refusal is worded as an error of
the configuration that names the setting. -/
theorem checked_exactly (w : WrittenSettings) :
    (∀ s, ofWritten w = .ok s ↔ (∀ r, w.Keeps r) ∧ w.Denotes s) ∧
      (∀ e, ofWritten w = .error e ↔ e.IsFirst w) ∧
      ((∀ r, w.Keeps r) ↔ ∃ s, ofWritten w = .ok s) ∧
      ∀ e : SettingsError, ∃ rest, (FlowError.settings e).message? =
        some ("Configuration error: " ++ (e.rule.setting ++ rest)) := by
  refine ⟨fun s => ofWritten_eq_ok_iff, fun e => ofWritten_eq_error_iff, ⟨fun hkeeps => ?_, ?_⟩,
    SettingsError.exists_message⟩
  · rcases ofWritten_cases w with ⟨e, he, -⟩ | ⟨s, -, -, hw⟩
    · exact absurd (hkeeps _) he.broken
    · exact ⟨s, hw⟩
  · rintro ⟨s, hs⟩
    exact (ofWritten_eq_ok_iff.mp hs).1

/-- A minute is no more than sixty thousand milliseconds, and nothing is said of the buffer. -/
example : ofWritten
      { proxy := { timeout := "1m", pollInterval := "60000ms" }, dispatch := { eventBuffer := 0 } } =
    .error (.pollNotShorter "60000ms" "1m") := by rfl

end Settings

end ApprovalFlow
