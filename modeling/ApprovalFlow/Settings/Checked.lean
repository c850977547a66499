import ApprovalFlow.Settings.Written
import ApprovalFlow.Text.Blank

/-!
# Checked settings

- `SettingsError`: what can be wrong with written settings, and the wording.
- `Settings.ofWritten`: the settings that written ones denote, or the first thing wrong with them.
-/

namespace ApprovalFlow

/-- A setting that is a span of time. -/
inductive DurationKey where
  | timeout
  | pollInterval
  deriving DecidableEq, Repr

/-- The name of the setting, with its section. -/
def DurationKey.name : DurationKey → String
  | .timeout => "[proxy].timeout"
  | .pollInterval => "[proxy].poll_interval"

/-- What is wrong with written settings. -/
inductive SettingsError where
  /-- a default expression of nothing but white space -/
  | blankExpression
  /-- a text that denotes no span of time -/
  | badDuration (key : DurationKey) (cause : DurationError)
  /-- a span of no length -/
  | zeroDuration (key : DurationKey)
  /-- looks at a node so far apart that at most one falls before the timeout -/
  | pollNotShorter (pollInterval timeout : String)
  /-- no room for an event -/
  | noEventBuffer
  deriving DecidableEq, Repr

/-- The wording of a refusal. -/
def SettingsError.message : SettingsError → String
  | .blankExpression => "[compiler].default_condition_expression must not be empty"
  | .badDuration key cause => key.name ++ ": " ++ cause.message
  | .zeroDuration key => key.name ++ " must be greater than zero"
  | .pollNotShorter pollInterval timeout =>
    "[proxy].poll_interval (" ++ pollInterval ++ ") must be shorter than [proxy].timeout ("
      ++ timeout ++ ")"
  | .noEventBuffer => "[dispatch].event_buffer must be >= 1 (got 0)"

namespace Settings

/-- The default expression without the white space around it, unless that leaves nothing. -/
def checkCompiler (w : WrittenCompiler) : Except SettingsError CompilerOptions :=
  let expression := Text.trim w.defaultExpression
  if expression.isEmpty then .error .blankExpression
  else .ok ⟨expression, w.unknownNodes⟩

/-- The span that a setting denotes, unless it has no length. -/
def checkDuration (key : DurationKey) (text : String) : Except SettingsError Duration :=
  match Duration.parse text with
  | .error cause => .error (.badDuration key cause)
  | .ok d => if d.millis = 0 then .error (.zeroDuration key) else .ok d

/-- The two spans, unless the interval is as long as the timeout. -/
def checkProxy (w : WrittenProxy) : Except SettingsError AutoPassOptions := do
  let timeout ← checkDuration .timeout w.timeout
  let pollInterval ← checkDuration .pollInterval w.pollInterval
  if timeout.millis ≤ pollInterval.millis then
    .error (.pollNotShorter w.pollInterval w.timeout)
  else .ok ⟨timeout, pollInterval, w.comment⟩

/-- The comments, if there is room for an event. -/
def checkDispatch (w : WrittenDispatch) : Except SettingsError DispatchOptions :=
  if w.eventBuffer = 0 then .error .noEventBuffer
  else .ok ⟨w.passComment, w.rejectComment, w.cleanupComment, w.eventBuffer⟩

/-- The settings that written ones denote. What is wrong first is reported: the expression, the
timeout, the interval, the two together, the buffer. -/
def ofWritten (w : WrittenSettings) : Except SettingsError Settings := do
  let compiler ← checkCompiler w.compiler
  let autoPass ← checkProxy w.proxy
  let dispatch ← checkDispatch w.dispatch
  .ok ⟨compiler, autoPass, dispatch⟩

end Settings

end ApprovalFlow
