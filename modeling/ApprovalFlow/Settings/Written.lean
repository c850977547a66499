import ApprovalFlow.Json.Record
import ApprovalFlow.Settings.Basic

/-!
# Written settings

Settings as a file gives them, before they are checked: durations are texts still. Every section
and every key may be left out, and no other may be given.

- `WrittenSettings`: the three sections.
- `Dialect`: where two kinds of files differ in what they take for a record or a choice.
- `WrittenSettings.read`: written settings from a document.
-/

namespace ApprovalFlow

/-- The section on diagrams. -/
structure WrittenCompiler where
  defaultExpression : String := ({} : CompilerOptions).defaultExpression
  unknownNodes : UnknownNodePolicy := ({} : CompilerOptions).unknownNodes
  deriving DecidableEq, Repr

/-- The section on system nodes. -/
structure WrittenProxy where
  timeout : String := "10s"
  pollInterval : String := "500ms"
  comment : String := ({} : AutoPassOptions).comment
  deriving DecidableEq, Repr

/-- The section on the dispatcher. -/
structure WrittenDispatch where
  passComment : String := ({} : DispatchOptions).passComment
  rejectComment : String := ({} : DispatchOptions).rejectComment
  cleanupComment : String := ({} : DispatchOptions).cleanupComment
  eventBuffer : Nat := ({} : DispatchOptions).eventBuffer
  deriving DecidableEq, Repr

/-- Settings as a file gives them. -/
structure WrittenSettings where
  compiler : WrittenCompiler := {}
  proxy : WrittenProxy := {}
  dispatch : WrittenDispatch := {}
  deriving DecidableEq, Repr

/-- Where kinds of files differ: whether an array may have more items than the record has fields,
and what a choice may carry that is given as an object with one member. -/
structure Dialect where
  lenient : Bool
  payload : Json → Except Json.Mismatch Unit

namespace Dialect

/-- Documents: no item too many, and a choice carries null. -/
def document : Dialect := ⟨false, Json.readNothing⟩

/-- Settings files: items past the last field are left, and a choice carries an empty table or an
empty array. -/
def file : Dialect :=
  ⟨true, fun
    | .object [] => .ok ()
    | .array [] => .ok ()
    | j => .error (.wrongType j.seen .nothing)⟩

end Dialect

namespace WrittenSettings

/-- A text with a standard value. -/
@[reducible] def textOr (name standard : String) : Json.Field :=
  ⟨name, [], String, Json.readText, some standard⟩

/-- The layout of the section on diagrams. -/
def compilerLayout (d : Dialect) : Json.Layout WrittenCompiler where
  name := "RawCompilerSection"
  fields := [
    textOr "default_condition_expression" ({} : WrittenCompiler).defaultExpression,
    ⟨"unknown_node_types", [], UnknownNodePolicy,
      Json.readChoice UnknownNodePolicy.offered d.payload, some .standard⟩]
  strict := true
  lenient := d.lenient
  build := fun (expression, policy, ()) => ⟨expression, policy⟩

/-- The layout of the section on system nodes. -/
def proxyLayout (d : Dialect) : Json.Layout WrittenProxy where
  name := "RawProxySection"
  fields := [
    textOr "timeout" ({} : WrittenProxy).timeout,
    textOr "poll_interval" ({} : WrittenProxy).pollInterval,
    textOr "comment" ({} : WrittenProxy).comment]
  strict := true
  lenient := d.lenient
  build := fun (timeout, pollInterval, comment, ()) => ⟨timeout, pollInterval, comment⟩

/-- The layout of the section on the dispatcher. -/
def dispatchLayout (d : Dialect) : Json.Layout WrittenDispatch where
  name := "RawDispatchSection"
  fields := [
    textOr "system_pass_comment" ({} : WrittenDispatch).passComment,
    textOr "system_reject_comment" ({} : WrittenDispatch).rejectComment,
    textOr "reject_cleanup_comment" ({} : WrittenDispatch).cleanupComment,
    ⟨"event_buffer", [], Nat, Json.readSize, some ({} : WrittenDispatch).eventBuffer⟩]
  strict := true
  lenient := d.lenient
  build := fun (pass, reject, cleanup, buffer, ()) => ⟨pass, reject, cleanup, buffer⟩

/-- The layout of written settings. -/
def layout (d : Dialect) : Json.Layout WrittenSettings where
  name := "RawConfigFile"
  fields := [
    ⟨"compiler", [], WrittenCompiler, (compilerLayout d).read, some {}⟩,
    ⟨"proxy", [], WrittenProxy, (proxyLayout d).read, some {}⟩,
    ⟨"dispatch", [], WrittenDispatch, (dispatchLayout d).read, some {}⟩]
  strict := true
  lenient := d.lenient
  build := fun (compiler, proxy, dispatch, ()) => ⟨compiler, proxy, dispatch⟩

/-- Written settings from a document. -/
def read (d : Dialect) (j : Json) : Except Json.Mismatch WrittenSettings := (layout d).read j

end WrittenSettings

end ApprovalFlow
