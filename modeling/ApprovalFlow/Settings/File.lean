import ApprovalFlow.Error
import ApprovalFlow.Settings.Checked
import ApprovalFlow.Toml.Reader

/-!
# Settings files

- `Settings.ofText`: the settings that the text of a file gives.
- `Settings.ofFile`: the settings of a file that must be there.
- `Settings.ofFileOrStandard`: the standard settings if the file is not there.
-/

namespace ApprovalFlow.Settings

/-- The file in the working directory that is taken if no other is named. -/
def fileName : String := "Flowgate.toml"

/-- The settings that the text of a file gives. -/
def ofText (text : String) : Except FlowError Settings :=
  match Toml.ofText? text with
  | none => .error .badSettingsFile
  | some j =>
    match WrittenSettings.read .file j with
    | .error _ => .error .badSettingsFile
    | .ok w => (ofWritten w).mapError .settings

/-- The settings of a file with the given content; nothing is the content of a file that is not
there. -/
def ofFile : Option ByteArray → Except FlowError Settings
  | none => .error .noSuchFile
  | some bytes =>
    match String.fromUTF8? bytes with
    | none => .error .notUtf8
    | some text => ofText text

/-- The settings of a file, or the standard ones if it is not there. -/
def ofFileOrStandard : Option ByteArray → Except FlowError Settings
  | none => .ok {}
  | some bytes => ofFile (some bytes)

end ApprovalFlow.Settings
