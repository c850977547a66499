import ApprovalFlow.Json.Scope
import ApprovalFlow.Json.Token

/-!
# Reading documents

A text is a document if its tokens, taken one after the other, fill nested brackets and end with
the outermost value complete.

- `Json.Frame`, `Json.Assembly`: the brackets still open, and what may come next.
- `Json.Assembly.step?`: one token.
- `Json.ofTextWithin?`: the document of a text of which only some parts are read.
- `Json.ofText?`: the document of a text, nested in no more than 127 brackets.
-/

namespace ApprovalFlow.Json

/-- An open bracket with what is read of its content, and what it holds so far, last first. In an
object a member's name waits for its value. -/
inductive Frame where
  | array (scope : Scope) (items : List Json)
  | object (scope : Scope) (members : List (String × Json)) (name : String)

/-- What is read of the next value in the bracket. -/
def Frame.valueScope : Frame → Scope
  | .array scope items => scope.item items.length
  | .object scope _ name => scope.member name

/-- What may come next. -/
inductive Await where
  /-- a value -/
  | value
  /-- the first item of an array, or its end -/
  | itemOrEnd
  /-- a member's name -/
  | name
  /-- the first member of an object, or its end -/
  | nameOrEnd
  /-- the colon after a member's name -/
  | colon (name : String)
  /-- a comma, or the end of the innermost bracket -/
  | commaOrEnd
  /-- nothing: the document is complete -/
  | done (document : Json)

/-- A document partly read. -/
structure Assembly where
  /-- The open brackets, innermost first. -/
  frames : List Frame
  /-- What may come next. -/
  await : Await

namespace Assembly

/-- How many brackets may be open at once. -/
def maxDepth : Nat := 127

/-- Nothing read yet. -/
def start : Assembly := ⟨[], .value⟩

/-- What is read of the next value, in a document of which the parts in `scope` are read. -/
def valueScope (scope : Scope) : List Frame → Scope
  | [] => scope
  | f :: _ => f.valueScope

/-- Put a complete value where it belongs. -/
def complete (j : Json) : List Frame → Assembly
  | [] => ⟨[], .done j⟩
  | .array scope items :: rest => ⟨.array scope (j :: items) :: rest, .commaOrEnd⟩
  | .object scope members name :: rest =>
    ⟨.object scope ((name, j) :: members) name :: rest, .commaOrEnd⟩

/-- Open a bracket, unless too many are open around it and it is read. -/
def open? (scope : Scope) (f : Frame) (await : Await) (frames : List Frame) : Option Assembly :=
  if frames.length < maxDepth ∨ scope.isNothing then some ⟨f :: frames, await⟩ else none

/-- Close the innermost bracket with the matching token. -/
def close? (frames : List Frame) (t : Token) : Option Assembly :=
  match frames, t with
  | .array _ items :: rest, .closeArray => some (complete (.array items.reverse) rest)
  | .object _ members _ :: rest, .closeObject => some (complete (.object members.reverse) rest)
  | _, _ => none

/-- Start a value with a token. A value that no document can hold is taken as null where nothing is
read, and refused elsewhere. -/
def begin? (scope : Scope) (frames : List Frame) (t : Token) : Option Assembly :=
  match t with
  | .scalar j => some (complete j frames)
  | .text s => some (complete (.text s) frames)
  | .hugeNumber | .brokenText => if scope.isNothing then some (complete .null frames) else none
  | .openArray => open? scope (.array scope []) .itemOrEnd frames
  | .openObject => open? scope (.object scope [] "") .nameOrEnd frames
  | _ => none

/-- Take the name of a member. -/
def named? (frames : List Frame) (t : Token) : Option Assembly :=
  match frames, t with
  | _, .text s => some ⟨frames, .colon s⟩
  | .object .nothing _ _ :: _, .brokenText => some ⟨frames, .colon ""⟩
  | _, _ => none

/-- Take the next token, if it may come next. -/
def step? (scope : Scope) (a : Assembly) (t : Token) : Option Assembly :=
  match a.await, t with
  | .value, t => begin? (valueScope scope a.frames) a.frames t
  | .itemOrEnd, .closeArray => close? a.frames .closeArray
  | .itemOrEnd, t => begin? (valueScope scope a.frames) a.frames t
  | .nameOrEnd, .closeObject => close? a.frames .closeObject
  | .nameOrEnd, t => named? a.frames t
  | .name, t => named? a.frames t
  | .colon s, .colon =>
    match a.frames with
    | .object scope members _ :: rest => some ⟨.object scope members s :: rest, .value⟩
    | _ => none
  | .commaOrEnd, .comma =>
    match a.frames with
    | .array .. :: _ => some ⟨a.frames, .value⟩
    | .object .. :: _ => some ⟨a.frames, .name⟩
    | [] => none
  | .commaOrEnd, t => close? a.frames t
  | _, _ => none

end Assembly

/-- The document that a text is if only the parts in `scope` are read, with the members of objects
in their written order. What is not read may differ from what is written. -/
def ofTextWithin? (scope : Scope) (s : String) : Option Json := do
  let ts ← tokens? s.toList
  let a ← ts.foldlM (Assembly.step? scope) Assembly.start
  match a.await with
  | .done j => some j
  | _ => none

/-- The document that a text is, with the members of objects in their written order. -/
def ofText? (s : String) : Option Json := ofTextWithin? .whole s

end ApprovalFlow.Json
