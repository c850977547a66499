/-!
# Kinds of nodes

- `NodeKind`: what a node of a diagram can be, with its written name.
- `NodeKind.isGateway`, `NodeKind.isConcurrent`: the kinds that branch, and those of them that
  open or join several branches at once.
- `UnknownNodePolicy`: what is done with a node whose written kind is none of these.
-/

namespace ApprovalFlow

/-- What a node of a diagram is. -/
inductive NodeKind where
  | start
  | finish
  | user
  | condition
  | parallel
  | inclusion
  | automation
  deriving DecidableEq, Repr

namespace NodeKind

/-- All kinds. -/
def all : List NodeKind :=
  [.start, .finish, .user, .condition, .parallel, .inclusion, .automation]

/-- The written name of a kind. -/
def name : NodeKind → String
  | .start => "start"
  | .finish => "end"
  | .user => "user"
  | .condition => "condition"
  | .parallel => "parallel"
  | .inclusion => "inclusion"
  | .automation => "automation"

/-- The kind with a written name. -/
def ofName? (s : String) : Option NodeKind := all.find? fun k => k.name == s

/-- The wording for a text that names no kind. -/
def unknownMessage (s : String) : String := "unknown node type '" ++ s ++ "'"

/-- Does the node branch or join? -/
def isGateway : NodeKind → Bool
  | .condition | .parallel | .inclusion => true
  | .start | .finish | .user | .automation => false

/-- Does the node open or join several branches at once? The host engine cannot route from a
gateway straight into such a node. -/
def isConcurrent : NodeKind → Bool
  | .parallel | .inclusion => true
  | .start | .finish | .user | .condition | .automation => false

end NodeKind

/-- What is done with a node of no known kind: the diagram is refused, or the node is left out with
every edge at it. -/
inductive UnknownNodePolicy where
  | reject
  | skip
  deriving DecidableEq, Repr

namespace UnknownNodePolicy

/-- The written name of a policy. -/
def name : UnknownNodePolicy → String
  | .reject => "reject"
  | .skip => "skip"

/-- The policies under their written names. -/
def offered : List (String × UnknownNodePolicy) := [("reject", .reject), ("skip", .skip)]

/-- A diagram drawn in a newer editor is still accepted unless the settings say otherwise. -/
def standard : UnknownNodePolicy := .skip

end UnknownNodePolicy

end ApprovalFlow
