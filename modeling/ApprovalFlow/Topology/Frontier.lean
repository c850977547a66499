/-!
# The frontier of a search

The trails that a search may go on from, in a binary heap whose root is a shortest one. Among trails
of one length the place in the heap decides, so the operations fix which of them comes out first.

- `Trail`: a node with the way to it.
- `Frontier`: the heap, as an array in level order; the children of the place `i` are at `2 i + 1`
  and `2 i + 2`.
- `Frontier.push`: add a trail at the end and let it rise.
- `Frontier.pop?`: take the root out; the last trail falls from the root to the bottom and rises
  again from there.
-/

namespace ApprovalFlow

/-- A node with the way to it from where a search began. -/
structure Trail where
  node : String
  /-- The nodes before it, last first. -/
  before : List String
  deriving DecidableEq, Repr

namespace Trail

/-- The number of links on the way. -/
def length (t : Trail) : Nat := t.before.length

/-- All nodes on the way, from the beginning. -/
def path (t : Trail) : List String := (t.node :: t.before).reverse

/-- The trail one link on. -/
def extend (t : Trail) (node : String) : Trail := ⟨node, t.node :: t.before⟩

end Trail

/-- The trails that a search may go on from. -/
abbrev Frontier := Array Trail

namespace Frontier

/-- The length of the trail at a place. -/
def lengthAt (f : Frontier) (i : Nat) : Nat := (f[i]?.map Trail.length).getD 0

/-- Let the trail at `i` rise as long as it is shorter than the one above it. -/
def rise (f : Frontier) (i : Nat) : Frontier :=
  if i = 0 then f
  else
    let parent := (i - 1) / 2
    if lengthAt f i < lengthAt f parent then rise (f.swapIfInBounds i parent) parent else f
termination_by i
decreasing_by omega

/-- Let the trail at `i` fall to the bottom, each time to the side of the shorter child and to the
right if both are of one length. The heap, and the place where the trail ends. -/
def fall (f : Frontier) (i : Nat) : Frontier × Nat :=
  let left := 2 * i + 1
  if left + 1 < f.size then
    let child := if lengthAt f left < lengthAt f (left + 1) then left else left + 1
    fall (f.swapIfInBounds i child) child
  else if left + 1 = f.size then (f.swapIfInBounds i left, left)
  else (f, i)
termination_by f.size - i
decreasing_by
  rw [Array.size_swapIfInBounds]
  split <;> omega

/-- Add a trail. -/
def push (f : Frontier) (t : Trail) : Frontier := rise (Array.push f t) f.size

/-- Take out the root, if there is one. -/
def pop? (f : Frontier) : Option (Trail × Frontier) :=
  match f.back? with
  | none => none
  | some last =>
    let rest : Frontier := f.pop
    match rest[0]? with
    | none => some (last, rest)
    | some root =>
      let (rest, i) := fall (rest.setIfInBounds 0 last) 0
      some (root, rise rest i)

end Frontier

end ApprovalFlow
