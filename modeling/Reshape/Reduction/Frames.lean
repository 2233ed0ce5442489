import Reshape.Failure

/-!
# Live rules

The rules that a reduction is inside of, the innermost first. Entering a rule
fails when the greatest depth is reached; leaving one undoes entering it
(`pop_of_push`).
-/

namespace Reshape

/-- The names of the rules being run, how many they are, and how many there may
be. -/
structure Frames where
  maxDepth : Nat
  live : List String := []
  depth : Nat := live.length
  depth_eq : depth = live.length := by rfl
  deriving DecidableEq

namespace Frames

/-- No rule is live. -/
def empty (maxDepth : Nat) : Frames := { maxDepth }

instance : Inhabited Frames := ⟨empty 0⟩

def isEmpty (frames : Frames) : Bool := frames.live.isEmpty

/-- The innermost rule. -/
def current? (frames : Frames) : Option String := frames.live.head?

/-- Enters a rule, unless the greatest depth is reached. -/
def push (frames : Frames) (rule : String) : Except Failure Frames :=
  if frames.maxDepth ≤ frames.depth then
    .error ⟨.limitReached .depth frames.maxDepth, []⟩
  else
    .ok { frames with
      live := rule :: frames.live
      depth := frames.depth + 1
      depth_eq := by simp [frames.depth_eq] }

theorem push_eq_error {frames : Frames} {rule : String} {failure : Failure}
    (h : frames.push rule = .error failure) :
    failure = ⟨.limitReached .depth frames.maxDepth, []⟩ := by
  unfold push at h
  split at h <;> cases h
  rfl

/-- Leaves the innermost rule. -/
def pop (frames : Frames) : Frames :=
  { frames with
    live := frames.live.tail
    depth := frames.depth - 1
    depth_eq := by simp [frames.depth_eq] }

theorem pop_of_push {frames entered : Frames} {rule : String}
    (h : frames.push rule = .ok entered) : entered.pop = frames := by
  unfold push at h
  split at h
  · cases h
  · cases h
    rfl

end Frames

end Reshape
