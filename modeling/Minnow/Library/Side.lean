import Mathlib.Tactic.Common

set_option autoImplicit false

/-! # The two ends of a link -/

namespace Minnow

inductive Side where
  | a
  | b
  deriving DecidableEq, Repr

namespace Side

def peer : Side → Side
  | .a => .b
  | .b => .a

/-- A value for each side. -/
def pair {α : Type} (a b : α) : Side → α
  | .a => a
  | .b => b

@[simp] theorem peer_peer (side : Side) : side.peer.peer = side := by
  cases side <;> rfl

theorem peer_ne (side : Side) : side.peer ≠ side := by
  cases side <;> decide

theorem eq_or_eq_peer (side other : Side) : other = side ∨ other = side.peer := by
  cases side <;> cases other <;> simp [peer]

end Side

end Minnow
