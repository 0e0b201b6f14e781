import Mathlib.Tactic.Common

set_option autoImplicit false

namespace EpochReplication

-- A store built by applying one operation after the other. An operation that
-- has no meaning on the store it meets ends the replay.
def replay {Store Op : Type} (apply : Store → Op → Option Store) (store : Store) (ops : List Op) : Option Store :=
  ops.foldlM apply store

section Replay

variable {Store Op : Type} (apply : Store → Op → Option Store)

@[simp] theorem replay_nil (store : Store) : replay apply store [] = some store := rfl

theorem replay_append (store : Store) (done more : List Op) :
    replay apply store (done ++ more) = (replay apply store done).bind (fun next => replay apply next more) := by
  simp only [replay, List.foldlM_append]
  rfl

theorem replay_snoc (store before after : Store) (done : List Op) (op : Op)
    (replayed : replay apply store done = some before) (applied : apply before op = some after) :
    replay apply store (done ++ [op]) = some after := by
  rw [replay_append, replayed]
  simpa [replay] using applied

theorem replay_preserves (inv : Store → Prop) (preserved : ∀ store op next, inv store → apply store op = some next → inv next)
    (ops : List Op) (store next : Store) (start : inv store) (replayed : replay apply store ops = some next) : inv next := by
  induction ops generalizing store with
  | nil =>
      cases replayed
      exact start
  | cons op rest ih =>
      obtain ⟨middle, applied, replayed⟩ := Option.bind_eq_some_iff.mp replayed
      exact ih middle (preserved store op middle start applied) replayed

end Replay

end EpochReplication
