import EnvelopeLog.Sink

/-!
# Scripted sinks

A sink whose failures are planned: it interrupts some writes, takes so many bytes at a time and so many in all, and may
refuse to be flushed.
-/

namespace EnvelopeLog

/-- What a write does when no more bytes are accepted. -/
inductive WhenFull where
  /-- It takes no byte and does not call that a failure. -/
  | takesNothing
  | fails (kind : IoKind)
deriving DecidableEq, Repr

/-- The plan of a sink. -/
structure Script where
  /-- How many bytes are still accepted, if there is a limit. -/
  budget : Option Nat := none
  /-- The most bytes that one write takes, if there is a limit. -/
  mostPerWrite : Option Nat := none
  /-- How many of the next writes are interrupted. -/
  interrupts : Nat := 0
  whenFull : WhenFull := .fails .other
  /-- A write that is interrupted is repeated, so a refusal is something else. -/
  refusal : whenFull ≠ .fails .interrupted := by decide
  /-- The kind of failure of a flush, if flushes fail. -/
  flushFailure : Option IoKind := none
deriving DecidableEq, Repr

namespace Script

/-- How many of the bytes offered a write takes while the budget is not used up. -/
def allowance (s : Script) (offered : Nat) : Nat :=
  let most (limit : Option Nat) (n : Nat) : Nat := (limit.map (min n)).getD n
  most s.mostPerWrite (most s.budget offered)

theorem allowance_le (s : Script) (offered : Nat) : s.allowance offered ≤ offered := by
  have most_le (limit : Option Nat) (n : Nat) : (limit.map (min n)).getD n ≤ n := by
    cases limit with
    | none => exact Nat.le_refl n
    | some m => exact Nat.min_le_left n m
  exact Nat.le_trans (most_le _ _) (most_le _ _)

/-- A write: interruptions come first, then the refusal of a full sink. -/
def write (s : Script) (b : Bytes) : WriteReply × Script :=
  match s.interrupts with
  | n + 1 => (.interrupted, { s with interrupts := n })
  | 0 =>
    if s.budget = some 0 then
      match s.whenFull with
      | .takesNothing => (.took 0, s)
      | .fails kind => (.failed (.told kind "disk full"), s)
    else
      let n := s.allowance b.length
      (.took n, { s with budget := s.budget.map (· - n) })

/-- The sink that follows its plan. -/
def sink : Sink Script where
  write := write
  flush s := (s.flushFailure.map (.told · "device gone"), s)
  release s := s
  patience s _ := s.interrupts
  took_le := by
    intro s b n s' h
    unfold write at h
    split at h
    · simp at h
    · split at h
      · split at h <;> simp at h
        omega
      · simp only [Prod.mk.injEq, WriteReply.took.injEq] at h
        exact h.1 ▸ s.allowance_le b.length
  patience_lt := by
    intro s b s' h
    unfold write at h
    split at h
    · rename_i hi
      simp only [Prod.mk.injEq, true_and] at h
      obtain rfl := h
      simp [hi]
    · split at h
      · split at h <;> simp at h
      · simp at h
  failed_kind := by
    intro s b fault s' h
    unfold write at h
    split at h
    · simp at h
    · split at h
      · split at h
        · simp at h
        · rename_i kind hkind
          simp only [Prod.mk.injEq, WriteReply.failed.injEq] at h
          obtain ⟨rfl, -⟩ := h
          rintro rfl
          exact s.refusal hkind
      · simp at h

end Script

end EnvelopeLog
