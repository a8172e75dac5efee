import EnvelopeLog.Fault

/-!
# Sources

A source delivers a byte string piecemeal: a read may return fewer bytes than it asks for, be interrupted, or fail at some
position. `collect` collects bytes over as many reads as it takes and retries those that are interrupted. It serves for
bytes of which the number is known (`readUpTo`) and for those of a field, of which a torn source may hold far fewer than
the field claims (`readToEnd`); the two differ in how much a single read asks for.
-/

namespace EnvelopeLog

/-- What a read returns. -/
inductive ReadReply where
  /-- The next bytes; none at the end. -/
  | bytes (b : Bytes)
  /-- Nothing was read, and the read may be repeated. -/
  | interrupted
  | failed (fault : IoFault)
deriving DecidableEq, Repr

theorem Source.final_of_none : ∀ f ∈ (none : Option (Nat × IoFault)), f.2.kind ≠ .interrupted := nofun

/-- A byte string with the manner of its delivery. -/
structure Source where
  unread : Bytes
  position : Nat := 0
  /-- The most bytes that one read returns, if there is a limit. -/
  mostPerRead : Option Nat := none
  /-- The positions at which a read is interrupted, once for each time a position is listed. -/
  interrupts : List Nat := []
  /-- The position from which nothing can be read, and the fault of a read there. -/
  failure : Option (Nat × IoFault) := none
  /-- A read that is interrupted is repeated, so the fault is something else. -/
  final : ∀ f ∈ failure, f.2.kind ≠ .interrupted := by exact Source.final_of_none
deriving Repr

namespace Source

/-- The source that delivers a byte string without interruption. -/
def ofBytes (b : Bytes) : Source := { unread := b }

/-- The source that fails at once. -/
def failing (fault : IoFault) (final : fault.kind ≠ .interrupted) : Source where
  unread := []
  failure := some (0, fault)
  final := by
    rintro f ⟨⟩
    exact final

/-- How many of the bytes asked for a read may return: it stops short before an interruption and before a failure. -/
def allowance (s : Source) (wanted : Nat) : Nat :=
  let stops := s.interrupts ++ (s.failure.map (·.1)).toList
  let ahead := (stops.filter (s.position < ·)).map (· - s.position)
  ahead.foldl min (match s.mostPerRead with
    | some most => min wanted most
    | none => wanted)

/-- One read. -/
def read (s : Source) (wanted : Nat) : ReadReply × Source :=
  if s.position ∈ s.interrupts then (.interrupted, { s with interrupts := s.interrupts.erase s.position })
  else
    let deliver : ReadReply × Source :=
      let b := s.unread.take (s.allowance wanted)
      (.bytes b, { s with unread := s.unread.drop b.length, position := s.position + b.length })
    match s.failure with
    | some (position, fault) => if position = s.position then (.failed fault, s) else deliver
    | none => deliver

theorem foldl_min_le (a : Nat) (l : List Nat) : l.foldl min a ≤ a := by
  induction l generalizing a with
  | nil => exact Nat.le_refl a
  | cons b l ih => exact Nat.le_trans (ih _) (Nat.min_le_left a b)

theorem allowance_le (s : Source) (wanted : Nat) : s.allowance wanted ≤ wanted := by
  unfold allowance
  refine Nat.le_trans (foldl_min_le _ _) ?_
  split <;> omega

theorem read_bytes {s s' : Source} {wanted : Nat} {b : Bytes} (h : s.read wanted = (.bytes b, s')) :
    b.length ≤ wanted ∧ s.unread = b ++ s'.unread ∧ s'.interrupts = s.interrupts := by
  have key : s.unread = s.unread.take (s.allowance wanted) ++
      s.unread.drop (s.unread.take (s.allowance wanted)).length := by
    conv => lhs; rw [← List.take_append_drop (s.allowance wanted) s.unread]
    congr 1
    rw [List.length_take]
    rcases Nat.le_total (s.allowance wanted) s.unread.length with h | h
    · rw [Nat.min_eq_left h]
    · rw [Nat.min_eq_right h, List.drop_of_length_le h, List.drop_length]
  have := s.allowance_le wanted
  unfold read at h
  split at h
  · simp at h
  · dsimp only at h
    split at h
    · split at h
      · simp at h
      · simp only [Prod.mk.injEq, ReadReply.bytes.injEq] at h
        obtain ⟨rfl, rfl⟩ := h
        refine ⟨?_, key, rfl⟩
        simp only [List.length_take]
        omega
    · simp only [Prod.mk.injEq, ReadReply.bytes.injEq] at h
      obtain ⟨rfl, rfl⟩ := h
      refine ⟨?_, key, rfl⟩
      simp only [List.length_take]
      omega

theorem read_interrupted {s s' : Source} {wanted : Nat} (h : s.read wanted = (.interrupted, s')) :
    s'.interrupts.length + 1 = s.interrupts.length ∧ s'.unread = s.unread := by
  unfold read at h
  split at h
  · rename_i hm
    simp only [Prod.mk.injEq, true_and] at h
    obtain rfl := h
    have := List.length_pos_of_mem hm
    simp only [List.length_erase_of_mem hm, and_true]
    omega
  · dsimp only at h
    split at h
    · split at h <;> simp at h
    · simp at h

theorem read_failed {s s' : Source} {wanted : Nat} {fault : IoFault} (h : s.read wanted = (.failed fault, s')) :
    s' = s := by
  unfold read at h
  split at h
  · simp at h
  · dsimp only at h
    split at h
    · split at h <;> simp at h
      exact h.2.symm
    · simp at h

/-- How many bytes a single read asks for while some are missing: at least one, and no more than are missing. -/
structure Requests where
  ask : Nat → Nat
  pos : ∀ missing, 0 < missing → 0 < ask missing
  le : ∀ missing, ask missing ≤ missing

namespace Requests

/-- Every read asks for all that is missing. -/
def whole : Requests where
  ask := fun missing => missing
  pos := fun _ h => h
  le := Nat.le_refl

/-- A read asks for as many bytes as were collected of the `length` ones, and for 32 at first: the buffer doubles when it is
full, whatever length was claimed. -/
def growing (length : Nat) : Requests where
  ask := fun missing => min missing (max 32 (length - missing))
  pos := fun _ h => by omega
  le := fun _ => Nat.min_le_left _ _

end Requests

/-- The next bytes, as many as asked for unless the source ends or fails before; a complete demand causes no further read. -/
def collect (r : Requests) (s : Source) (wanted : Nat) : Except IoFault Bytes × Source :=
  if wanted = 0 then (.ok [], s)
  else
    match _h : s.read (r.ask wanted) with
    | (.bytes [], s') => (.ok [], s')
    | (.bytes (b :: bs), s') =>
      match s'.collect r (wanted - (b :: bs).length) with
      | (.ok more, s'') => (.ok (b :: bs ++ more), s'')
      | (.error e, s'') => (.error e, s'')
    | (.interrupted, s') => s'.collect r wanted
    | (.failed fault, s') => (.error fault, s')
termination_by wanted + s.interrupts.length
decreasing_by
  · obtain ⟨-, -, heq⟩ := read_bytes _h
    rw [heq]
    simp only [List.length_cons]
    omega
  · have := (read_interrupted _h).1
    omega

/-- The next bytes, as many as asked for unless the source ends or fails before, read into a buffer of their number. -/
def readUpTo (s : Source) (wanted : Nat) : Except IoFault Bytes × Source := s.collect .whole wanted

/-- What the source holds of the next `length` bytes, read into a buffer that grows. -/
def readToEnd (s : Source) (length : Nat) : Except IoFault Bytes × Source := s.collect (.growing length) length

/-- What was read is taken off the front. -/
theorem collect_ok {r : Requests} {s s' : Source} {wanted : Nat} {b : Bytes} (h : s.collect r wanted = (.ok b, s')) :
    s.unread = b ++ s'.unread := by
  fun_induction collect r s wanted generalizing b s' with
  | case1 => simp_all
  | case2 _ _ _ s₁ hr =>
    obtain ⟨-, heq, -⟩ := read_bytes hr
    simp at h
    simp [← h.1, ← h.2, heq]
  | case3 s _ _ b₁ bs s₁ hr more s₂ hm ih =>
    obtain ⟨-, heq, -⟩ := read_bytes hr
    simp at h
    have := ih hm
    simp [← h.1, ← h.2, heq, this]
  | case4 => simp at h
  | case5 _ _ _ s₁ hr ih => rw [← ih h, (read_interrupted hr).2]
  | case6 => simp at h

/-- Reading never leaves more bytes unread than there were. -/
theorem collect_unread_le (r : Requests) (s : Source) (wanted : Nat) :
    (s.collect r wanted).2.unread.length ≤ s.unread.length := by
  fun_induction collect r s wanted with
  | case1 => exact Nat.le_refl _
  | case2 _ _ _ s₁ hr => simp [(read_bytes hr).2.1]
  | case3 s _ _ b₁ bs s₁ hr more s₂ hm ih =>
    rw [hm] at ih
    rw [(read_bytes hr).2.1, List.length_append]
    exact Nat.le_trans ih (Nat.le_add_left _ _)
  | case4 s _ _ b₁ bs s₁ hr e s₂ hm ih =>
    rw [hm] at ih
    rw [(read_bytes hr).2.1, List.length_append]
    exact Nat.le_trans ih (Nat.le_add_left _ _)
  | case5 _ _ _ s₁ hr ih =>
    rw [← (read_interrupted hr).2]
    exact ih
  | case6 _ _ _ fault s₁ hr => simp [read_failed hr]

end Source

end EnvelopeLog
