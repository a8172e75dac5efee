import EnvelopeLog.Fault

/-!
# Sinks

A sink takes bytes. A write may take fewer bytes than it is given, be interrupted, or fail, and what was taken may still wait
to be flushed. A sink is described by what its operations do to a state of any type, so one description covers a file among
others, a device that fills up, and a sink whose behaviour changes with time. Three laws are part of the description: no write
takes more than it is given, interruptions come to an end, and no interruption is called a failure. `writeAll` repeats writes
until all bytes are taken or one fails, and counts what was taken: a failure tells nothing about the bytes before it, the count
tells all.
-/

namespace EnvelopeLog

/-- What a write answers. -/
inductive WriteReply where
  /-- So many of the bytes were taken. -/
  | took (n : Nat)
  /-- Nothing was taken, and the write may be repeated. -/
  | interrupted
  | failed (fault : IoFault)
deriving DecidableEq, Repr

/-- What the operations of a sink do to its state. -/
structure Sink (σ : Type) where
  write : σ → Bytes → WriteReply × σ
  flush : σ → Option IoFault × σ
  /-- What happens when the last user of the sink lets go of it. -/
  release : σ → σ
  /-- At least the number of interruptions that come one after the other when some bytes are offered again and again. -/
  patience : σ → Bytes → Nat
  took_le : ∀ s b n s', write s b = (.took n, s') → n ≤ b.length
  patience_lt : ∀ s b s', write s b = (.interrupted, s') → patience s' b < patience s b
  failed_kind : ∀ s b fault s', write s b = (.failed fault, s') → fault.kind ≠ .interrupted

namespace Sink

variable {σ : Type}

/-- Writes all bytes, and tells how many were taken, the failure that prevented the others, and the state after it. -/
def writeAll (S : Sink σ) (s : σ) (b : Bytes) : Nat × Option IoFault × σ :=
  if b = [] then (0, none, s)
  else
    match _h : S.write s b with
    | (.took 0, s') => (0, some .writeZero, s')
    | (.took (n + 1), s') =>
      let (more, fault, s'') := S.writeAll s' (b.drop (n + 1))
      (n + 1 + more, fault, s'')
    | (.interrupted, s') => S.writeAll s' b
    | (.failed fault, s') => (0, some fault, s')
termination_by (b.length, S.patience s b)
decreasing_by
  · have := S.took_le s b (n + 1) s' _h
    apply Prod.Lex.left
    rw [List.length_drop]
    omega
  · exact Prod.Lex.right _ (S.patience_lt s b s' _h)

end Sink

/-! ## Recording what a sink is given -/

/-- The state of a sink, with a record of the bytes it took and of the calls it saw. -/
structure Recorder (σ : Type) where
  inner : σ
  received : Bytes := []
  flushes : Nat := 0
  releases : Nat := 0
deriving Repr

/-- The sink that behaves like another and keeps a record. -/
def Sink.recorded {σ : Type} (S : Sink σ) : Sink (Recorder σ) where
  write r b :=
    match S.write r.inner b with
    | (.took n, inner) => (.took n, { r with inner, received := r.received ++ b.take n })
    | (.interrupted, inner) => (.interrupted, { r with inner })
    | (.failed fault, inner) => (.failed fault, { r with inner })
  flush r :=
    let (fault, inner) := S.flush r.inner
    (fault, { r with inner, flushes := r.flushes + 1 })
  release r := { r with inner := S.release r.inner, releases := r.releases + 1 }
  patience r b := S.patience r.inner b
  took_le := by
    intro r b n r' h
    rcases hw : S.write r.inner b with ⟨_ | _ | _, inner⟩ <;> rw [hw] at h
    · simp only [Prod.mk.injEq, WriteReply.took.injEq] at h
      exact S.took_le r.inner b n inner (h.1 ▸ hw)
    · simp at h
    · simp at h
  patience_lt := by
    intro r b r' h
    rcases hw : S.write r.inner b with ⟨_ | _ | _, inner⟩ <;> rw [hw] at h
    · simp at h
    · simp only [Prod.mk.injEq, true_and] at h
      obtain rfl := h
      exact S.patience_lt r.inner b inner hw
    · simp at h
  failed_kind := by
    intro r b fault r' h
    rcases hw : S.write r.inner b with ⟨_ | _ | _, inner⟩ <;> rw [hw] at h
    · simp at h
    · simp at h
    · simp only [Prod.mk.injEq, WriteReply.failed.injEq] at h
      obtain ⟨rfl, -⟩ := h
      exact S.failed_kind r.inner b _ inner hw

end EnvelopeLog
