import EnvelopeLog.Proofs.Writer.Operation
import Mathlib.Data.List.Basic

/-!
# No random byte is drawn twice

Any number of writers work with one sequence of random bytes, each on a sink of its own or on one that it shares with others
(`Fleet`). A ledger keeps every attempt to seal, with the position from which on it draws, what it comes to, and what the sink
takes of it. An operation draws exactly what its attempts draw, one after the other (`Operation.perform_draws`), so the ranges of
all attempts make up the bytes that were drawn, each of them once (`Fleet.run_draws`).
-/

namespace EnvelopeLog

/-- Random bytes that are drawn one after the other are those at the next positions. -/
theorem Entropy.range_eq (e : Entropy) (start n : Nat) : e.range start n = (List.range' start n).map e.byte := by
  rw [range, List.range'_eq_map_range, List.map_map]
  rfl

/-! ## Attempts to seal -/

/-- An attempt of a writer to seal what it holds. -/
structure SealAttempt where
  recipient : Rsa.PublicKey
  payload : Bytes
  /-- The position of the first random byte. -/
  start : Nat
  /-- The bytes of the frame, or why there is none. -/
  outcome : Except Error Bytes
  /-- What the sink took of the frame. -/
  taken : Bytes

namespace SealAttempt

/-- How many random bytes the attempt draws. -/
def width (x : SealAttempt) : Nat := x.recipient.sealWidth

/-- The positions of the random bytes that the attempt draws. -/
def positions (x : SealAttempt) : List Nat := List.range' x.start x.width

/-- The sealing with 32 bytes of key, 12 bytes of nonce and 32 bytes of seed from the start on. -/
def sealing (byte : Nat → UInt8) (x : SealAttempt) : Sealing := Sealing.draw x.payload { byte, drawn := x.start }

/-- What an attempt comes to: the frame of the sealing with the bytes at its positions, of which the sink took some or all or
none, or no frame if the modulus leaves no room for the key, and then no seed is drawn. -/
structure Right (byte : Nat → UInt8) (x : SealAttempt) : Prop where
  material : (x.sealing byte).key ++ (x.sealing byte).nonce ++
    (if x.recipient.Fits KeyMaterial.keySize then (x.sealing byte).seed else []) = x.positions.map byte
  outcome : x.outcome =
    if x.recipient.Fits KeyMaterial.keySize then
      ((x.sealing byte).frame x.recipient).encode.mapError fun e => .library (.framing (.cause e))
    else .error (.library (.rsa (.encryption .messageTooLong)))
  taken : x.taken = [] ∨ ∃ frame, x.outcome = .ok frame ∧ x.taken <+: frame

/-- The key, the nonce and the seed of an attempt are the bytes at its positions. -/
theorem material_eq (byte : Nat → UInt8) (x : SealAttempt) :
    (x.sealing byte).key ++ (x.sealing byte).nonce ++
      (if x.recipient.Fits KeyMaterial.keySize then (x.sealing byte).seed else []) = x.positions.map byte := by
  have hfront : (x.sealing byte).key ++ (x.sealing byte).nonce = (List.range' x.start 44).map byte := by
    rw [sealing, Sealing.draw]
    simp only [Entropy.range_eq, ← List.map_append]
    rw [List.range'_append_1]
    rfl
  have hseed : (x.sealing byte).seed = (List.range' (x.start + 44) 32).map byte := by
    rw [sealing, Sealing.draw]
    exact Entropy.range_eq _ _ _
  rw [hfront, hseed, positions, width, Rsa.PublicKey.sealWidth]
  by_cases hroom : x.recipient.Fits KeyMaterial.keySize
  · rw [if_pos hroom, if_pos hroom, ← List.map_append, List.range'_append_1]
  · rw [if_neg hroom, if_neg hroom, List.append_nil]

end SealAttempt

/-- Attempts one after the other draw what lies between two states of the sequence of random bytes, and nothing else is drawn. -/
structure Draws (made : List SealAttempt) (e e' : Entropy) : Prop where
  advanced : e' = { e with drawn := e.drawn + (made.map SealAttempt.width).sum }
  positions : made.flatMap SealAttempt.positions = List.range' e.drawn (made.map SealAttempt.width).sum
  right : ∀ x ∈ made, x.Right e.byte

namespace Draws

theorem refl (e : Entropy) : Draws [] e e := ⟨rfl, rfl, by simp⟩

theorem trans {made more : List SealAttempt} {e e' e'' : Entropy} (h : Draws made e e') (h' : Draws more e' e'') :
    Draws (made ++ more) e e'' := by
  obtain ⟨rfl, hpositions, hright⟩ := h
  obtain ⟨rfl, hpositions', hright'⟩ := h'
  refine ⟨?_, ?_, ?_⟩
  · rw [List.map_append, List.sum_append, Nat.add_assoc]
  · rw [List.flatMap_append, hpositions, hpositions', List.map_append, List.sum_append, List.range'_append_1]
  · intro x hx
    rcases List.mem_append.mp hx with hx | hx
    · exact hright x hx
    · exact hright' x hx

/-- One attempt draws as many bytes as it is wide. -/
theorem single {x : SealAttempt} {e e' : Entropy} (hstart : x.start = e.drawn)
    (hadvanced : e' = { e with drawn := e.drawn + x.width }) (hright : x.Right e.byte) : Draws [x] e e' := by
  refine ⟨?_, ?_, ?_⟩
  · rw [hadvanced, List.map_singleton, List.sum_singleton]
  · rw [List.flatMap_singleton, List.map_singleton, List.sum_singleton, SealAttempt.positions, hstart]
  · rwa [List.forall_mem_singleton]

/-- No position is drawn by two attempts. -/
theorem disjoint {made : List SealAttempt} {e e' : Entropy} (h : Draws made e e') :
    made.Pairwise fun x y => x.positions.Disjoint y.positions := by
  have hnodup : (made.flatMap SealAttempt.positions).Nodup := by
    rw [h.positions]
    exact List.nodup_range'
  exact (List.nodup_flatMap.mp hnodup).2

end Draws

/-! ## What an operation draws -/

section Operations

variable {σ : Type}

open Session (Ready)

/-- The attempt that a flush of a writer makes, if it is ready. -/
def Writer.attempts (S : Sink σ) (w : Writer) (world : World (Journal σ)) : List SealAttempt :=
  if Ready w then
    let calls := (w.flush S.journaled world).2.2.sink.calls.drop world.sink.calls.length
    [{ recipient := w.recipient, payload := w.buffer, start := world.entropy.drawn,
       outcome := (w.sealBuffer world.entropy).1, taken := calls.flatMap Call.taken }]
  else []

/-- The attempts that an operation makes: a close and a drop flush once, and so does a finish, which drops the writer if that
fails. -/
def Operation.attempts (S : Sink σ) (w : Writer) (world : World (Journal σ)) : Operation → List SealAttempt
  | .flush | .flushFrame | .close | .drop => w.attempts S world
  | .finish =>
    match w.flush S.journaled world with
    | (.error _, w', world') => w.attempts S world ++ w'.attempts S world'
    | (.ok _, _, _) => w.attempts S world
  | .write _ | .writeAll _ | .inspect | .lacking _ => []

namespace Writer

variable (S : Sink σ) (w : Writer) (world : World (Journal σ))

/-- A writer that is not ready makes no attempt. -/
theorem attempts_of_not_ready {w : Writer} (h : ¬Ready w) : w.attempts S world = [] := if_neg h

/-- What is taken of a frame that is put on the sink is the beginning of it. -/
theorem emit_taken (frame : Bytes) (j : Journal σ) :
    ((w.emit S.journaled frame j).2.2.calls.drop j.calls.length).flatMap Call.taken <+: frame := by
  obtain ⟨made, attempt, hwrite⟩ := S.writeAll_journaled j frame
  rw [emit, hwrite]
  generalize S.writeAll j.inner frame = answer at attempt
  rcases answer with ⟨n, _ | fault, inner⟩
  · have htaken : made.flatMap Call.taken = frame := attempt.taken_eq_all
    simp only [S.flush_journaled]
    rcases S.flush inner with ⟨_ | fault, inner'⟩ <;> simp [Call.taken, htaken]
  · have htaken : made.flatMap Call.taken = frame.take n := attempt.taken_eq
    simp only [Journal.note_calls, List.drop_left, htaken]
    exact List.take_prefix n frame

/-- A flush draws what its attempt draws. -/
theorem flush_draws : Draws (w.attempts S world) world.entropy (w.flush S.journaled world).2.2.entropy := by
  by_cases hready : Ready w
  · rw [attempts, if_pos hready]
    have hseal := w.sealBuffer_eq world.entropy
    have hright (taken : Bytes)
        (htaken : taken = [] ∨ ∃ frame, (w.sealBuffer world.entropy).1 = .ok frame ∧ taken <+: frame) :
        SealAttempt.Right world.entropy.byte
          ⟨w.recipient, w.buffer, world.entropy.drawn, (w.sealBuffer world.entropy).1, taken⟩ :=
      ⟨SealAttempt.material_eq _ _, congrArg Prod.fst hseal, htaken⟩
    refine Draws.single rfl ?_ (hright _ ?_)
    · have hentropy : (w.flush S.journaled world).2.2.entropy = (w.sealBuffer world.entropy).2 := by
        rw [flush_of_ready hready]
        rcases w.sealBuffer world.entropy with ⟨e | frame, entropy⟩ <;> rfl
      exact hentropy.trans (congrArg Prod.snd hseal)
    · rw [flush_of_ready hready]
      rcases w.sealBuffer world.entropy with ⟨e | frame, entropy⟩
      · exact .inl (by simp)
      · exact .inr ⟨frame, rfl, w.emit_taken S frame world.sink⟩
  · rw [attempts_of_not_ready S world hready, flush_of_not_ready hready]
    exact .refl _

/-- A close draws what its flush draws. -/
theorem close_draws : Draws (w.attempts S world) world.entropy (w.close S.journaled world).2.2.entropy := by
  cases hc : w.closed with
  | true =>
    have hready : ¬Ready w := fun h => Bool.false_ne_true (h.opened.symm.trans hc)
    rw [close_of_closed hc, attempts_of_not_ready S world hready]
    exact .refl _
  | false =>
    rw [close_of_open hc]
    exact w.flush_draws S world

end Writer

/-- An operation draws what its attempts draw, one after the other. -/
theorem Operation.perform_draws (S : Sink σ) (w : Writer) (world : World (Journal σ)) (op : Operation) :
    Draws (op.attempts S w world) world.entropy (op.perform S.journaled w world).2.2.entropy := by
  cases op with
  | write b | writeAll b | inspect | lacking op => exact .refl _
  | flush | flushFrame => exact w.flush_draws S world
  | close | drop => exact w.close_draws S world
  | finish =>
    have hflush := w.flush_draws S world
    rw [attempts, perform, Writer.finish]
    rcases hresult : w.flush S.journaled world with ⟨e | b, w', world'⟩
    · rw [hresult] at hflush
      exact hflush.trans (w'.close_draws S world')
    · rw [hresult] at hflush
      exact hflush

/-- An operation makes no attempt if it does not flush or if the writer is not ready. -/
theorem Operation.attempts_eq_nil (S : Sink σ) (w : Writer) (world : World (Journal σ)) (op : Operation)
    (h : ¬Ready w ∨ ¬op.Flushes) : op.attempts S w world = [] := by
  rcases h with hready | hflushes
  · have hnone := Writer.attempts_of_not_ready S world hready
    cases op with
    | write b | writeAll b | inspect | lacking op => rfl
    | flush | flushFrame | close | drop => exact hnone
    | finish =>
      rw [attempts, Writer.flush_of_not_ready hready]
      cases w.idleAnswer with
      | ok b => exact hnone
      | error e =>
        dsimp only
        rw [hnone, List.append_nil]
  · cases op with
    | write b | writeAll b | inspect | lacking op => rfl
    | flush | flushFrame | close | drop | finish => exact absurd trivial hflushes

end Operations

/-! ## Several writers -/

/-- Writers that draw from the same random bytes, each with the way in which it uses the sink, until it is given up. -/
structure Fleet (σ : Type) where
  world : World (Journal σ)
  writers : List (Sink σ × Option Writer) := []
  /-- The attempts made so far, in order. -/
  attempts : List SealAttempt := []

namespace Fleet

variable {σ : Type}

/-- What can be done with a fleet. -/
inductive Step (σ : Type) where
  /-- One more writer. -/
  | start (S : Sink σ) (recipient : Rsa.PublicKey)
  | operate (i : Nat) (op : Operation)
  /-- Someone else changes the sinks. -/
  | change (f : σ → σ)

/-- The fleet after a step; nothing is done with a writer that was given up or never started. -/
def step (s : Fleet σ) : Step σ → Fleet σ
  | .start S recipient => { s with writers := s.writers ++ [(S, some { recipient })] }
  | .operate i op =>
    match s.writers[i]? with
    | some (S, some w) =>
      { world := (op.perform S.journaled w s.world).2.2
        writers := s.writers.set i (S, (op.perform S.journaled w s.world).2.1)
        attempts := s.attempts ++ op.attempts S w s.world }
    | _ => s
  | .change f => { s with world := { s.world with sink := { s.world.sink with inner := f s.world.sink.inner } } }

/-- The fleet after some steps. -/
def run (s : Fleet σ) (steps : List (Step σ)) : Fleet σ := steps.foldl step s

/-- A fleet without any writer. -/
def launch (inner : σ) (entropy : Entropy) : Fleet σ where
  world := { sink := { inner }, entropy }

/-- What one step adds to the ledger is what it draws. -/
theorem step_draws (s : Fleet σ) (x : Step σ) :
    ∃ made, (s.step x).attempts = s.attempts ++ made ∧ Draws made s.world.entropy (s.step x).world.entropy := by
  cases x with
  | start S recipient => exact ⟨[], (List.append_nil _).symm, .refl _⟩
  | change f => exact ⟨[], (List.append_nil _).symm, .refl _⟩
  | operate i op =>
    rw [step]
    split
    · rename_i S w _
      exact ⟨op.attempts S w s.world, rfl, op.perform_draws S w s.world⟩
    · exact ⟨[], (List.append_nil _).symm, .refl _⟩

/-- What a run adds to the ledger is what it draws. -/
theorem exists_draws (s : Fleet σ) (steps : List (Step σ)) :
    ∃ made, (s.run steps).attempts = s.attempts ++ made ∧ Draws made s.world.entropy (s.run steps).world.entropy := by
  induction steps generalizing s with
  | nil => exact ⟨[], (List.append_nil _).symm, .refl _⟩
  | cons x steps ih =>
    obtain ⟨made, hmade, hdraws⟩ := s.step_draws x
    obtain ⟨more, hmore, hlater⟩ := ih (s.step x)
    refine ⟨made ++ more, ?_, hdraws.trans hlater⟩
    rw [← List.append_assoc, ← hmade]
    exact hmore

/-- Whatever is done with any number of writers and however their sinks behave, the attempts to seal take their keys, nonces and
seeds from ranges of random bytes that are disjoint and together are all that was drawn. A writer that is poisoned or closed or
holds nothing draws nothing, nor does an operation that does not flush. -/
theorem run_draws (inner : σ) (entropy : Entropy) (steps : List (Step σ)) :
    let s := (launch inner entropy).run steps
    let total := (s.attempts.map SealAttempt.width).sum
    (∀ x ∈ s.attempts, x.Right entropy.byte) ∧
    s.attempts.Pairwise (fun x y => x.positions.Disjoint y.positions) ∧
    s.attempts.flatMap SealAttempt.positions = List.range' entropy.drawn total ∧
    s.world.entropy = { entropy with drawn := entropy.drawn + total } ∧
    ∀ i S w op, s.writers[i]? = some (S, some w) →
      w.poisoned = true ∨ w.closed = true ∨ w.buffer = [] ∨ ¬op.Flushes →
      (s.step (.operate i op)).attempts = s.attempts ∧ (s.step (.operate i op)).world.entropy = s.world.entropy := by
  intro s total
  obtain ⟨made, hmade, hdraws⟩ := (launch inner entropy).exists_draws steps
  have hattempts : s.attempts = made := hmade
  subst hattempts
  refine ⟨hdraws.right, hdraws.disjoint, hdraws.positions, hdraws.advanced, ?_⟩
  intro i S w op hwriter hidle
  have hnone : op.attempts S w s.world = [] := by
    refine op.attempts_eq_nil S w s.world ?_
    rcases hidle with hpoisoned | hclosed | hempty | hquiet
    · exact .inl fun h => Bool.false_ne_true (h.unpoisoned.symm.trans hpoisoned)
    · exact .inl fun h => Bool.false_ne_true (h.opened.symm.trans hclosed)
    · exact .inl fun h => h.filled hempty
    · exact .inr hquiet
  have hsame := op.perform_draws S w s.world
  rw [hnone] at hsame
  rw [step, hwriter]
  dsimp only
  rw [hnone, List.append_nil]
  exact ⟨rfl, hsame.advanced⟩

end Fleet

end EnvelopeLog
