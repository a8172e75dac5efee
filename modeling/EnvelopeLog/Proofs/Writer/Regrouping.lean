import EnvelopeLog.Proofs.Writer.Lengths
import Mathlib.Logic.Relation

/-!
# Only what is between two frames counts

A writer does not notice in what pieces its bytes come. A write may be cut into several, several may be put together, writes of
nothing may come and go, and so may flushes where there is nothing to flush: each of these is a change of a few operations that
leaves the stream as it would have been (`Recut.play_eq`). So two lists of steps that come from each other by any number of such
changes leave the same stream, and a step that they share is answered the same in both (`report_regrouped`).
-/

namespace EnvelopeLog

/-- Whether an operation writes the given bytes. -/
inductive Operation.Writes : Bytes → Operation → Prop where
  | write (b : Bytes) : Writes b (.write b)
  | writeAll (b : Bytes) : Writes b (.writeAll b)

/-- Bytes may be written in two pieces. -/
theorem Writer.write_append (w : Writer) (b c : Bytes) : (w.write (b ++ c)).2 = ((w.write b).2.write c).2 := by
  by_cases hb : b = []
  · rw [hb]
    rfl
  by_cases hc : c = []
  · rw [hc, List.append_nil]
    rfl
  cases hclosed : w.closed <;> cases hpoisoned : w.poisoned <;> simp [write, hb, hc, hclosed, hpoisoned]

namespace Stream

variable {σ : Type} {S : Sink σ} {s : Stream σ}

/-! ## Steps that bring the stream to the same place -/

/-- The stream after bytes were written to it. -/
def written (s : Stream σ) (b : Bytes) : Stream σ := { s with writer := s.writer.map fun w => (w.write b).2 }

/-- All ways of writing bytes leave the stream in the same state. -/
theorem step_of_writes (S : Sink σ) (s : Stream σ) {b : Bytes} {op : Operation} (h : op.Writes b) :
    (s.step S (.operate op)).2 = s.written b := by
  obtain ⟨writer, world⟩ := s
  cases writer with
  | none => rfl
  | some w => cases h <;> rfl

/-- Two writes leave the stream as one of all their bytes does. -/
theorem written_append (s : Stream σ) (b c : Bytes) : s.written (b ++ c) = (s.written b).written c := by
  simp only [written, Option.map_map, Function.comp_def, Writer.write_append]

theorem written_nil (s : Stream σ) : s.written [] = s := by
  obtain ⟨writer, world⟩ := s
  cases writer <;> rfl

/-- Whether there is nothing to flush, and nothing that would refuse a flush. -/
def Idle (s : Stream σ) : Prop := ∀ w, s.writer = some w → w.buffer = [] ∧ w.poisoned = false

/-- A flush of an idle stream does nothing, even if the stream is closed. -/
theorem Idle.step_flush (h : s.Idle) (S : Sink σ) :
    (s.step S (.operate .flush)).2 = s ∧ (s.step S (.operate .flushFrame)).2 = s := by
  obtain ⟨writer, world⟩ := s
  cases writer with
  | none => exact ⟨rfl, rfl⟩
  | some w =>
    obtain ⟨hempty, -⟩ := h w rfl
    have hflush : w.flush S.journaled world = (w.idleAnswer, w, world) :=
      Writer.flush_of_not_ready (fun hready => hready.filled hempty) S.journaled world
    simp only [step, Operation.perform, hflush, and_self]

theorem run_append (S : Sink σ) (s : Stream σ) (xs ys : List (Step σ)) : s.run S (xs ++ ys) = (s.run S xs).run S ys :=
  List.foldl_append

/-! ## Lists of steps -/

/-- A step in a list of steps. -/
inductive Cue (σ : Type) where
  /-- One whose answer is looked at. -/
  | told (x : Step σ)
  /-- An operation whose answer nobody looks at. -/
  | aside (op : Operation)

def Cue.step : Cue σ → Step σ
  | .told x => x
  | .aside op => .operate op

/-- The stream after some steps. -/
def play (S : Sink σ) (s : Stream σ) (cues : List (Cue σ)) : Stream σ := s.run S (cues.map Cue.step)

/-- The answers that are looked at, each with the stream after it. -/
def report (S : Sink σ) : Stream σ → List (Cue σ) → List (Option Reply × Stream σ)
  | _, [] => []
  | s, .told x :: cues => s.step S x :: report S (s.step S x).2 cues
  | s, .aside op :: cues => report S (s.step S (.operate op)).2 cues

/-- Cues go on from where the cues before them led. -/
theorem play_append (S : Sink σ) (s : Stream σ) (xs ys : List (Cue σ)) : s.play S (xs ++ ys) = (s.play S xs).play S ys := by
  rw [play, List.map_append, run_append]
  rfl

/-- What is reported of cues is reported one after the other. -/
theorem report_append (S : Sink σ) (s : Stream σ) (xs ys : List (Cue σ)) :
    s.report S (xs ++ ys) = s.report S xs ++ (s.play S xs).report S ys := by
  induction xs generalizing s with
  | nil => rfl
  | cons x xs ih =>
    cases x with
    | told x => exact congrArg (s.step S x :: ·) (ih (s.step S x).2)
    | aside op => exact ih (s.step S (.operate op)).2

/-- Nobody looks at the answers to asides. -/
theorem report_asides (S : Sink σ) (s : Stream σ) (ops : List Operation) : s.report S (ops.map Cue.aside) = [] := by
  induction ops generalizing s with
  | nil => rfl
  | cons op ops ih => exact ih _

/-! ## Changes to lists of steps -/

/-- Operations that a stream may be given one instead of the other. -/
inductive Recut (s : Stream σ) : List Operation → List Operation → Prop where
  /-- Two writes for one. -/
  | split {b c : Bytes} {x y z : Operation} (whole : x.Writes (b ++ c)) (first : y.Writes b) (second : z.Writes c) :
      Recut s [x] [y, z]
  /-- One more write, of nothing. -/
  | nothing {x : Operation} (empty : x.Writes []) : Recut s [] [x]
  /-- One more flush, with nothing to flush. -/
  | flush (idle : s.Idle) : Recut s [] [.flush]
  | flushFrame (idle : s.Idle) : Recut s [] [.flushFrame]

/-- Operations that may stand for each other lead to the same stream. -/
theorem Recut.play_eq {ops ops' : List Operation} (h : Recut s ops ops') (S : Sink σ) :
    s.play S (ops.map Cue.aside) = s.play S (ops'.map Cue.aside) := by
  cases h with
  | @split b c x y z hwhole hfirst hsecond =>
    change (s.step S (.operate x)).2 = ((s.step S (.operate y)).2.step S (.operate z)).2
    rw [step_of_writes S s hwhole, step_of_writes S s hfirst, step_of_writes S _ hsecond, written_append]
  | @nothing x hempty =>
    change s = (s.step S (.operate x)).2
    rw [step_of_writes S s hempty, written_nil]
  | flush hidle => exact (hidle.step_flush S).1.symm
  | flushFrame hidle => exact (hidle.step_flush S).2.symm

/-- One change somewhere in a list of steps; whether it may be made depends on the stream after the steps before it. -/
inductive Edit (S : Sink σ) (s : Stream σ) : List (Cue σ) → List (Cue σ) → Prop where
  | within (before after : List (Cue σ)) {ops ops' : List Operation} (recut : Recut (s.play S before) ops ops') :
      Edit S s (before ++ (ops.map Cue.aside ++ after)) (before ++ (ops'.map Cue.aside ++ after))

/-- Whether two lists of steps come from each other by changes, made or undone. -/
def Regrouped (S : Sink σ) (s : Stream σ) : List (Cue σ) → List (Cue σ) → Prop := Relation.EqvGen (Edit S s)

/-- A change is seen neither in the report nor in the stream after it. -/
theorem Edit.same {xs ys : List (Cue σ)} (h : Edit S s xs ys) :
    s.report S xs = s.report S ys ∧ s.play S xs = s.play S ys := by
  obtain ⟨before, after, hrecut⟩ := h
  have hplay := hrecut.play_eq S
  simp only [report_append, play_append, report_asides, hplay, and_self]

/-- A stream that is given the same bytes between its other steps, in whatever pieces, with or without flushes where there is
nothing to flush, ends as the same stream: its sink saw the same calls, as many random bytes were drawn, and its writer counts
the same frames, is closed or not and poisoned or not as it would have been. Every step whose answer is looked at has the same
answer and leaves the same stream. -/
theorem report_regrouped {xs ys : List (Cue σ)} (h : Regrouped S s xs ys) :
    s.report S xs = s.report S ys ∧ s.play S xs = s.play S ys := by
  induction h with
  | rel _ _ hedit => exact hedit.same
  | refl _ => exact ⟨rfl, rfl⟩
  | symm _ _ _ ih => exact ⟨ih.1.symm, ih.2.symm⟩
  | trans _ _ _ _ _ hfirst hsecond => exact ⟨hfirst.1.trans hsecond.1, hfirst.2.trans hsecond.2⟩

/-- A sink that runs full within the second frame: a flush at the start, a write of nothing and a cut in each of the two writes
make no difference. -/
theorem report_regrouped_sample :
    let s := start Sample.key.toPublicKey ({ budget := some 200, mostPerWrite := some 7 } : Script) (.cycle [7])
    let xs : List (Cue Script) := [.aside (.write [1, 2, 3]), .told (.operate .flush), .aside (.write [4, 5]),
      .told (.operate .close)]
    let ys : List (Cue Script) := [.aside .flushFrame, .aside (.write [1]), .aside (.writeAll []), .aside (.write [2, 3]),
      .told (.operate .flush), .aside (.writeAll [4]), .aside (.write [5]), .told (.operate .close)]
    Regrouped Script.sink s xs ys ∧
      s.report Script.sink xs = s.report Script.sink ys ∧ s.play Script.sink xs = s.play Script.sink ys := by
  intro s xs ys
  have hidle : s.Idle := by
    rintro w ⟨⟩
    exact ⟨rfl, rfl⟩
  have hflush : Edit Script.sink s xs (.aside .flushFrame :: xs) := .within [] xs (.flushFrame hidle)
  have hfirst : Edit Script.sink s (.aside .flushFrame :: xs)
      (.aside .flushFrame :: .aside (.write [1]) :: .aside (.write [2, 3]) :: xs.tail) :=
    .within [.aside .flushFrame] xs.tail (.split (.write ([1] ++ [2, 3])) (.write [1]) (.write [2, 3]))
  have hnothing : Edit Script.sink s (.aside .flushFrame :: .aside (.write [1]) :: .aside (.write [2, 3]) :: xs.tail)
      (ys.take 4 ++ xs.tail) :=
    .within (ys.take 2) (.aside (.write [2, 3]) :: xs.tail) (.nothing (.writeAll []))
  have hsecond : Edit Script.sink s (ys.take 4 ++ xs.tail) ys :=
    .within (ys.take 5) [.told (.operate .close)]
      (.split (.write ([4] ++ [5])) (.writeAll [4]) (.write [5]))
  have h : Regrouped Script.sink s xs ys :=
    .trans _ _ _ (.rel _ _ hflush) <| .trans _ _ _ (.rel _ _ hfirst) <| .trans _ _ _ (.rel _ _ hnothing) <|
      .rel _ _ hsecond
  exact ⟨h, report_regrouped h⟩

end Stream

end EnvelopeLog
