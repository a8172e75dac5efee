import EnvelopeLog.Proofs.Frame.Reader
import EnvelopeLog.Proofs.Log

/-!
# The manner of delivery does not count

Reading a frame, calling a reader and opening a log give the same answer for sources over the same data, whatever the size of
the reads and wherever they are interrupted, and leave them at the same position. A source that fails is as good as one that
ends in that place, but for the answers that say that the bytes end: these become the failure (`Alike.same_answers`).
-/

namespace EnvelopeLog

/-! ## Uses of a source -/

namespace Source

/-- A use whose answer follows from the bytes before the end or the failure: `atFailure` says what becomes of the answer about
bytes that end if the source fails in that place. -/
def Follows {α : Type} (use : Source → α × Source) (atFailure : IoFault → α → α) : Prop :=
  ∀ b, ∃ answer n, Gives use b none answer n ∧ ∀ io, Gives use b (some io) (atFailure io answer) n

/-- Two sources give the same answer and are left over the same data. -/
structure Same {α : Type} (use : Source → α × Source) (s t : Source) : Prop where
  answer : (use s).1 = (use t).1
  left : (use s).2.Alike (use t).2

/-- The source that ends at a position before which it does not fail. -/
def cut (s : Source) (position : Nat) : Source :=
  { s with unread := s.unread.take (position - s.position), failure := none, final := final_of_none }

/-- A source that fails at a position is as good as one that ends there, but for what becomes of the answer. -/
structure FailsLike {α : Type} (use : Source → α × Source) (atFailure : IoFault → α → α) (s : Source) (position : Nat)
    (fault : IoFault) : Prop where
  answer : (use s).1 = atFailure fault (use (s.cut position)).1
  left : (use s).2.position = (use (s.cut position)).2.position

namespace Follows

variable {α : Type} {use : Source → α × Source} {atFailure : IoFault → α → α} {s t : Source}

/-- The manner of delivery does not count. -/
theorem same (h : Follows use atFailure) (hst : s.Alike t) (hs : s.mostPerRead ≠ some 0) (ht : t.mostPerRead ≠ some 0) :
    Same use s t := by
  obtain ⟨b, e, hdelivers⟩ := exists_delivers hs
  obtain ⟨answer, n, hgives⟩ : ∃ answer n, Gives use b e answer n := by
    obtain ⟨answer, n, hend, hfail⟩ := h b
    cases e with
    | none => exact ⟨answer, n, hend⟩
    | some io => exact ⟨_, n, hfail io⟩
  obtain ⟨hsanswer, hsmoved⟩ := hgives.apply hdelivers
  obtain ⟨htanswer, htmoved⟩ := hgives.apply (hst.delivers hdelivers ht)
  exact ⟨hsanswer.trans htanswer.symm, hst.moved hsmoved htmoved⟩

/-- What comes after a failure does not count. -/
theorem failsLike (h : Follows use atFailure) {position : Nat} {fault : IoFault} (hs : s.mostPerRead ≠ some 0)
    (hfailure : s.failure = some (position, fault)) (hfrom : s.position ≤ position)
    (hto : position ≤ s.position + s.unread.length) : FailsLike use atFailure s position fault := by
  obtain ⟨answer, n, hend, hfail⟩ := h (s.unread.take (position - s.position))
  obtain ⟨hanswer, hmoved⟩ := (hfail fault).apply (delivers_of_failure hs hfailure hfrom hto)
  have hcut : (s.cut position).Delivers (s.unread.take (position - s.position)) none :=
    .ending hs rfl (by simp [cut])
  obtain ⟨hcutanswer, hcutmoved⟩ := hend.apply hcut
  refine ⟨by rw [hanswer, hcutanswer], ?_⟩
  rw [hmoved.position, hcutmoved.position, cut]

end Follows

end Source

/-! ## Frames -/

namespace Frame

variable {nonceLength limit n : Nat}

/-- What becomes of the answer about the next frame if the source fails where its bytes end: the end of the log is not seen
then, nor that a frame is torn. -/
def atFailure (io : IoFault) : Except Error (Option Frame) → Except Error (Option Frame)
  | .ok none => .error (.io io)
  | .ok (some f) => .ok (some f)
  | .error e => .error (e.atFailure io)

/-- Reading a frame gives the same of all sources alike. -/
theorem follows_read (nonceLength limit : Nat) : Source.Follows (read nonceLength limit).run atFailure := by
  intro b
  rcases exists_reading nonceLength limit b with rfl | ⟨f, rest, hw, he, rfl⟩ | ⟨fault, n, hbad⟩
  · exact ⟨_, _, gives_end nonceLength limit none, fun io => gives_end nonceLength limit (some io)⟩
  · exact ⟨_, _, gives_layout hw he rest none, fun io => gives_layout hw he rest (some io)⟩
  · exact ⟨_, _, gives_malformed hbad none, fun io => gives_malformed hbad (some io)⟩

namespace Reader

/-- What becomes of the answers of a reader if the source fails where its bytes end: the first answer that is not a frame
changes, and there is nothing after it. -/
def atFailure (io : IoFault) : List (Option (Except Error Frame)) → List (Option (Except Error Frame))
  | [] => []
  | none :: later => some (.error (.io io)) :: later
  | some (.ok f) :: later => some (.ok f) :: atFailure io later
  | some (.error e) :: later => some (.error (e.atFailure io)) :: later

/-- Asking for frames again and again gives the same of all sources alike. -/
theorem follows_answers (nonceLength limit n : Nat) : Source.Follows (answers nonceLength limit n) atFailure := by
  intro b
  induction n generalizing b with
  | zero => exact ⟨[], 0, gives_answers_zero nonceLength limit b none, fun io => gives_answers_zero nonceLength limit b _⟩
  | succ n ih =>
    rcases exists_reading nonceLength limit b with rfl | ⟨f, rest, hw, he, rfl⟩ | ⟨fault, m, hbad⟩
    · exact ⟨_, _, gives_answers_end (gives_end nonceLength limit none) n,
        fun io => gives_answers_error (gives_end nonceLength limit (some io)) n⟩
    · obtain ⟨later, m, hend, hfail⟩ := ih rest
      exact ⟨_, _, gives_answers_frame hw he hend, fun io => gives_answers_frame hw he (hfail io)⟩
    · exact ⟨_, _, gives_answers_error (gives_malformed hbad none) n,
        fun io => gives_answers_error (gives_malformed hbad (some io)) n⟩

end Reader

end Frame

/-! ## Logs -/

namespace Log

/-- What becomes of the answer about a log if the source fails where its bytes end: there is no payload then. -/
def atFailure (io : IoFault) : Except Error Bytes → Except Error Bytes
  | .ok _ => .error (.io io)
  | .error e => .error (e.atFailure io)

theorem atFailure_ne_ok (io : IoFault) (answer : Except Error Bytes) (payload : Bytes) :
    atFailure io answer ≠ .ok payload := by
  cases answer <;> exact nofun

/-- That a frame does not open is seen before the failure. -/
theorem atFailure_of_openFrame {k : Rsa.PrivateKey} {f : Frame} {fault : Fault} (h : openFrame k f = .error fault)
    (io : IoFault) : Error.atFailure io (.library fault) = .library fault := by
  unfold openFrame at h
  split at h
  · cases h
    rfl
  · split at h
    · cases h
      rfl
    · dsimp only at h
      split at h <;> cases h
      rfl

theorem atFailure_map (io : IoFault) (answer : Except Error Bytes) (g : Bytes → Bytes) :
    atFailure io (answer.map g) = (atFailure io answer).map g := by
  cases answer <;> rfl

/-- Decrypting gives the same of all sources alike. -/
theorem follows_decrypt (k : Rsa.PrivateKey) (limit : Nat) : Source.Follows (decrypt k limit) atFailure := by
  intro b
  induction hlength : b.length using Nat.strong_induction_on generalizing b with
  | _ m ih =>
    rcases Frame.exists_reading KeyMaterial.nonceSize limit b with rfl | ⟨f, rest, hw, he, rfl⟩ | ⟨fault, n, hbad⟩
    · exact ⟨_, _, gives_decrypt_end, fun io => gives_decrypt_error (Frame.gives_end KeyMaterial.nonceSize limit (some io))⟩
    · cases hopen : openFrame k f with
      | error fault =>
        refine ⟨_, _, gives_decrypt_refused hw he hopen rest none, fun io => ?_⟩
        rw [atFailure, atFailure_of_openFrame hopen]
        exact gives_decrypt_refused hw he hopen rest (some io)
      | ok payload =>
        have hpos := List.length_pos_iff.mpr f.layout_ne_nil
        rw [List.length_append] at hlength
        obtain ⟨answer, n, hend, hfail⟩ := ih rest.length (by omega) rest rfl
        refine ⟨_, _, gives_decrypt_opened hw he hopen hend, fun io => ?_⟩
        rw [atFailure_map]
        exact gives_decrypt_opened hw he hopen (hfail io)
    · exact ⟨_, _, gives_decrypt_error (Frame.gives_malformed hbad none),
        fun io => gives_decrypt_error (Frame.gives_malformed hbad (some io))⟩

end Log

/-! ## Independence -/

namespace Source

/-- What a failure within the bytes of a source or right after them does. -/
structure FailsAt (k : Rsa.PrivateKey) (nonceLength limit n : Nat) (s : Source) (position : Nat) (fault : IoFault) : Prop where
  read : FailsLike (Frame.read nonceLength limit).run Frame.atFailure s position fault
  answers : FailsLike (Frame.Reader.answers nonceLength limit n) Frame.Reader.atFailure s position fault
  decrypt : FailsLike (Log.decrypt k limit) Log.atFailure s position fault
  /-- A frame that is there before the failure is read, also if it ends where the failure stands. -/
  frame : ∀ f rest, Frame.Begins nonceLength limit (s.unread.take (position - s.position)) f rest →
    ((Frame.read nonceLength limit).run s).1 = .ok (some f) ∧ s.Moved f.size ((Frame.read nonceLength limit).run s).2
  /-- The failure is the answer unless there is such a frame, or a length over the limit before the failure. -/
  cases : ((Frame.read nonceLength limit).run s).1 = .error (.io fault) ∨
    (∃ f rest, Frame.Begins nonceLength limit (s.unread.take (position - s.position)) f rest ∧
      ((Frame.read nonceLength limit).run s).1 = .ok (some f)) ∨
    ∃ field length, limit < length ∧ ((Frame.read nonceLength limit).run s).1 =
      .error (.library (.framing (.cause (.overLimit field length limit))))
  /-- There is no payload, not even of the frames before the failure. -/
  not_payload : ∀ payload, (Log.decrypt k limit s).1 ≠ .ok payload

/-- A source that fails gives what its data alone would, until its failure is met. -/
theorem failsAt (k : Rsa.PrivateKey) (nonceLength limit n : Nat) {s : Source} {position : Nat} {fault : IoFault}
    (hs : s.mostPerRead ≠ some 0) (hfailure : s.failure = some (position, fault)) (hfrom : s.position ≤ position)
    (hto : position ≤ s.position + s.unread.length) : FailsAt k nonceLength limit n s position fault := by
  have hdecrypt := (Log.follows_decrypt k limit).failsLike hs hfailure hfrom hto
  have hdelivers := delivers_of_failure hs hfailure hfrom hto
  have hframe (f : Frame) (rest : Bytes)
      (hbegins : Frame.Begins nonceLength limit (s.unread.take (position - s.position)) f rest) :
      ((Frame.read nonceLength limit).run s).1 = .ok (some f) ∧
        s.Moved f.size ((Frame.read nonceLength limit).run s).2 := by
    obtain ⟨hw, he, hb⟩ := Frame.begins_iff.mp hbegins
    exact (Frame.gives_layout hw he rest (some fault)).apply (hb ▸ hdelivers)
  constructor
  case read => exact (Frame.follows_read nonceLength limit).failsLike hs hfailure hfrom hto
  case answers => exact (Frame.Reader.follows_answers nonceLength limit n).failsLike hs hfailure hfrom hto
  case decrypt => exact hdecrypt
  case frame => exact hframe
  case cases =>
    rcases Frame.exists_case nonceLength limit (s.unread.take (position - s.position)) with
      hnil | ⟨f, rest, hbegins⟩ | ⟨torn, m, hbad⟩
    · exact .inl ((Frame.gives_end nonceLength limit (some fault)).apply (hnil ▸ hdelivers)).1
    · exact .inr (.inl ⟨f, rest, hbegins, (hframe f rest hbegins).1⟩)
    · have hanswer := ((Frame.gives_malformed hbad (some fault)).apply hdelivers).1
      cases hbad.stops with
      | torn htorn =>
        rw [Frame.complaint_torn htorn] at hanswer
        exact .inl hanswer
      | overLimit _ _ hexceeds =>
        rw [Frame.complaint_eq_of_not_torn rfl] at hanswer
        exact .inr (.inr ⟨_, _, hexceeds, hanswer⟩)
  case not_payload =>
    rw [hdecrypt.answer]
    exact Log.atFailure_ne_ok fault _

/-- Sources over the same data answer alike and are left at the same position, and a failure is found where the bytes before
it end, by whatever reads and interruptions they are delivered. -/
theorem Alike.same_answers {s t : Source} (h : s.Alike t) (hs : s.mostPerRead ≠ some 0) (ht : t.mostPerRead ≠ some 0)
    (k : Rsa.PrivateKey) (nonceLength limit n : Nat) :
    Same (Frame.read nonceLength limit).run s t ∧ Same (Frame.Reader.answers nonceLength limit n) s t ∧
      Same (Log.decrypt k limit) s t ∧
      ∀ position fault, s.failure = some (position, fault) → s.position ≤ position →
        position ≤ s.position + s.unread.length → FailsAt k nonceLength limit n s position fault := by
  refine ⟨?_, ?_, ?_, ?_⟩
  · exact (Frame.follows_read nonceLength limit).same h hs ht
  · exact (Frame.Reader.follows_answers nonceLength limit n).same h hs ht
  · exact (Log.follows_decrypt k limit).same h hs ht
  · intro position fault hfailure hfrom hto
    exact failsAt k nonceLength limit n hs hfailure hfrom hto

/-- The source of a frame and one more byte that fails right after the frame, without interruption. -/
def Sample.smooth : Source where
  unread := [2, 0, 0, 0, 7, 8, 9, 1, 0, 0, 0, 6, 5]
  failure := some (12, .told .connectionReset "gone")
  final := by
    rintro f ⟨⟩
    exact nofun

/-- The same data, byte by byte and with interruptions. -/
def Sample.rough : Source := { Sample.smooth with mostPerRead := some 1, interrupts := [0, 6, 6, 12] }

/-- Both sources give the frame, and neither of them a payload. -/
theorem same_answers_sample :
    Sample.smooth.Alike Sample.rough ∧ Sample.smooth.mostPerRead ≠ some 0 ∧ Sample.rough.mostPerRead ≠ some 0 ∧
      Same (Frame.Reader.answers 1 9 3) Sample.smooth Sample.rough ∧ Same (Log.decrypt default 9) Sample.smooth Sample.rough ∧
      ((Frame.read 1 9).run Sample.rough).1 = .ok (some ⟨[7, 8], [9], [6]⟩) ∧
      ∀ payload, (Log.decrypt default 9 Sample.smooth).1 ≠ .ok payload := by
  have halike : Sample.smooth.Alike Sample.rough := ⟨rfl, rfl, rfl⟩
  obtain ⟨hread, hanswers, hdecrypt, hfails⟩ :=
    halike.same_answers (by decide) (by decide) (default : Rsa.PrivateKey) 1 9 3
  have hfailsAt := hfails 12 _ rfl (by decide) (by decide)
  have hbegins : Frame.Begins 1 9 (Sample.smooth.unread.take 12) ⟨[7, 8], [9], [6]⟩ [] :=
    ⟨⟨rfl, by decide, by decide⟩, _, rfl, rfl⟩
  exact ⟨halike, by decide, by decide, hanswers, hdecrypt, hread.answer.symm.trans (hfailsAt.frame _ _ hbegins).1,
    hfailsAt.not_payload⟩

end Source

end EnvelopeLog
