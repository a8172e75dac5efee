import EnvelopeLog.Proofs.Frame.Exact

/-!
# Reading frame after frame

A reader is called again and again. What it answers follows from the bytes of its source (`gives_answers_frame`,
`gives_answers_end`, `gives_answers_error`), and once it has met the end or a failure it answers nothing more and reads
nothing more (`calls_of_finished`). So a log of which only the first bytes are there yields the frames that lie wholly within
them, then the end of the log if they end with a frame and else one fault, and nothing after that (`calls_cut`).
-/

namespace EnvelopeLog.Frame

open Source (Gives)

namespace Reader

/-! ## Calls -/

/-- The answers to some calls, and the reader after them. -/
def calls (r : Reader) : Nat → List (Option (Except Error Frame)) × Reader
  | 0 => ([], r)
  | n + 1 => (r.next.1 :: (r.next.2.calls n).1, (r.next.2.calls n).2)

/-- A reader that has finished answers nothing and leaves its source as it is. -/
theorem calls_of_finished {r : Reader} (h : r.finished) (n : Nat) : r.calls n = (List.replicate n none, r) := by
  have hnext : r.next = (none, r) := by rw [next, if_pos h]
  induction n with
  | zero => rfl
  | succ n ih => rw [calls, hnext, ih, List.replicate_succ]

/-- The answers of a new reader to some calls, and what they leave of its source. -/
def answers (nonceLength limit n : Nat) (s : Source) : List (Option (Except Error Frame)) × Source :=
  let r : Reader := { source := s, nonceLength, limit }
  ((r.calls n).1, (r.calls n).2.source)

variable {nonceLength limit n m : Nat} {b : Bytes} {e : Option IoFault}

theorem gives_answers_zero (nonceLength limit : Nat) (b : Bytes) (e : Option IoFault) :
    Gives (answers nonceLength limit 0) b e [] 0 :=
  ⟨Nat.zero_le _, fun s _ => ⟨s, rfl, .refl s⟩⟩

/-- The end of the log is the last that is read. -/
theorem gives_answers_end (h : Gives (read nonceLength limit).run b e (.ok none) m) (n : Nat) :
    Gives (answers nonceLength limit (n + 1)) b e (none :: List.replicate n none) m := by
  refine h.last fun s s' hrun => ?_
  have hnext : next { source := s, nonceLength, limit } =
      (none, { source := s', nonceLength, limit, finished := true }) := by
    rw [next, if_neg (by simp), hrun]
  rw [answers, calls, hnext, calls_of_finished rfl]

/-- A failure is the last that is read. -/
theorem gives_answers_error {error : Error} (h : Gives (read nonceLength limit).run b e (.error error) m) (n : Nat) :
    Gives (answers nonceLength limit (n + 1)) b e (some (.error error) :: List.replicate n none) m := by
  refine h.last fun s s' hrun => ?_
  have hnext : next { source := s, nonceLength, limit } =
      (some (.error error), { source := s', nonceLength, limit, finished := true }) := by
    rw [next, if_neg (by simp), hrun]
  rw [answers, calls, hnext, calls_of_finished rfl]

/-- After a frame the reader goes on with what follows it. -/
theorem gives_answers_frame {f : Frame} (hw : f.Within nonceLength limit) (he : f.Encodable) {rest : Bytes}
    {later : List (Option (Except Error Frame))} (hrest : Gives (answers nonceLength limit n) rest e later m) :
    Gives (answers nonceLength limit (n + 1)) (f.layout ++ rest) e (some (.ok f) :: later) (f.size + m) := by
  refine (gives_layout hw he rest e).seq f.layout_length hrest fun s s' s'' hrun hlater => ?_
  have hnext : next { source := s, nonceLength, limit } =
      (some (.ok f), { source := s', nonceLength, limit }) := by
    rw [next, if_neg (by simp), hrun]
  rw [answers, Prod.mk.injEq] at hlater
  rw [answers, calls, hnext, hlater.1, hlater.2]

end Reader

/-! ## Frames one after the other -/

/-- The encodings of frames, one after the other. -/
def encodeAll : List Frame → Except FrameFault Bytes
  | [] => .ok []
  | f :: later => do
    let encoding ← f.encode
    let encodings ← encodeAll later
    pure (encoding ++ encodings)

/-- How many bytes frames take. -/
def sizes (frames : List Frame) : Nat := (frames.map size).sum

/-- Frames are encoded exactly if each of them can be, one behind the other. -/
theorem encodeAll_eq_ok_iff {frames : List Frame} {b : Bytes} :
    encodeAll frames = .ok b ↔ (∀ f ∈ frames, f.Encodable) ∧ b = frames.flatMap layout := by
  induction frames generalizing b with
  | nil =>
    rw [encodeAll, Except.ok.injEq]
    exact ⟨fun h => ⟨by simp, h.symm⟩, fun h => h.2.symm⟩
  | cons f later ih =>
    rw [encodeAll, List.forall_mem_cons, List.flatMap_cons]
    constructor
    · intro h
      cases hencode : f.encode with
      | error fault =>
        rw [hencode] at h
        cases h
      | ok encoding =>
        cases hlater : encodeAll later with
        | error fault =>
          rw [hencode, hlater] at h
          cases h
        | ok encodings =>
          rw [hencode, hlater] at h
          cases h
          obtain ⟨he, rfl⟩ := encode_eq_ok_iff.mp hencode
          obtain ⟨hall, rfl⟩ := ih.mp hlater
          exact ⟨⟨he, hall⟩, rfl⟩
    · rintro ⟨⟨he, hall⟩, rfl⟩
      rw [encode_eq_ok_iff.mpr ⟨he, rfl⟩, ih.mpr ⟨hall, rfl⟩]
      rfl

/-- Layouts one behind the other are as long as the sizes of their frames say. -/
theorem flatMap_layout_length (frames : List Frame) : (frames.flatMap layout).length = sizes frames := by
  rw [List.length_flatMap, sizes]
  exact congrArg List.sum (List.map_congr_left fun f _ => f.layout_length)

/-- No layout is empty or the beginning of another one, so the frames can be told from their layouts. -/
theorem flatMap_layout_inj {nonceLength : Nat} {frames others : List Frame}
    (hframes : ∀ f ∈ frames, f.Encodable ∧ f.nonce.length = nonceLength)
    (hothers : ∀ f ∈ others, f.Encodable ∧ f.nonce.length = nonceLength)
    (h : frames.flatMap layout = others.flatMap layout) : frames = others := by
  induction frames generalizing others with
  | nil =>
    cases others with
    | nil => rfl
    | cons g others => exact absurd (List.append_eq_nil_iff.mp h.symm).1 g.layout_ne_nil
  | cons f frames ih =>
    cases others with
    | nil => exact absurd (List.append_eq_nil_iff.mp h).1 f.layout_ne_nil
    | cons g others =>
      obtain ⟨⟨hf, hfn⟩, hframes⟩ := List.forall_mem_cons.mp hframes
      obtain ⟨⟨hg, hgn⟩, hothers'⟩ := List.forall_mem_cons.mp hothers
      rw [List.flatMap_cons, List.flatMap_cons] at h
      obtain ⟨rfl, hlater⟩ := layout_inj hf hg (hfn.trans hgn.symm) h
      rw [ih hframes hothers' hlater]

theorem sizes_cons (f : Frame) (frames : List Frame) : sizes (f :: frames) = f.size + sizes frames := rfl

/-! ## Cuts -/

/-- Where a cut after `c` bytes falls: the frames that lie wholly before it, and the others. -/
structure CutAt (c : Nat) (frames before later : List Frame) : Prop where
  split : frames = before ++ later
  within : sizes before ≤ c
  beyond : ∀ f ∈ later.head?, c < sizes before + f.size

/-- What a reader meets after the frames before a cut: the end at the boundary of two frames, and else a fault. -/
inductive EndsAs (c : Nat) (before : List Frame) : Option (Except Error Frame) → Prop where
  | boundary (h : c = sizes before) : EndsAs c before none
  | torn (h : c ≠ sizes before) (fault : FrameFault) :
    EndsAs c before (some (.error (.library (.framing (.cause fault)))))

theorem CutAt.cons {c : Nat} {frames before later : List Frame} (h : CutAt c frames before later) (f : Frame) :
    CutAt (f.size + c) (f :: frames) (f :: before) later where
  split := by rw [h.split, List.cons_append]
  within := by
    rw [sizes_cons]
    exact Nat.add_le_add_left h.within _
  beyond := by
    intro g hg
    rw [sizes_cons, Nat.add_assoc]
    exact Nat.add_lt_add_left (h.beyond g hg) _

theorem EndsAs.cons {c : Nat} {before : List Frame} {last : Option (Except Error Frame)} (h : EndsAs c before last)
    (f : Frame) : EndsAs (f.size + c) (f :: before) last := by
  cases h with
  | boundary h => exact .boundary (by rw [sizes_cons, h])
  | torn h fault =>
    refine .torn ?_ fault
    rw [sizes_cons]
    omega

variable {nonceLength limit c : Nat}

/-- A cut before the end of the first frame is the end of the log if nothing is left, and else a fault. -/
theorem exists_gives_first {f : Frame} (hw : f.Within nonceLength limit) (he : f.Encodable) (hc : c < f.size) :
    ∃ last, EndsAs c [] last ∧ ∀ n,
      Gives (Reader.answers nonceLength limit (n + 1)) (f.layout.take c) none (last :: List.replicate n none) c := by
  have hlength : (f.layout.take c).length = c := by
    rw [List.length_take, f.layout_length]
    omega
  by_cases hzero : c = 0
  · subst hzero
    exact ⟨none, .boundary rfl, Reader.gives_answers_end (gives_end nonceLength limit none)⟩
  · have hne : f.layout.take c ≠ [] := by
      rw [← List.length_pos_iff]
      omega
    have hstrict : f.layout.take c ≠ f.layout := by
      intro hwhole
      rw [hwhole, f.layout_length] at hlength
      omega
    obtain ⟨fault, -, hbad⟩ := exists_torn hw he hne (List.take_prefix _ _) hstrict
    rw [hlength] at hbad
    exact ⟨_, .torn hzero fault, Reader.gives_answers_error (gives_malformed hbad none)⟩

/-- The first bytes of the layouts of frames yield the frames that lie wholly within them, and then the end or a fault. -/
theorem exists_gives_cut (frames : List Frame) (hw : ∀ f ∈ frames, f.Within nonceLength limit)
    (he : ∀ f ∈ frames, f.Encodable) (hc : c ≤ sizes frames) :
    ∃ before later last, CutAt c frames before later ∧ EndsAs c before last ∧
      ∀ n, Gives (Reader.answers nonceLength limit (before.length + (n + 1))) ((frames.flatMap layout).take c) none
        (before.map (some ∘ .ok) ++ last :: List.replicate n none) c := by
  induction frames generalizing c with
  | nil =>
    obtain rfl : c = 0 := Nat.le_zero.mp hc
    refine ⟨[], [], none, ⟨rfl, Nat.le_refl _, by simp⟩, .boundary rfl, fun n => ?_⟩
    rw [List.length_nil, Nat.zero_add]
    exact Reader.gives_answers_end (gives_end nonceLength limit none) n
  | cons f frames ih =>
    obtain ⟨hwf, hw⟩ := List.forall_mem_cons.mp hw
    obtain ⟨hef, he⟩ := List.forall_mem_cons.mp he
    rw [List.flatMap_cons]
    by_cases hfirst : c < f.size
    · obtain ⟨last, hends, hgives⟩ := exists_gives_first hwf hef hfirst
      refine ⟨[], f :: frames, last, ⟨rfl, Nat.zero_le _, by simpa [sizes] using hfirst⟩, hends, fun n => ?_⟩
      rw [List.take_append_of_le_length (by rw [f.layout_length]; omega), List.length_nil, Nat.zero_add]
      exact hgives n
    · obtain ⟨c, rfl⟩ := Nat.exists_eq_add_of_le (Nat.le_of_not_lt hfirst)
      rw [sizes_cons] at hc
      obtain ⟨before, later, last, hcut, hends, hgives⟩ := ih hw he (Nat.le_of_add_le_add_left hc)
      refine ⟨f :: before, later, last, hcut.cons f, hends.cons f, fun n => ?_⟩
      rw [← f.layout_length, List.take_length_add_append, f.layout_length, List.length_cons, Nat.add_right_comm]
      exact Reader.gives_answers_frame hwf hef (hgives n)

/-- Frames within the limits, cut anywhere: however the bytes before the cut are delivered, a reader yields the frames that
lie wholly before it, unchanged and in order, then the end or one fault, and then nothing more, nor does it read any more. So
frames can be told from their encodings. -/
theorem calls_cut {frames : List Frame} (hframes : ∀ f ∈ frames, f.Fitting nonceLength limit) :
    ∃ b, encodeAll frames = .ok b ∧
      (∀ c ≤ b.length, ∀ s : Source, s.unread = b.take c → s.mostPerRead ≠ some 0 → s.failure = none →
        ∃ before later last, CutAt c frames before later ∧ EndsAs c before last ∧ ∀ n, ∃ r : Reader,
          Reader.calls { source := s, nonceLength, limit } (before.length + (n + 1)) =
            (before.map (some ∘ .ok) ++ last :: List.replicate n none, r) ∧ s.Moved c r.source) ∧
      ∀ others : List Frame, (∀ f ∈ others, f.nonce.length = nonceLength) → encodeAll others = .ok b →
        others = frames := by
  have hw : ∀ f ∈ frames, f.Within nonceLength limit := fun f hf => (hframes f hf).within
  have he : ∀ f ∈ frames, f.Encodable := fun f hf => (hframes f hf).encodable
  refine ⟨frames.flatMap layout, encodeAll_eq_ok_iff.mpr ⟨he, rfl⟩, ?_, ?_⟩
  · intro c hc s hunread hmost hclear
    rw [flatMap_layout_length] at hc
    obtain ⟨before, later, last, hcut, hends, hgives⟩ := exists_gives_cut frames hw he hc
    refine ⟨before, later, last, hcut, hends, fun n => ?_⟩
    obtain ⟨hanswers, hmoved⟩ := (hgives n).apply (s := s) (.ending hmost hunread (by simp [hclear]))
    exact ⟨_, Prod.ext hanswers rfl, hmoved⟩
  · intro others hnonce hothers
    obtain ⟨hothers, hsame⟩ := encodeAll_eq_ok_iff.mp hothers
    exact flatMap_layout_inj (fun f hf => ⟨hothers f hf, hnonce f hf⟩) (fun f hf => ⟨he f hf, (hw f hf).nonce⟩) hsame.symm

/-- Two frames of which `Sample.source` has the first 13 bytes. -/
def Sample.frames : List Frame := [⟨[7, 8], [9], [6]⟩, ⟨[1, 2, 3, 4, 5], [1], []⟩]

/-- A cut within the second frame: the first frame, one fault, and then the end at every call. -/
theorem calls_cut_sample :
    (∀ f ∈ Sample.frames, f.Fitting 1 9) ∧ (∃ b, encodeAll Sample.frames = .ok b ∧ Sample.source.unread = b.take 13) ∧
      ∃ fault r, Reader.calls { source := Sample.source, nonceLength := 1, limit := 9 } 4 =
        ([some (.ok ⟨[7, 8], [9], [6]⟩), some (.error (.library (.framing (.cause fault)))), none, none], r) ∧
          Sample.source.Moved 13 r.source := by
  have hframes : ∀ f ∈ Sample.frames, f.Fitting 1 9 := by
    simp only [Sample.frames, List.forall_mem_cons]
    exact ⟨⟨rfl, by decide, by decide⟩, ⟨rfl, by decide, by decide⟩, by simp⟩
  obtain ⟨b, hencode, hcuts, -⟩ := calls_cut hframes
  cases hencode
  refine ⟨hframes, ⟨_, rfl, rfl⟩, ?_⟩
  obtain ⟨before, later, last, hcut, hends, hcalls⟩ := hcuts 13 (by decide) Sample.source rfl (by decide) rfl
  obtain ⟨hsplit, hwithin, hbeyond⟩ := hcut
  obtain ⟨rfl, rfl⟩ : before = [⟨[7, 8], [9], [6]⟩] ∧ later = [⟨[1, 2, 3, 4, 5], [1], []⟩] := by
    match before with
    | [] =>
      cases hsplit
      exact absurd (hbeyond _ rfl) (by decide)
    | [_] =>
      cases hsplit
      exact ⟨rfl, rfl⟩
    | f :: g :: before =>
      obtain ⟨rfl, rfl, hmore⟩ : _ = f ∧ _ = g ∧ [] = before ++ later := by
        simpa [Sample.frames] using hsplit
      obtain ⟨rfl, rfl⟩ := List.append_eq_nil_iff.mp hmore.symm
      exact absurd hwithin (by decide)
  obtain ⟨r, hcalls, hmoved⟩ := hcalls 2
  cases hends with
  | boundary h => cases h
  | torn _ fault => exact ⟨fault, r, hcalls, hmoved⟩

end EnvelopeLog.Frame
