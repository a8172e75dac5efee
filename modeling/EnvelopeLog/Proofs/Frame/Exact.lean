import EnvelopeLog.Proofs.Frame

/-!
# The codec of frames is exact

A source that does not fail yields a frame exactly if the encoding of that frame, within the limits of the reader, is what
comes next, and then it is left at the end of that encoding. It yields the end of the log exactly if nothing comes next. All
else is a fault of a frame: bytes that end too early are read to their end, and a length over the limit stops the reader at
the end of that length (`read_exact`).
-/

namespace EnvelopeLog.Frame

variable {nonceLength limit n : Nat} {b : Bytes} {fault : FrameFault}

/-! ## Encodings at the front -/

/-- Bytes that begin with the encoding of a frame within the limits, with what comes after it. -/
def Begins (nonceLength limit : Nat) (b : Bytes) (f : Frame) (rest : Bytes) : Prop :=
  f.Within nonceLength limit ∧ ∃ encoding, f.encode = .ok encoding ∧ b = encoding ++ rest

/-- A frame begins some bytes exactly if it is within the limit and its layout stands in front. -/
theorem begins_iff {f : Frame} {rest : Bytes} :
    Begins nonceLength limit b f rest ↔ f.Within nonceLength limit ∧ f.Encodable ∧ b = f.layout ++ rest := by
  constructor
  · rintro ⟨hw, encoding, hencode, hb⟩
    obtain ⟨he, rfl⟩ := encode_eq_ok_iff.mp hencode
    exact ⟨hw, he, hb⟩
  · rintro ⟨hw, he, hb⟩
    exact ⟨hw, f.layout, encode_eq_ok_iff.mpr ⟨he, rfl⟩, hb⟩

/-- A frame that can be encoded and is within the limits of a reader. -/
structure Fitting (nonceLength limit : Nat) (f : Frame) : Prop where
  nonce : f.nonce.length = nonceLength
  wrappedKey : f.wrappedKey.length ≤ min limit 0xffffffff
  cipherText : f.cipherText.length ≤ min limit 0xffffffff

theorem Fitting.within {f : Frame} (h : f.Fitting nonceLength limit) : f.Within nonceLength limit where
  nonce := h.nonce
  wrappedKey := h.wrappedKey.trans (Nat.min_le_left _ _)
  cipherText := h.cipherText.trans (Nat.min_le_left _ _)

theorem Fitting.encodable {f : Frame} (h : f.Fitting nonceLength limit) : f.Encodable where
  wrappedKey := Nat.lt_of_le_of_lt (h.wrappedKey.trans (Nat.min_le_right _ _)) (by decide)
  cipherText := Nat.lt_of_le_of_lt (h.cipherText.trans (Nat.min_le_right _ _)) (by decide)

/-! ## Where a fault is found -/

/-- The bytes of a frame before the length of a field. -/
inductive Precedes (nonceLength limit : Nat) : FrameField → Bytes → Prop where
  | wrappedKey : Precedes nonceLength limit .wrappedKey []
  | cipherText {start key nonce : Bytes} (prefixed : Prefixed limit start key) (whole : nonce.length = nonceLength) :
    Precedes nonceLength limit .cipherText (start ++ (key ++ nonce))

/-- A fault and how many bytes it takes to find it: all of them if they end too early, and else those up to the end of a
length that is over the limit. -/
inductive Stops (nonceLength limit : Nat) (b : Bytes) : FrameFault → Nat → Prop where
  | torn {fault : FrameFault} (torn : fault.isTorn) : Stops nonceLength limit b fault b.length
  | overLimit {field : FrameField} {before start rest : Bytes} (precedes : Precedes nonceLength limit field before)
      (width : start.length = lengthSize) (exceeds : limit < Bytes.fromLittleEndian start)
      (bytes : b = before ++ (start ++ rest)) :
    Stops nonceLength limit b (.overLimit field (Bytes.fromLittleEndian start) limit) (before.length + lengthSize)

/-- A field is bad because its length is over the limit, or because the bytes end too early. -/
theorem BadField.stops {field : FrameField} {before start : Bytes} (precedes : Precedes nonceLength limit field before)
    (width : start.length = lengthSize) (h : BadField field (Bytes.fromLittleEndian start) limit b fault n) :
    Stops nonceLength limit (before ++ (start ++ b)) fault (before.length + (start.length + n)) := by
  cases h with
  | overLimit hover =>
    rw [Nat.add_zero, width]
    exact .overLimit precedes width hover rfl
  | truncated hwithin hshort =>
    rw [← List.length_append, ← List.length_append]
    exact .torn rfl

/-- A reader of bad bytes stops at the first field that is bad. -/
theorem Malformed.stops (h : Malformed nonceLength limit b fault n) : Stops nonceLength limit b fault n := by
  cases h with
  | tornStart => exact .torn rfl
  | @wrappedKey start b fault n hwidth hbad =>
    have hstops : Stops nonceLength limit ([] ++ (start ++ b)) fault (0 + (start.length + n)) :=
      hbad.stops .wrappedKey hwidth
    rw [List.nil_append, Nat.zero_add] at hstops
    exact hstops
  | tornNonce =>
    rw [← List.length_append, ← List.length_append]
    exact .torn rfl
  | tornLength =>
    rw [← List.length_append, ← List.length_append, ← List.length_append]
    exact .torn rfl
  | cipherText hkey hnonce hmiddle hbad =>
    have hstops := hbad.stops (.cipherText hkey hnonce) hmiddle
    simp only [List.append_assoc, List.length_append, Nat.add_assoc] at hstops
    exact hstops

/-- A length over the limit stops the reader whatever comes after it. -/
theorem Malformed.append (h : Malformed nonceLength limit b fault n) (hfault : fault.isTorn = false) (more : Bytes) :
    Malformed nonceLength limit (b ++ more) fault n := by
  cases h with
  | tornStart => cases hfault
  | wrappedKey hwidth hbad =>
    cases hbad with
    | overLimit hover =>
      rw [List.append_assoc]
      exact .wrappedKey hwidth (.overLimit hover)
    | truncated => cases hfault
  | tornNonce => cases hfault
  | tornLength => cases hfault
  | cipherText hkey hnonce hmiddle hbad =>
    cases hbad with
    | overLimit hover =>
      simp only [List.append_assoc]
      exact .cipherText hkey hnonce hmiddle (.overLimit hover)
    | truncated => cases hfault

/-- A strict beginning of the layout of a frame within the limits ends too early, and is read to its end. It is not over a
limit, as the whole layout would then be refused as well. -/
theorem exists_torn {f : Frame} {tail : Bytes} (hw : f.Within nonceLength limit) (he : f.Encodable) (hne : tail ≠ [])
    (hbegins : tail <+: f.layout) (hstrict : tail ≠ f.layout) :
    ∃ fault, fault.isTorn ∧ Malformed nonceLength limit tail fault tail.length := by
  obtain ⟨fault, n, hbad⟩ : ∃ fault n, Malformed nonceLength limit tail fault n :=
    hw.nonce ▸ malformed_of_torn he hne hbegins hstrict
  cases htorn : fault.isTorn with
  | true =>
    refine ⟨fault, htorn, ?_⟩
    cases hbad.stops with
    | torn => exact hbad
    | overLimit => cases htorn
  | false =>
    obtain ⟨missing, hmissing⟩ := hbegins
    have hrefused := read_malformed (hmissing ▸ hbad.append htorn missing) 0
    have hread := read_layout hw he 0 []
    rw [List.append_nil, hrefused] at hread
    cases hread

/-! ## One frame -/

/-- At the end, before a frame or before something bad: there is no fourth case. -/
theorem exists_case (nonceLength limit : Nat) (b : Bytes) :
    b = [] ∨ (∃ f rest, Begins nonceLength limit b f rest) ∨ ∃ fault n, Malformed nonceLength limit b fault n := by
  simpa only [begins_iff] using exists_reading nonceLength limit b

/-- An answer about the next frame and what is left of the source, in each of the three cases. -/
structure Decided (nonceLength limit : Nat) (s : Source) (answer : Except Error (Option Frame)) (s' : Source) : Prop where
  ended : s.unread = [] → answer = .ok none ∧ s.Moved 0 s'
  frame : ∀ f rest, Begins nonceLength limit s.unread f rest → answer = .ok (some f) ∧ s.Moved f.size s'
  refused : ∀ fault n, Malformed nonceLength limit s.unread fault n →
    answer = .error (.library (.framing (.cause fault))) ∧ s.Moved n s'

/-- Reading from a source that does not fail is decided by its bytes. -/
theorem decided_read (nonceLength limit : Nat) {s : Source} (hs : s.Delivers s.unread none) :
    Decided nonceLength limit s ((read nonceLength limit).run s).1 ((read nonceLength limit).run s).2 where
  ended := by
    intro hnil
    rw [hnil] at hs
    exact (gives_end nonceLength limit none).apply hs
  frame := by
    intro f rest hbegins
    obtain ⟨hw, he, hb⟩ := begins_iff.mp hbegins
    rw [hb] at hs
    exact (gives_layout hw he rest none).apply hs
  refused := fun fault n hbad => (gives_malformed hbad none).apply hs

namespace Decided

variable {s s' : Source} {answer : Except Error (Option Frame)}

/-- No two cases have an answer in common, so an answer tells the case: the end of the log. -/
theorem unread_eq_nil (h : Decided nonceLength limit s answer s') (hanswer : answer = .ok none) : s.unread = [] := by
  subst hanswer
  rcases exists_case nonceLength limit s.unread with hnil | ⟨f, rest, hbegins⟩ | ⟨fault, n, hbad⟩
  · exact hnil
  · cases (h.frame f rest hbegins).1
  · cases (h.refused fault n hbad).1

/-- A frame is read only where one begins. -/
theorem exists_begins {f : Frame} (h : Decided nonceLength limit s answer s') (hanswer : answer = .ok (some f)) :
    ∃ rest, Begins nonceLength limit s.unread f rest := by
  subst hanswer
  rcases exists_case nonceLength limit s.unread with hnil | ⟨g, rest, hbegins⟩ | ⟨fault, n, hbad⟩
  · cases (h.ended hnil).1
  · cases (h.frame g rest hbegins).1
    exact ⟨rest, hbegins⟩
  · cases (h.refused fault n hbad).1

/-- A fault is reported only where the bytes are bad. -/
theorem exists_malformed (h : Decided nonceLength limit s answer s')
    (hanswer : answer = .error (.library (.framing (.cause fault)))) :
    ∃ n, Malformed nonceLength limit s.unread fault n := by
  subst hanswer
  rcases exists_case nonceLength limit s.unread with hnil | ⟨f, rest, hbegins⟩ | ⟨other, n, hbad⟩
  · cases (h.ended hnil).1
  · cases (h.frame f rest hbegins).1
  · cases (h.refused other n hbad).1
    exact ⟨n, hbad⟩

end Decided

/-- An answer about the next frame of a source and what is left of the source, as the bytes to be read decide. -/
structure Exact (nonceLength limit : Nat) (s : Source) (answer : Except Error (Option Frame)) (s' : Source) : Prop where
  /-- The log ends exactly where nothing is left. -/
  ends : answer = .ok none ↔ s.unread = []
  ends_moved : answer = .ok none → s.Moved 0 s'
  /-- A frame is read exactly if its encoding comes next, and nothing of what follows is. -/
  frame : ∀ f, answer = .ok (some f) ↔ ∃ rest, Begins nonceLength limit s.unread f rest
  frame_moved : ∀ f rest, Begins nonceLength limit s.unread f rest → s.Moved f.size s' ∧ s'.unread = rest
  /-- What was read is the encoding of the frame. -/
  frame_encode : ∀ f, answer = .ok (some f) → f.encode = .ok (s.unread.take f.size)
  /-- What neither is nothing nor begins with a frame is refused. -/
  refused : (∃ fault, answer = .error (.library (.framing (.cause fault)))) ↔
    s.unread ≠ [] ∧ ∀ f rest, ¬Begins nonceLength limit s.unread f rest
  /-- The fault and the bytes that it takes to find it are those of the first piece that is missing or over the limit. -/
  refused_iff : ∀ fault, answer = .error (.library (.framing (.cause fault))) ↔
    ∃ n, Malformed nonceLength limit s.unread fault n
  refused_moved : ∀ fault n, Malformed nonceLength limit s.unread fault n →
    s.Moved n s' ∧ Stops nonceLength limit s.unread fault n
  /-- Decoding undoes encoding, whatever bytes follow. -/
  decode_encode : ∀ f : Frame, f.Fitting nonceLength limit → ∃ encoding, f.encode = .ok encoding ∧
    ∀ rest, s.unread = encoding ++ rest → answer = .ok (some f) ∧ s'.unread = rest

/-- The next frame of a source that makes progress and does not fail is what its bytes say, however they are delivered. -/
theorem read_exact (nonceLength limit : Nat) {s : Source} (hmost : s.mostPerRead ≠ some 0) (hclear : s.failure = none) :
    Exact nonceLength limit s ((read nonceLength limit).run s).1 ((read nonceLength limit).run s).2 := by
  have hdecided := decided_read nonceLength limit (.ending hmost rfl (by simp [hclear]))
  generalize (read nonceLength limit).run s = reply at hdecided ⊢
  obtain ⟨answer, s'⟩ := reply
  have hfront (f : Frame) (rest : Bytes) (h : Begins nonceLength limit s.unread f rest) :
      s'.unread = rest ∧ f.encode = .ok (s.unread.take f.size) := by
    obtain ⟨-, he, hb⟩ := begins_iff.mp h
    refine ⟨?_, encode_eq_ok_iff.mpr ⟨he, ?_⟩⟩
    · rw [(hdecided.frame f rest h).2.unread, hb, List.drop_left' f.layout_length]
    · rw [hb, List.take_left' f.layout_length]
  constructor
  case ends => exact ⟨hdecided.unread_eq_nil, fun hnil => (hdecided.ended hnil).1⟩
  case ends_moved => exact fun hanswer => (hdecided.ended (hdecided.unread_eq_nil hanswer)).2
  case frame => exact fun f => ⟨hdecided.exists_begins, fun ⟨rest, h⟩ => (hdecided.frame f rest h).1⟩
  case frame_moved => exact fun f rest h => ⟨(hdecided.frame f rest h).2, (hfront f rest h).1⟩
  case frame_encode =>
    intro f hanswer
    obtain ⟨rest, hbegins⟩ := hdecided.exists_begins hanswer
    exact (hfront f rest hbegins).2
  case refused =>
    constructor
    · rintro ⟨fault, rfl⟩
      refine ⟨fun hnil => ?_, fun f rest hbegins => ?_⟩
      · cases (hdecided.ended hnil).1
      · cases (hdecided.frame f rest hbegins).1
    · rintro ⟨hne, hnot⟩
      rcases exists_case nonceLength limit s.unread with hnil | ⟨f, rest, hbegins⟩ | ⟨fault, n, hbad⟩
      · exact absurd hnil hne
      · exact absurd hbegins (hnot f rest)
      · exact ⟨fault, (hdecided.refused fault n hbad).1⟩
  case refused_iff => exact fun fault => ⟨hdecided.exists_malformed, fun ⟨n, h⟩ => (hdecided.refused fault n h).1⟩
  case refused_moved => exact fun fault n h => ⟨(hdecided.refused fault n h).2, h.stops⟩
  case decode_encode =>
    intro f hfitting
    have hencode := encode_eq_ok_iff.mpr ⟨hfitting.encodable, rfl⟩
    refine ⟨f.layout, hencode, fun rest hb => ?_⟩
    have hbegins : Begins nonceLength limit s.unread f rest := ⟨hfitting.within, f.layout, hencode, hb⟩
    exact ⟨(hdecided.frame f rest hbegins).1, (hfront f rest hbegins).1⟩

/-- A source that delivers one byte at a time and is interrupted twice: a frame and one more byte. -/
def Sample.source : Source where
  unread := [2, 0, 0, 0, 7, 8, 9, 1, 0, 0, 0, 6, 5]
  mostPerRead := some 1
  interrupts := [0, 6]

/-- A source that interrupts and delivers one byte at a time gives the frame in front of it and keeps the rest. -/
theorem read_exact_sample :
    Sample.source.mostPerRead ≠ some 0 ∧ Sample.source.failure = none ∧
      ((read 1 2).run Sample.source).1 = .ok (some ⟨[7, 8], [9], [6]⟩) ∧
      ((read 1 2).run Sample.source).2.unread = [5] := by
  have hexact := read_exact 1 2 (s := Sample.source) (by decide) rfl
  have hbegins : Begins 1 2 Sample.source.unread ⟨[7, 8], [9], [6]⟩ [5] :=
    ⟨⟨rfl, by decide, by decide⟩, _, rfl, rfl⟩
  exact ⟨by decide, rfl, (hexact.frame _).mpr ⟨_, hbegins⟩, (hexact.frame_moved _ _ hbegins).2⟩

end EnvelopeLog.Frame
