import EnvelopeLog.Frame
import EnvelopeLog.Proofs.Bytes
import EnvelopeLog.Proofs.Source

/-!
# What is read is what was laid out

Bytes are nothing at all, or begin with the layout of a frame within the limits, or are `Malformed`, which says at what
fault and after how many bytes (`exists_reading`). Reading answers accordingly, however the bytes are delivered
(`gives_end`, `gives_layout`, `gives_malformed`): each step is taken once, for bytes that end and for a source that fails
after them. No layout is the beginning of another one (`layout_inj`), and a torn layout is never taken for a frame
(`malformed_of_torn`).
-/

namespace EnvelopeLog

/-! ## Faults -/

/-- Whether a fault says that the bytes end too early. -/
def FrameFault.isTorn : FrameFault → Bool
  | .tornStart _ | .truncated .. | .tornNonce .. | .tornLength _ => true
  | .overLimit .. | .tooLong _ => false

/-- The error that is met in place of another when the source fails where it would end: an early end is not seen then. -/
def Error.atFailure (io : IoFault) : Error → Error
  | .library (.framing (.cause fault)) => if fault.isTorn then .io io else .library (.framing (.cause fault))
  | e => e

namespace Frame

open Source (Gives)

/-- The error for a fault of a frame, by what comes after the bytes. -/
def complaint (fault : FrameFault) : Option IoFault → Error
  | none => .library (.framing (.cause fault))
  | some io => Error.atFailure io (.library (.framing (.cause fault)))

/-- Where bytes are missing because the source failed, its failure is what is reported. -/
theorem complaint_torn {fault : FrameFault} (h : fault.isTorn) (io : IoFault) : complaint fault (some io) = .io io := by
  rw [complaint, Error.atFailure, if_pos h]

/-- A fault that no missing byte caused is reported however the source ends. -/
theorem complaint_eq_of_not_torn {fault : FrameFault} (h : fault.isTorn = false) (e : Option IoFault) :
    complaint fault e = .library (.framing (.cause fault)) := by
  cases e with
  | none => rfl
  | some io => rw [complaint, Error.atFailure, h]; rfl

/-! ## Steps of reading -/

variable {α β : Type} {b c : Bytes} {e : Option IoFault} {n m : Nat}

theorem gives_pure (a : α) (b : Bytes) (e : Option IoFault) : Gives (pure a : Reading α).run b e (.ok a) 0 :=
  ⟨Nat.zero_le _, fun s _ => ⟨s, rfl, .refl s⟩⟩

theorem gives_refuse {fault : FrameFault} (h : fault.isTorn = false) (b : Bytes) (e : Option IoFault) :
    Gives (refuse fault : Reading α).run b e (.error (complaint fault e)) 0 := by
  rw [complaint_eq_of_not_torn h]
  exact ⟨Nat.zero_le _, fun s _ => ⟨s, rfl, .refl s⟩⟩

/-- A step whose result is only put into a form. -/
theorem gives_map {r : Reading α} {answer : Except Error α} (hr : Gives r.run b e answer n) (f : α → β) :
    Gives (r >>= fun a => pure (f a)).run b e (answer.map f) n := by
  refine hr.last fun s s' hrun => ?_
  rw [run_bind, hrun]
  cases answer <;> rfl

/-- What comes after a step reads on where the step stopped. -/
theorem gives_bind {r : Reading α} {next : α → Reading β} {a : α} {answer : Except Error β}
    (hr : Gives r.run (c ++ b) e (.ok a) c.length) (hn : Gives (next a).run b e answer n) :
    Gives (r >>= next).run (c ++ b) e answer (c.length + n) := by
  refine hr.seq rfl hn fun s s' s'' hrun hnext => ?_
  rw [run_bind, hrun]
  exact hnext

/-- Nothing comes after a step that fails. -/
theorem gives_bind_error {r : Reading α} {next : α → Reading β} {error : Error}
    (hr : Gives r.run b e (.error error) n) : Gives (r >>= next).run b e (.error error) n := by
  refine hr.last fun s s' hrun => ?_
  rw [run_bind, hrun]

/-- A step that collects a number of bytes. -/
def Collects (r : Reading Bytes) (wanted : Nat) : Prop :=
  ∀ b e, Gives r.run b e ((Source.collected b wanted e).mapError .io) (min wanted b.length)

theorem collects_piece (wanted : Nat) : Collects (piece wanted) wanted := by
  intro b e
  refine (Source.gives_collect .whole b e wanted).last fun s s' hcollect => ?_
  rw [piece_run, Source.readUpTo, hcollect]

theorem collects_gather (length : Nat) : Collects (gather length) length := by
  intro b e
  refine (Source.gives_collect (.growing length) b e length).last fun s s' hcollect => ?_
  rw [gather_run, Source.readToEnd, hcollect]

/-- The bytes that are wanted are taken off the front, whatever comes after them. -/
theorem Collects.enough {r : Reading Bytes} {wanted : Nat} (h : Collects r wanted) (hc : c.length = wanted) (b : Bytes)
    (e : Option IoFault) : Gives r.run (c ++ b) e (.ok c) c.length := by
  subst hc
  have hgives := h (c ++ b) e
  have hcollected : Source.collected (c ++ b) c.length e = .ok c := by cases e <;> simp [Source.collected]
  rw [hcollected, List.length_append, Nat.min_eq_left (Nat.le_add_right _ _)] at hgives
  exact hgives

/-- Too few bytes are all taken, and then a fault is found, unless the source fails. -/
theorem Collects.short {r : Reading Bytes} {wanted : Nat} (h : Collects r wanted) (hshort : b.length < wanted)
    {next : Bytes → Reading α} {fault : FrameFault} (hnext : next b = refuse fault) (htorn : fault.isTorn)
    (e : Option IoFault) : Gives (r >>= next).run b e (.error (complaint fault e)) b.length := by
  have hgives := h b e
  rw [Nat.min_eq_right (by omega)] at hgives
  cases e with
  | none =>
    rw [Source.collected, List.take_of_length_le (by omega)] at hgives
    refine hgives.last fun s s' hrun => ?_
    rw [run_bind, hrun]
    exact congrArg (·.run s') hnext
  | some io =>
    rw [Source.collected, if_neg (by omega)] at hgives
    rw [complaint_torn htorn]
    exact gives_bind_error hgives

/-! ## Fields -/

/-- Bytes that hold a length, and a field of that length within a limit. -/
structure Prefixed (limit : Nat) (start field : Bytes) : Prop where
  width : start.length = lengthSize
  length_eq : field.length = Bytes.fromLittleEndian start
  within : field.length ≤ limit

/-- Why bytes do not begin with a field of a length within a limit, and how many of them it takes to find out. -/
inductive BadField (field : FrameField) (length limit : Nat) (b : Bytes) : FrameFault → Nat → Prop where
  | overLimit (exceeds : limit < length) : BadField field length limit b (.overLimit field length limit) 0
  | truncated (within : length ≤ limit) (short : b.length < length) :
    BadField field length limit b (.truncated field length b.length) b.length

/-- A field behind its length is read as it stands. -/
theorem gives_field {limit : Nat} {start : Bytes} (h : Prefixed limit start c) (field : FrameField) (b : Bytes)
    (e : Option IoFault) :
    Gives (readField field (Bytes.fromLittleEndian start) limit).run (c ++ b) e (.ok c) c.length := by
  have hwithin := h.within
  rw [← h.length_eq, readField, if_neg (by omega)]
  refine gives_bind (n := 0) ((collects_gather c.length).enough rfl b e) ?_
  rw [if_pos rfl]
  exact gives_pure c b e

/-- A bad field is reported as what is bad about it, and what was looked at is consumed. -/
theorem gives_badField {field : FrameField} {length limit : Nat} {fault : FrameFault}
    (h : BadField field length limit b fault n) (e : Option IoFault) :
    Gives (readField field length limit).run b e (.error (complaint fault e)) n := by
  cases h with
  | overLimit hover =>
    rw [readField, if_pos hover]
    exact gives_refuse rfl b e
  | truncated hwithin hshort =>
    rw [readField, if_neg (by omega)]
    refine (collects_gather length).short hshort ?_ rfl e
    rw [if_neg (by omega)]

/-- Bytes begin with as many as are wanted, or there are too few of them. -/
theorem exists_append_or_short (b : Bytes) (wanted : Nat) :
    (∃ c rest, b = c ++ rest ∧ c.length = wanted) ∨ b.length < wanted := by
  by_cases h : b.length < wanted
  · exact .inr h
  · refine .inl ⟨b.take wanted, b.drop wanted, (List.take_append_drop _ _).symm, ?_⟩
    rw [List.length_take]
    omega

/-- Behind a length there is either a field or something bad. -/
theorem exists_field_or_bad {start : Bytes} (hwidth : start.length = lengthSize) (field : FrameField) (limit : Nat)
    (b : Bytes) :
    (∃ c rest, b = c ++ rest ∧ Prefixed limit start c) ∨
      ∃ fault n, BadField field (Bytes.fromLittleEndian start) limit b fault n := by
  by_cases hover : limit < Bytes.fromLittleEndian start
  · exact .inr ⟨_, _, .overLimit hover⟩
  · rcases exists_append_or_short b (Bytes.fromLittleEndian start) with ⟨c, rest, rfl, hc⟩ | hshort
    · exact .inl ⟨c, rest, rfl, hwidth, hc, by omega⟩
    · exact .inr ⟨_, _, .truncated (by omega) hshort⟩

/-- A field that is not too long is prefixed by its length. -/
theorem prefixed_littleEndian {limit : Nat} {field : Bytes} (hfits : field.length < 256 ^ lengthSize)
    (hwithin : field.length ≤ limit) : Prefixed limit (Bytes.littleEndian lengthSize field.length) field where
  width := Bytes.littleEndian_length _ _
  length_eq := by rw [Bytes.fromLittleEndian_littleEndian, Nat.mod_eq_of_lt hfits]
  within := hwithin

/-- The length of a field fits the bytes before it. -/
theorem Prefixed.fits {limit : Nat} {start field : Bytes} (h : Prefixed limit start field) :
    field.length < 256 ^ lengthSize := by
  rw [h.length_eq, ← h.width]
  exact Bytes.fromLittleEndian_lt start

/-- The bytes before a field are its length. -/
theorem Prefixed.start_eq {limit : Nat} {start field : Bytes} (h : Prefixed limit start field) :
    Bytes.littleEndian lengthSize field.length = start := by
  rw [h.length_eq, ← h.width]
  exact Bytes.littleEndian_fromLittleEndian start

/-! ## Frames -/

/-- The limits that a reader puts on a frame. -/
structure Within (nonceLength limit : Nat) (f : Frame) : Prop where
  nonce : f.nonce.length = nonceLength
  wrappedKey : f.wrappedKey.length ≤ limit
  cipherText : f.cipherText.length ≤ limit

/-- A frame whose lengths fit their four bytes. -/
structure Encodable (f : Frame) : Prop where
  wrappedKey : f.wrappedKey.length < 256 ^ lengthSize
  cipherText : f.cipherText.length < 256 ^ lengthSize

/-- A frame is encoded exactly if its lengths fit, and then as its layout. -/
theorem encode_eq_ok_iff {f : Frame} {b : Bytes} : f.encode = .ok b ↔ f.Encodable ∧ b = f.layout := by
  unfold encode
  split
  · rename_i h
    exact ⟨nofun, fun ⟨he, _⟩ => absurd he.wrappedKey (by simpa [lengthSize] using h)⟩
  · split
    · rename_i h
      exact ⟨nofun, fun ⟨he, _⟩ => absurd he.cipherText (by simpa [lengthSize] using h)⟩
    · rename_i hkey htext
      have he : f.Encodable := ⟨by simpa [lengthSize] using hkey, by simpa [lengthSize] using htext⟩
      simp [he, eq_comm]

/-- A layout is as long as the size of its frame says. -/
theorem layout_length (f : Frame) : f.layout.length = f.size := by
  simp only [layout, size, List.length_append, Bytes.littleEndian_length]
  omega

/-- There is always something in a layout. -/
theorem layout_ne_nil (f : Frame) : f.layout ≠ [] := by
  rw [← List.length_pos_iff, layout_length, size, lengthSize]
  omega

theorem layout_append (f : Frame) (rest : Bytes) :
    f.layout ++ rest = Bytes.littleEndian lengthSize f.wrappedKey.length ++ (f.wrappedKey ++ (f.nonce ++
      (Bytes.littleEndian lengthSize f.cipherText.length ++ (f.cipherText ++ rest)))) := by
  simp only [layout, List.append_assoc]

/-- Why bytes that are not the end of a log do not begin with a frame within the limits, and how many of them it takes to
find out: all of them if they end too early, and else those up to the end of a length that is over the limit. -/
inductive Malformed (nonceLength limit : Nat) : Bytes → FrameFault → Nat → Prop where
  | tornStart {b : Bytes} (some : b ≠ []) (short : b.length < lengthSize) :
    Malformed nonceLength limit b (.tornStart b.length) b.length
  | wrappedKey {start b : Bytes} {fault : FrameFault} {n : Nat} (width : start.length = lengthSize)
      (bad : BadField .wrappedKey (Bytes.fromLittleEndian start) limit b fault n) :
    Malformed nonceLength limit (start ++ b) fault (start.length + n)
  | tornNonce {start key b : Bytes} (prefixed : Prefixed limit start key) (short : b.length < nonceLength) :
    Malformed nonceLength limit (start ++ (key ++ b)) (.tornNonce nonceLength b.length)
      (start.length + (key.length + b.length))
  | tornLength {start key nonce b : Bytes} (prefixed : Prefixed limit start key) (whole : nonce.length = nonceLength)
      (short : b.length < lengthSize) :
    Malformed nonceLength limit (start ++ (key ++ (nonce ++ b))) (.tornLength b.length)
      (start.length + (key.length + (nonce.length + b.length)))
  | cipherText {start key nonce middle b : Bytes} {fault : FrameFault} {n : Nat} (prefixed : Prefixed limit start key)
      (whole : nonce.length = nonceLength) (width : middle.length = lengthSize)
      (bad : BadField .cipherText (Bytes.fromLittleEndian middle) limit b fault n) :
    Malformed nonceLength limit (start ++ (key ++ (nonce ++ (middle ++ b)))) fault
      (start.length + (key.length + (nonce.length + (middle.length + n))))

/-- Bytes are nothing at all, or begin with the layout of a frame within the limits, or are malformed. -/
theorem exists_reading (nonceLength limit : Nat) (b : Bytes) :
    b = [] ∨ (∃ (f : Frame) (rest : Bytes), f.Within nonceLength limit ∧ f.Encodable ∧ b = f.layout ++ rest) ∨
      ∃ fault n, Malformed nonceLength limit b fault n := by
  by_cases hnil : b = []
  · exact .inl hnil
  refine .inr ?_
  rcases exists_append_or_short b lengthSize with ⟨start, b₁, rfl, hwidth⟩ | hshort
  · rcases exists_field_or_bad hwidth .wrappedKey limit b₁ with ⟨key, b₂, rfl, hkey⟩ | ⟨fault, n, hbad⟩
    · rcases exists_append_or_short b₂ nonceLength with ⟨nonce, b₃, rfl, hnonce⟩ | hshort
      · rcases exists_append_or_short b₃ lengthSize with ⟨middle, b₄, rfl, hmiddle⟩ | hshort
        · rcases exists_field_or_bad hmiddle .cipherText limit b₄ with ⟨text, rest, rfl, htext⟩ | ⟨fault, n, hbad⟩
          · refine .inl ⟨⟨key, nonce, text⟩, rest, ⟨hnonce, hkey.within, htext.within⟩, ⟨hkey.fits, htext.fits⟩, ?_⟩
            rw [layout_append, hkey.start_eq, htext.start_eq]
          · exact .inr ⟨_, _, .cipherText hkey hnonce hmiddle hbad⟩
        · exact .inr ⟨_, _, .tornLength hkey hnonce hshort⟩
      · exact .inr ⟨_, _, .tornNonce hkey hshort⟩
    · exact .inr ⟨_, _, .wrappedKey hwidth hbad⟩
  · exact .inr ⟨_, _, .tornStart hnil hshort⟩

/-! ## Reading frames -/

variable {nonceLength limit : Nat}

/-- Once the length of the wrapped key was read, the rest of the frame decides. -/
theorem gives_read {start : Bytes} (hwidth : start.length = lengthSize) {answer : Except Error Frame}
    (h : Gives (readFrom start nonceLength limit).run b e answer n) :
    Gives (read nonceLength limit).run (start ++ b) e (answer.map some) (start.length + n) := by
  have hne : start ≠ [] := by
    rw [← List.length_pos_iff, hwidth]
    decide
  refine gives_bind ((collects_piece lengthSize).enough hwidth b e) ?_
  rw [if_neg hne, if_neg (by simp [hwidth]), map_eq_pure_bind]
  exact gives_map h some

/-- Once everything before the cipher text was read, the cipher text decides. -/
theorem gives_readFrom {start key nonce middle : Bytes} (hkey : Prefixed limit start key) (hnonce : nonce.length = nonceLength)
    (hmiddle : middle.length = lengthSize) {answer : Except Error Bytes}
    (h : Gives (readField .cipherText (Bytes.fromLittleEndian middle) limit).run b e answer n) :
    Gives (readFrom start nonceLength limit).run (key ++ (nonce ++ (middle ++ b))) e (answer.map (⟨key, nonce, ·⟩))
      (key.length + (nonce.length + (middle.length + n))) := by
  refine gives_bind (gives_field hkey .wrappedKey _ e) ?_
  refine gives_bind ((collects_piece nonceLength).enough hnonce _ e) ?_
  rw [if_neg (by simp [hnonce])]
  refine gives_bind ((collects_piece lengthSize).enough hmiddle b e) ?_
  rw [if_neg (by simp [hmiddle])]
  exact gives_map h _

/-- Where no byte is left the log ends, unless the source fails. -/
theorem gives_end (nonceLength limit : Nat) (e : Option IoFault) :
    Gives (read nonceLength limit).run [] e (e.elim (.ok none) fun io => .error (.io io)) 0 := by
  have hgives := collects_piece lengthSize [] e
  cases e with
  | none =>
    refine hgives.last fun s s' hrun => ?_
    rw [read, run_bind, hrun]
    rfl
  | some io => exact gives_bind_error hgives

/-- A frame within the limits that stands at the front is read, and no byte past it. -/
theorem gives_layout {f : Frame} (hw : f.Within nonceLength limit) (he : f.Encodable) (rest : Bytes) (e : Option IoFault) :
    Gives (read nonceLength limit).run (f.layout ++ rest) e (.ok (some f)) f.size := by
  have hkey := prefixed_littleEndian he.wrappedKey hw.wrappedKey
  have htext := prefixed_littleEndian he.cipherText hw.cipherText
  have hgives := gives_read hkey.width
    (gives_readFrom hkey hw.nonce htext.width (gives_field htext .cipherText rest e))
  rw [← layout_append] at hgives
  have hsize : f.size = (Bytes.littleEndian lengthSize f.wrappedKey.length).length + (f.wrappedKey.length +
      (f.nonce.length + ((Bytes.littleEndian lengthSize f.cipherText.length).length + f.cipherText.length))) := by
    simp only [size, Bytes.littleEndian_length]
    omega
  rw [hsize]
  exact hgives

/-- Malformed bytes are refused, or the failure is met that stands where they end too early. -/
theorem gives_malformed {fault : FrameFault} (h : Malformed nonceLength limit b fault n) (e : Option IoFault) :
    Gives (read nonceLength limit).run b e (.error (complaint fault e)) n := by
  cases h with
  | tornStart hsome hshort =>
    refine (collects_piece lengthSize).short hshort ?_ rfl e
    rw [if_neg hsome, if_pos (by omega)]
  | wrappedKey hwidth hbad => exact gives_read hwidth (gives_bind_error (gives_badField hbad e))
  | @tornNonce start key b hkey hshort =>
    have hfrom : Gives (readFrom start nonceLength limit).run (key ++ b) e
        (.error (complaint (.tornNonce nonceLength b.length) e)) (key.length + b.length) := by
      refine gives_bind (gives_field hkey .wrappedKey b e) ?_
      refine (collects_piece nonceLength).short hshort ?_ rfl e
      rw [if_pos (by omega)]
    exact gives_read hkey.width hfrom
  | @tornLength start key nonce b hkey hnonce hshort =>
    have hfrom : Gives (readFrom start nonceLength limit).run (key ++ (nonce ++ b)) e
        (.error (complaint (.tornLength b.length) e)) (key.length + (nonce.length + b.length)) := by
      refine gives_bind (gives_field hkey .wrappedKey _ e) ?_
      refine gives_bind ((collects_piece nonceLength).enough hnonce b e) ?_
      rw [if_neg (by simp [hnonce])]
      refine (collects_piece lengthSize).short hshort ?_ rfl e
      rw [if_pos (by omega)]
    exact gives_read hkey.width hfrom
  | cipherText hkey hnonce hmiddle hbad =>
    exact gives_read hkey.width (gives_readFrom hkey hnonce hmiddle (gives_badField hbad e))

/-! ## Reading without interruption -/

open Source (after)

/-- A frame that stands at the front is read, and no byte past it. -/
theorem read_layout {f : Frame} (hw : f.Within nonceLength limit) (he : f.Encodable) (n : Nat) (rest : Bytes) :
    (read nonceLength limit).run (after n (f.layout ++ rest)) = (.ok (some f), after (n + f.size) rest) := by
  rw [(gives_layout hw he rest none).after n, List.drop_left' f.layout_length]

/-- A reader at the end of everything finds no further frame. -/
theorem read_end (nonceLength limit n : Nat) :
    (read nonceLength limit).run (after n []) = (.ok none, after n []) :=
  (gives_end nonceLength limit none).after n

/-- Malformed bytes are a fault of a frame. -/
theorem read_malformed {fault : FrameFault} (h : Malformed nonceLength limit b fault n) (m : Nat) :
    (read nonceLength limit).run (after m b) =
      (.error (.library (.framing (.cause fault))), after (m + n) (b.drop n)) :=
  (gives_malformed h none).after m

/-! ## Layouts apart -/

/-- No layout is the beginning of another one with a nonce of the same length. Both frames are what a reader without a limit
takes off the front. -/
theorem layout_inj {f g : Frame} (hf : f.Encodable) (hg : g.Encodable) (hn : f.nonce.length = g.nonce.length)
    {a b : Bytes} (h : f.layout ++ a = g.layout ++ b) : f = g ∧ a = b := by
  obtain ⟨limit, hlimit⟩ : ∃ limit, 256 ^ lengthSize = limit := ⟨_, rfl⟩
  have hfw : f.Within g.nonce.length limit :=
    ⟨hn, hlimit ▸ hf.wrappedKey.le, hlimit ▸ hf.cipherText.le⟩
  have hgw : g.Within g.nonce.length limit :=
    ⟨rfl, hlimit ▸ hg.wrappedKey.le, hlimit ▸ hg.cipherText.le⟩
  have hread := read_layout hfw hf 0 a
  rw [h, read_layout hgw hg 0 b, Prod.mk.injEq, Except.ok.injEq, Option.some.injEq] at hread
  exact ⟨hread.1.symm, (congrArg Source.unread hread.2).symm⟩

/-- A strict beginning of a layout is malformed, whatever the limit. -/
theorem malformed_of_torn {f : Frame} {tail : Bytes} (hf : f.Encodable) (hne : tail ≠ []) (hbegins : tail <+: f.layout)
    (hstrict : tail ≠ f.layout) : ∃ fault n, Malformed f.nonce.length limit tail fault n := by
  rcases exists_reading f.nonce.length limit tail with hnil | ⟨g, rest, hg, he, rfl⟩ | hbad
  · exact absurd hnil hne
  · obtain ⟨missing, hmissing⟩ := hbegins
    rw [List.append_assoc, ← List.append_nil f.layout] at hmissing
    obtain ⟨rfl, hrest⟩ := layout_inj he hf hg.nonce hmissing
    rw [(List.append_eq_nil_iff.mp hrest).1, List.append_nil] at hstrict
    exact absurd rfl hstrict
  · exact hbad

/-- A layout with a field over the limit is malformed, whatever comes after it. -/
theorem malformed_of_overLimit {f : Frame} (hf : f.Encodable)
    (hover : ¬(f.wrappedKey.length ≤ limit ∧ f.cipherText.length ≤ limit)) (rest : Bytes) :
    ∃ fault n, Malformed f.nonce.length limit (f.layout ++ rest) fault n := by
  rcases exists_reading f.nonce.length limit (f.layout ++ rest) with hnil | ⟨g, rest', hg, he, hlayout⟩ | hbad
  · exact absurd (List.append_eq_nil_iff.mp hnil).1 f.layout_ne_nil
  · obtain ⟨rfl, -⟩ := layout_inj hf he hg.nonce.symm hlayout
    exact absurd ⟨hg.wrappedKey, hg.cipherText⟩ hover
  · exact hbad

end Frame

end EnvelopeLog
