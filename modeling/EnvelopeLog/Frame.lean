import EnvelopeLog.Source

/-!
# Frames

A log is a sequence of frames with nothing before, between or after them. A frame is the length of the wrapped key in four
bytes, the wrapped key, a nonce of a length known to the reader, the length of the cipher text in four bytes, and the cipher
text; both lengths are little-endian. `Frame.read` takes one frame off a source: it reads no byte past the frame, tells the
end of the log from a torn frame, and leaves fewer bytes unread (`unread_lt_of_read`).
-/

namespace EnvelopeLog

/-- A sealed payload with what is needed to open it. -/
structure Frame where
  wrappedKey : Bytes
  nonce : Bytes
  cipherText : Bytes
deriving DecidableEq, Repr, Inhabited

namespace Frame

/-- How many bytes the length of a field takes. -/
def lengthSize : Nat := 4

/-- How many bytes a frame takes. -/
def size (f : Frame) : Nat := 2 * lengthSize + f.wrappedKey.length + f.nonce.length + f.cipherText.length

/-- The bytes of a frame whose lengths fit their four bytes. -/
def layout (f : Frame) : Bytes :=
  Bytes.littleEndian lengthSize f.wrappedKey.length ++ f.wrappedKey ++ f.nonce ++
    Bytes.littleEndian lengthSize f.cipherText.length ++ f.cipherText

/-- The bytes of a frame. -/
def encode (f : Frame) : Except FrameFault Bytes :=
  if 0x100000000 ≤ f.wrappedKey.length then .error (.tooLong .wrappedKey)
  else if 0x100000000 ≤ f.cipherText.length then .error (.tooLong .cipherText)
  else .ok f.layout

/-! ## Reading -/

/-- Something read from a source, which moves on also when reading fails. -/
abbrev Reading (α : Type) := ExceptT Error (StateM Source) α

/-- The next bytes, as many as wanted unless the source ends before. -/
def piece (wanted : Nat) : Reading Bytes := fun s =>
  match s.readUpTo wanted with
  | (.ok b, s) => (.ok b, s)
  | (.error e, s) => (.error (.io e), s)

/-- The bytes of a field that claims a length, or the fewer that the source holds; the claim alone takes up no room. -/
def gather (length : Nat) : Reading Bytes := fun s =>
  match s.readToEnd length with
  | (.ok b, s) => (.ok b, s)
  | (.error e, s) => (.error (.io e), s)

/-- Refuses what is being read. -/
def refuse {α : Type} (fault : FrameFault) : Reading α := throw (.library (.framing (.cause fault)))

/-- A field of the given length, unless the length is over the limit. -/
def readField (field : FrameField) (length limit : Nat) : Reading Bytes := do
  if limit < length then refuse (.overLimit field length limit)
  else
    let b ← gather length
    if b.length = length then pure b else refuse (.truncated field length b.length)

/-- The frame that starts with the given bytes, which hold the length of its wrapped key. -/
def readFrom (start : Bytes) (nonceLength limit : Nat) : Reading Frame := do
  let wrappedKey ← readField .wrappedKey (Bytes.fromLittleEndian start) limit
  let nonce ← piece nonceLength
  if nonce.length ≠ nonceLength then refuse (.tornNonce nonceLength nonce.length)
  else
    let middle ← piece lengthSize
    if middle.length ≠ lengthSize then refuse (.tornLength middle.length)
    else
      let cipherText ← readField .cipherText (Bytes.fromLittleEndian middle) limit
      pure { wrappedKey, nonce, cipherText }

/-- The next frame, or nothing if the source is at its end. -/
def read (nonceLength limit : Nat) : Reading (Option Frame) := do
  let start ← piece lengthSize
  if start = [] then pure none
  else if start.length ≠ lengthSize then refuse (.tornStart start.length)
  else some <$> readFrom start nonceLength limit

/-! ## Progress -/

theorem run_bind {α β : Type} (r : Reading α) (next : α → Reading β) (s : Source) :
    (r >>= next).run s = match r.run s with
      | (.ok a, s') => (next a).run s'
      | (.error e, s') => (.error e, s') := by
  simp only [ExceptT.run, bind, ExceptT.bind, ExceptT.mk, StateT.bind, ExceptT.bindCont]
  rcases r s with ⟨a | e, s'⟩ <;> rfl

/-- Reading that leaves no more bytes unread than there were, whatever it answers. -/
def Consumes {α : Type} (r : Reading α) : Prop := ∀ s, (r.run s).2.unread.length ≤ s.unread.length

theorem consumes_pure {α : Type} (a : α) : Consumes (pure a) := fun _ => Nat.le_refl _

theorem consumes_refuse {α : Type} (fault : FrameFault) : Consumes (refuse fault : Reading α) := fun _ => Nat.le_refl _

theorem consumes_bind {α β : Type} {r : Reading α} {next : α → Reading β} (h : Consumes r)
    (hn : ∀ a, Consumes (next a)) : Consumes (r >>= next) := by
  intro s
  have hr := h s
  rw [run_bind]
  split
  · rename_i a s' heq
    rw [heq] at hr
    exact Nat.le_trans (hn a s') hr
  · rename_i e s' heq
    rw [heq] at hr
    exact hr

theorem piece_run (wanted : Nat) (s : Source) :
    (piece wanted).run s = ((s.readUpTo wanted).1.mapError .io, (s.readUpTo wanted).2) := by
  simp only [piece, ExceptT.run]
  split <;> rename_i heq <;> rw [heq] <;> rfl

theorem gather_run (length : Nat) (s : Source) :
    (gather length).run s = ((s.readToEnd length).1.mapError .io, (s.readToEnd length).2) := by
  simp only [gather, ExceptT.run]
  split <;> rename_i heq <;> rw [heq] <;> rfl

theorem consumes_piece (wanted : Nat) : Consumes (piece wanted) := by
  intro s
  rw [piece_run]
  exact s.collect_unread_le _ wanted

theorem consumes_gather (length : Nat) : Consumes (gather length) := by
  intro s
  rw [gather_run]
  exact s.collect_unread_le _ length

theorem consumes_readField (field : FrameField) (length limit : Nat) : Consumes (readField field length limit) := by
  unfold readField
  split
  · exact consumes_refuse _
  · refine consumes_bind (consumes_gather _) fun b => ?_
    split
    · exact consumes_pure _
    · exact consumes_refuse _

theorem consumes_readFrom (start : Bytes) (nonceLength limit : Nat) :
    Consumes (readFrom start nonceLength limit) := by
  refine consumes_bind (consumes_readField _ _ _) fun _ => consumes_bind (consumes_piece _) fun _ => ?_
  split
  · exact consumes_refuse _
  · refine consumes_bind (consumes_piece _) fun _ => ?_
    split
    · exact consumes_refuse _
    · exact consumes_bind (consumes_readField _ _ _) fun _ => consumes_pure _

/-- A frame that was read is taken off the source. -/
theorem unread_lt_of_read {nonceLength limit : Nat} {s s' : Source} {f : Frame}
    (h : (read nonceLength limit).run s = (.ok (some f), s')) : s'.unread.length < s.unread.length := by
  rw [read, run_bind, piece_run] at h
  rcases hr : s.readUpTo lengthSize with ⟨e | b, s₁⟩ <;> rw [hr] at h
  · cases h
  · have hs := Source.collect_ok hr
    change (if b = [] then _ else _ : Reading (Option Frame)).run s₁ = _ at h
    split at h
    · cases h
    · rename_i hb
      have hpos := List.length_pos_iff.mpr hb
      have hle : s'.unread.length ≤ s₁.unread.length := by
        split at h
        · cases h
        · have hc := consumes_bind (consumes_readFrom b nonceLength limit) (fun f => consumes_pure (some f)) s₁
          rw [map_eq_pure_bind] at h
          rw [h] at hc
          exact hc
      rw [hs, List.length_append]
      omega

/-! ## Reading frame after frame -/

/-- A source from which frames are taken, the first failure or the end being final. -/
structure Reader where
  source : Source
  nonceLength : Nat
  limit : Nat := 0xffffffff
  finished : Bool := false

/-- The next frame or the first failure, and nothing once either end was reached. -/
def Reader.next (r : Reader) : Option (Except Error Frame) × Reader :=
  if r.finished then (none, r)
  else
    match (read r.nonceLength r.limit).run r.source with
    | (.ok (some f), source) => (some (.ok f), { r with source })
    | (.ok none, source) => (none, { r with source, finished := true })
    | (.error e, source) => (some (.error e), { r with source, finished := true })

end Frame

end EnvelopeLog
