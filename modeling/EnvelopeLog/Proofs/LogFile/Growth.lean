import EnvelopeLog.Proofs.LogFile
import EnvelopeLog.Proofs.Writer.Operation

/-!
# How log files grow

Whatever is called, and whether or not the call succeeds, a log file that is appended to keeps what it holds, and what is added
behind it are whole frames (`Adds`). A writer that seals after every write never holds anything from one call to the next, unless
it holds what no frame has room for, and that it can never get rid of (`Writer.Dormant`). Encrypting a file onto the log adds the
frames of all slices (`LogFile.encrypt_ok_adds`) or nothing (`LogFile.encrypt_error_adds`), and nothing but whole frames at any
time (`LogFile.sealing_adds`).
-/

namespace EnvelopeLog

variable {recipient : Rsa.PublicKey} {target l : Location} {world world' world'' : World FileSystem} {w : Writer}
  {old content slice : Bytes} {chunk position rounds : Nat}

/-! ## Growth -/

namespace FileSystem

variable {fs fs' : FileSystem}

/-- What is held at a location; where there is no file, nothing. -/
def held (fs : FileSystem) (l : Location) : Bytes := (fs.contentAt l).toOption.getD []

/-- A file that is there holds its content. -/
theorem held_of_contentAt (h : fs.contentAt l = .ok content) : fs.held l = content := by
  rw [held, h]
  rfl

/-- A file is opened where the path leads. -/
theorem openWrite_target {path : String} {opening : Opening} {mode : Nat} (h : fs.openWrite path opening mode = .ok (l, fs'))
    (hplace : fs.locate path = .ok ⟨target, false⟩) : l = target := by
  rw [(openWrite_spec h).1] at hplace
  cases hplace
  rfl

/-- Whether the file at a location holds the frames of segments behind what it held before. -/
def Extends (recipient : Rsa.PublicKey) (byte : Nat → UInt8) (target : Location) (segments : List Bytes)
    (fs fs' : FileSystem) : Prop :=
  ∃ encodings, List.Forall₂ (Sealed recipient byte) segments encodings ∧
    fs'.held target = fs.held target ++ encodings.flatten

theorem Extends.refl (recipient : Rsa.PublicKey) (byte : Nat → UInt8) (h : fs'.held target = fs.held target) :
    Extends recipient byte target [] fs fs' :=
  ⟨[], .nil, by rw [h, List.flatten_nil, List.append_nil]⟩

theorem Extends.trans {byte : Nat → UInt8} {fs'' : FileSystem} {segments more : List Bytes}
    (h : Extends recipient byte target segments fs fs') (h' : Extends recipient byte target more fs' fs'') :
    Extends recipient byte target (segments ++ more) fs fs'' := by
  obtain ⟨encodings, hsealed, hheld⟩ := h
  obtain ⟨others, hothers, hlater⟩ := h'
  exact ⟨encodings ++ others, List.rel_append hsealed hothers, by rw [hlater, hheld, List.flatten_append, List.append_assoc]⟩

end FileSystem

open FileSystem (Extends SameBut)

/-- What calls add to a file: the frames of segments, and nothing else anywhere. -/
structure Adds (recipient : Rsa.PublicKey) (target : Location) (segments : List Bytes) (world world' : World FileSystem) :
    Prop where
  grows : Extends recipient world.entropy.byte target segments world.sink world'.sink
  same : SameBut target world.sink world'.sink
  byte : world'.entropy.byte = world.entropy.byte
  stays : (∃ old, world.sink.contentAt target = .ok old) → ∃ new, world'.sink.contentAt target = .ok new

namespace Adds

/-- To draw random bytes adds nothing. -/
theorem still (hfree : ∀ mode, world.sink.node? target ≠ some (.directory mode)) (hsink : world'.sink = world.sink)
    (hbyte : world'.entropy.byte = world.entropy.byte) : Adds recipient target [] world world' where
  grows := .refl _ _ (by rw [hsink])
  same := by
    rw [hsink]
    exact ⟨hfree, hfree, fun _ _ => rfl, rfl⟩
  byte := hbyte
  stays := by
    rw [hsink]
    exact id

theorem trans {segments more : List Bytes} (h : Adds recipient target segments world world')
    (h' : Adds recipient target more world' world'') : Adds recipient target (segments ++ more) world world'' where
  grows := h.grows.trans (h.byte ▸ h'.grows)
  same := h.same.trans h'.same
  byte := h'.byte.trans h.byte
  stays hold := h'.stays (h.stays hold)

/-- A call that adds nothing does not count. -/
theorem then_nothing {segments : List Bytes} (h : Adds recipient target segments world world')
    (h' : Adds recipient target [] world' world'') : Adds recipient target segments world world'' := by
  rw [← List.append_nil segments]
  exact h.trans h'

/-- To open a file for appending adds nothing, even if that makes the file. -/
theorem opened {path : String} {mode : Nat} {fs : FileSystem}
    (h : world.sink.openWrite path .append mode = .ok (target, fs)) :
    Adds recipient target [] world { world with sink := fs } := by
  obtain ⟨-, hsame, hkept⟩ := FileSystem.openWrite_spec h
  exact ⟨.refl _ _ (FileSystem.held_of_contentAt hkept), hsame, rfl, fun _ => ⟨_, hkept⟩⟩

/-- To add a sealed frame. -/
theorem frame (hold : world.sink.contentAt target = .ok old) {frame : Bytes} {entropy : Entropy}
    (hseal : w.sealBuffer world.entropy = (.ok frame, entropy)) :
    Adds w.recipient target [w.buffer] world { sink := world.sink.appendAt target frame, entropy } := by
  obtain ⟨hsame, hgrown⟩ := FileSystem.appendAt_spec hold frame
  refine ⟨⟨[frame], .cons (Writer.sealed_of_sealBuffer hseal) .nil, ?_⟩, hsame, Writer.byte_of_sealBuffer hseal,
    fun _ => ⟨_, hgrown⟩⟩
  rw [FileSystem.held_of_contentAt hgrown, FileSystem.held_of_contentAt hold, List.flatten_singleton]

end Adds

/-! ## Writers between two calls -/

namespace Writer

/-- Whether a frame has room for what a writer holds, and the recipient's modulus for a key. -/
structure Sealable (w : Writer) : Prop where
  room : w.recipient.Fits KeyMaterial.keySize
  key : w.recipient.size < 256 ^ Frame.lengthSize
  text : w.buffer.length + Gcm.tagSize < 256 ^ Frame.lengthSize

/-- What can be sealed is sealed, and what cannot is not. -/
theorem sealBuffer_cases (w : Writer) (entropy : Entropy) :
    (w.Sealable ∧ ∃ frame entropy', w.sealBuffer entropy = (.ok frame, entropy')) ∨
      (¬w.Sealable ∧ ∃ e entropy', w.sealBuffer entropy = (.error e, entropy') ∧ entropy'.byte = entropy.byte) := by
  by_cases h : w.Sealable
  · exact .inl ⟨h, sealBuffer_succeeds h.room h.key h.text entropy⟩
  · refine .inr ⟨h, ?_⟩
    rcases hseal : w.sealBuffer entropy with ⟨e | frame, entropy'⟩
    · exact ⟨e, entropy', rfl, byte_of_sealBuffer hseal⟩
    · obtain ⟨hroom, x, hpayload, hencodable, -⟩ := (sealed_of_sealBuffer hseal).exists_sealing
      have hkey := hencodable.wrappedKey
      have htext := hencodable.cipherText
      rw [Sealing.frame_wrappedKey_length] at hkey
      rw [Sealing.frame_cipherText_length, hpayload] at htext
      exact absurd ⟨hroom, hkey, htext⟩ h

/-- A writer that can be written to, and holds nothing unless it can never be sealed. -/
structure Dormant (recipient : Rsa.PublicKey) (w : Writer) : Prop where
  recipient : w.recipient = recipient
  unpoisoned : w.poisoned = false
  opened : w.closed = false
  held : w.buffer = [] ∨ ¬w.Sealable

/-- A waiting writer is dormant. -/
theorem Waits.dormant (h : w.Waits) : w.Dormant w.recipient := ⟨rfl, h.unpoisoned, h.opened, .inl h.empty⟩

/-- A dormant writer takes everything that is written. -/
theorem write_of_dormant (h : w.Dormant recipient) (b : Bytes) :
    w.write b = (.ok b.length, { w with buffer := w.buffer ++ b }) := by
  unfold write
  split
  · rename_i hb
    rw [hb, List.append_nil]
    rfl
  · rw [if_neg (by simp [h.opened]), if_neg (by simp [h.unpoisoned])]

/-- A flush of what cannot be sealed fails and leaves all but the random bytes as it is. -/
theorem flush_of_jammed (hready : Session.Ready w) (hjammed : ¬w.Sealable) (S : Sink FileSystem)
    (world : World FileSystem) :
    ∃ e entropy, w.flush S world = (.error e, w, { world with entropy }) ∧ entropy.byte = world.entropy.byte := by
  obtain ⟨hsealable, -⟩ | ⟨-, e, entropy, hseal, hbyte⟩ := w.sealBuffer_cases world.entropy
  · exact absurd hsealable hjammed
  · exact ⟨e, entropy, flush_unsealed S hready hseal, hbyte⟩

/-- A flush finds nothing to do. -/
theorem Dormant.flush_idle (h : w.Dormant recipient) (hb : w.buffer = []) (S : Sink FileSystem)
    (world : World FileSystem) : w.flush S world = (.ok false, w, world) := by
  have hidle : w.idleAnswer = .ok false := by simp [idleAnswer, h.unpoisoned, hb]
  rw [flush_of_not_ready fun hready => hready.filled hb, hidle]

/-- A flush finds nothing to do or fails. -/
theorem Dormant.flush (h : w.Dormant recipient) (S : Sink FileSystem) (world : World FileSystem) :
    ∃ result entropy, w.flush S world = (result, w, { world with entropy }) ∧ entropy.byte = world.entropy.byte := by
  by_cases hb : w.buffer = []
  · exact ⟨.ok false, world.entropy, h.flush_idle hb S world, rfl⟩
  · obtain ⟨e, entropy, hflush, hbyte⟩ := flush_of_jammed ⟨h.unpoisoned, hb, h.opened⟩ (h.held.resolve_left hb) S world
    exact ⟨.error e, entropy, hflush, hbyte⟩

/-- To drop the writer leaves the files as they are. -/
theorem Dormant.drop (h : w.Dormant recipient) (target : Location) (world : World FileSystem) :
    (w.drop (FileSystem.sinkAt target) world).sink = world.sink ∧
      (w.drop (FileSystem.sinkAt target) world).entropy.byte = world.entropy.byte := by
  obtain ⟨result, entropy, hflush, hbyte⟩ := h.flush (FileSystem.sinkAt target) world
  rw [Writer.drop, close_of_open h.opened, hflush]
  exact ⟨rfl, hbyte⟩

end Writer

namespace LogFile

/-! ## Slices that are sealed onto a log -/

/-- Slices that cannot be read end it. -/
theorem sealSlices_unread {e : IoFault} (hread : ((world.sink.sourceAt l position).readUpTo chunk).1 = .error e)
    (hw : w.Waits) :
    sealSlices l chunk (FileSystem.sinkAt target) (rounds + 1) position w world = (.error (.io e), world) := by
  rw [sealSlices, hread]
  dsimp only
  rw [Writer.drop, Writer.close_of_waits hw]

/-- A slice that cannot be sealed ends it, and the files are as they were. -/
theorem sealSlices_jammed (hfree : ∀ mode, world.sink.node? target ≠ some (.directory mode))
    (hread : ((world.sink.sourceAt l position).readUpTo chunk).1 = .ok slice) (hne : slice ≠ []) (hw : w.Waits)
    (hjammed : ¬({ w with buffer := slice } : Writer).Sealable) :
    ∃ e after, sealSlices l chunk (FileSystem.sinkAt target) (rounds + 1) position w world = (.error e, after) ∧
      Adds w.recipient target [] world after := by
  have hready : Session.Ready { w with buffer := slice } := ⟨hw.unpoisoned, hne, hw.opened⟩
  obtain ⟨e, entropy, hflush, hbyte⟩ := Writer.flush_of_jammed hready hjammed (FileSystem.sinkAt target) world
  have hdormant : ({ w with buffer := slice } : Writer).Dormant w.recipient := ⟨rfl, hw.unpoisoned, hw.opened, .inr hjammed⟩
  obtain ⟨hsink, hlater⟩ := hdormant.drop target { world with entropy }
  refine ⟨e, _, ?_, .still hfree hsink (hlater.trans hbyte)⟩
  rw [sealSlices, hread]
  dsimp only
  rw [if_neg hne, Writer.write_of_waits hw hne]
  dsimp only
  rw [hflush]

/-- However many slices are sealed, and whether or not that succeeds, whole frames are added. -/
theorem sealSlices_adds (hold : world.sink.contentAt target = .ok old) (hw : w.Waits) :
    ∃ segments, Adds w.recipient target segments world
      (sealSlices l chunk (FileSystem.sinkAt target) rounds position w world).2 := by
  induction rounds generalizing position w world old with
  | zero =>
    obtain ⟨hsink, hbyte⟩ := hw.dormant.drop target world
    exact ⟨[], .still (SameBut.refl hold).no_directory hsink hbyte⟩
  | succ rounds ih =>
    have hfree := (SameBut.refl hold).no_directory
    rcases hread : ((world.sink.sourceAt l position).readUpTo chunk).1 with e | slice
    · rw [sealSlices_unread hread hw]
      exact ⟨[], .still hfree rfl rfl⟩
    by_cases hne : slice = []
    · subst hne
      rw [sealSlices_end hread hw]
      exact ⟨[], .still hfree rfl rfl⟩
    obtain ⟨-, frame, entropy, hseal⟩ | ⟨hjammed, -⟩ :=
      ({ w with buffer := slice } : Writer).sealBuffer_cases world.entropy
    · have hframe := Adds.frame hold hseal
      obtain ⟨new, hnew⟩ := hframe.stays ⟨old, hold⟩
      have hwaits : ({ w with frames := w.frames + 1 } : Writer).Waits := ⟨hw.unpoisoned, hw.empty, hw.opened⟩
      rw [sealSlices_next hread hne hw hseal]
      obtain ⟨segments, hadds⟩ := ih hnew hwaits
      exact ⟨_, hframe.trans hadds⟩
    · obtain ⟨e, after, hanswer, hadds⟩ := sealSlices_jammed hfree hread hne hw hjammed
      rw [hanswer]
      exact ⟨[], hadds⟩

/-- Slices that are not all sealed add nothing: none is longer than the first, and if that one cannot be sealed no frame is made. -/
theorem sealSlices_fails (hchunk : 0 < chunk) (hne : l ≠ target) (hold : world.sink.contentAt target = .ok old)
    (hw : w.Waits) (hrounds : ∀ content, world.sink.contentAt l = .ok content → (Bytes.slices chunk content).length < rounds)
    (hpos : 0 < rounds) {e : Error}
    (h : sealSlices l chunk (FileSystem.sinkAt target) rounds 0 w world = (.error e, world')) :
    Adds w.recipient target [] world world' := by
  have hfree := (SameBut.refl hold).no_directory
  obtain ⟨rounds, rfl⟩ := Nat.exists_eq_succ_of_ne_zero hpos.ne'
  rcases hread : ((world.sink.sourceAt l 0).readUpTo chunk).1 with fault | slice
  · rw [sealSlices_unread hread hw] at h
    cases h
    exact .still hfree rfl rfl
  obtain ⟨content, hcontent⟩ := FileSystem.exists_content_of_readUpTo hchunk hread
  obtain rfl : content.take chunk = slice := by
    rw [FileSystem.readUpTo_sourceAt hcontent, List.drop_zero] at hread
    exact Except.ok.inj hread
  by_cases hempty : content.take chunk = []
  · rw [hempty] at hread
    rw [sealSlices_end hread hw] at h
    cases h
  by_cases hsealable : ({ w with buffer := content.take chunk } : Writer).Sealable
  · have hslices : ∀ s ∈ Bytes.slices chunk (content.drop 0), s.length + Gcm.tagSize < 256 ^ Frame.lengthSize := by
      intro s hs
      rw [List.drop_zero] at hs
      exact lt_of_le_of_lt (Nat.add_le_add_right (Bytes.length_le_take_of_mem_slices hs) _) hsealable.text
    obtain ⟨n, after, hok⟩ := sealSlices_succeeds hchunk hne hcontent hold hw hsealable.room hsealable.key hslices
      (by rw [List.drop_zero]; exact hrounds content hcontent)
    rw [h] at hok
    cases hok
  · obtain ⟨fault, after, hanswer, hadds⟩ := sealSlices_jammed hfree hread hempty hw hsealable
    rw [h] at hanswer
    cases hanswer
    exact hadds

/-! ## Files that are encrypted onto a log -/

variable {job : Job}

/-- A call that succeeds adds the frames of all slices of the input. -/
theorem encrypt_ok_adds (hapart : world.sink.Apart job.input job.output)
    (hplace : world.sink.locate job.output = .ok ⟨target, false⟩) {n : Nat}
    (h : encrypt recipient job.input job.output job.chunk .append world = (.ok n, world')) :
    ∃ x : Encryption, x.job = job ∧ x.Right recipient world.entropy.byte target world.sink ∧
      Adds recipient target x.slices world world' := by
  obtain ⟨target', x, hjob, -, hx⟩ := encrypt_ok hapart h
  obtain rfl : target' = target := hx.target_eq (hjob ▸ hplace)
  refine ⟨x, hjob, hx.right, ⟨x.encodings, hx.right.sealed, FileSystem.held_of_contentAt hx.held⟩, hx.same, hx.byte,
    fun _ => ⟨_, hx.held⟩⟩

/-- A call that fails adds nothing. -/
theorem encrypt_error_adds (hapart : world.sink.Apart job.input job.output)
    (hplace : world.sink.locate job.output = .ok ⟨target, false⟩)
    (hfree : ∀ mode, world.sink.node? target ≠ some (.directory mode)) {e : Error}
    (h : encrypt recipient job.input job.output job.chunk .append world = (.error e, world')) :
    Adds recipient target [] world world' := by
  have hnothing : Adds recipient target [] world world := .still hfree rfl rfl
  unfold encrypt at h
  split at h
  · cases h
    exact hnothing
  rename_i hchunk
  split at h
  · cases h
    exact hnothing
  rename_i source hsource
  split at h
  · cases h
    exact hnothing
  rename_i target' opened hopened
  obtain rfl := FileSystem.openWrite_target hopened hplace
  obtain ⟨-, -, hkept⟩ := FileSystem.openWrite_spec hopened
  have hadds : Adds recipient target' [] world { world with sink := opened } := .opened hopened
  dsimp only at h
  split at h
  · cases h
    exact hadds
  · have hpos := Nat.pos_of_ne_zero hchunk
    refine hadds.then_nothing (sealSlices_fails hpos (hapart.ne hsource hplace) hkept ⟨rfl, rfl, rfl⟩ ?_ (Nat.succ_pos _) h)
    intro content hcontent
    rw [hcontent]
    exact Bytes.length_slices_lt hpos content

/-- The world while a file is encrypted onto another one, when some slices have been sealed. -/
def sealing (recipient : Rsa.PublicKey) (job : Job) (count : Nat) (world : World FileSystem) : World FileSystem :=
  match world.sink.openRead job.input, world.sink.openWrite job.output .append FileSystem.fileMode with
  | .ok source, .ok (target, fs) =>
    (sealSlices source job.chunk (FileSystem.sinkAt target) count 0 { recipient } { world with sink := fs }).2
  | _, _ => world

/-- A call leaves the world as it is after some slices. -/
theorem exists_sealing_of_encrypt (hchunk : 0 < job.chunk) (recipient : Rsa.PublicKey) (world : World FileSystem) :
    ∃ count, (encrypt recipient job.input job.output job.chunk .append world).2 = sealing recipient job count world := by
  unfold encrypt sealing
  rw [if_neg hchunk.ne']
  cases hsource : world.sink.openRead job.input with
  | error e => exact ⟨0, rfl⟩
  | ok source =>
    cases hopened : world.sink.openWrite job.output .append FileSystem.fileMode with
    | error e => exact ⟨0, rfl⟩
    | ok opened =>
      obtain ⟨target, fs⟩ := opened
      dsimp only
      split
      · refine ⟨0, ?_⟩
        rw [sealSlices, Writer.drop, Writer.close_of_waits ⟨rfl, rfl, rfl⟩]
      · exact ⟨_, rfl⟩

/-- While a file is encrypted onto a log, there are whole frames on the log. -/
theorem sealing_adds (hplace : world.sink.locate job.output = .ok ⟨target, false⟩)
    (hfree : ∀ mode, world.sink.node? target ≠ some (.directory mode)) (count : Nat) :
    ∃ segments, Adds recipient target segments world (sealing recipient job count world) := by
  unfold sealing
  split
  · rename_i source target' opened _ hopened
    obtain rfl := FileSystem.openWrite_target hopened hplace
    obtain ⟨-, -, hkept⟩ := FileSystem.openWrite_spec hopened
    have hopening : Adds recipient target' [] world { world with sink := opened } := .opened hopened
    have hwaits : ({ recipient } : Writer).Waits := ⟨rfl, rfl, rfl⟩
    have hsealing : ∃ segments, Adds recipient target' segments { world with sink := opened }
        (sealSlices source job.chunk (FileSystem.sinkAt target') count 0 { recipient } { world with sink := opened }).2 :=
      sealSlices_adds hkept hwaits
    obtain ⟨segments, hadds⟩ := hsealing
    exact ⟨_, hopening.trans hadds⟩
  · exact ⟨[], .still hfree rfl rfl⟩

end LogFile

end EnvelopeLog
