import EnvelopeLog.LogFile
import EnvelopeLog.Proofs.FileSystem
import EnvelopeLog.Proofs.RoundTrip

/-!
# Files that are encrypted onto a log

Encrypting a file onto another one puts a frame of each slice of the file behind what the other one keeps, and changes nothing
else (`encrypt_ok`); it succeeds if nothing but the sealing of a slice could fail and does not (`encrypt_succeeds`). Calls that
go on where the call before them ended leave the frames of all on the output, in the order of the calls (`Appended`), so the
owner of the key decrypts the output to the files, one after the other (`decrypt_encryptAll`).
-/

namespace EnvelopeLog

/-! ## Writers on files -/

namespace Writer

variable {w : Writer} {l : Location} {world : World FileSystem}

/-- Whether a writer waits for the next segment. -/
structure Waits (w : Writer) : Prop where
  unpoisoned : w.poisoned = false
  empty : w.buffer = []
  opened : w.closed = false

/-- A waiting writer takes a segment as a whole. -/
theorem write_of_waits (h : w.Waits) {b : Bytes} (hb : b ≠ []) : w.write b = (.ok b.length, { w with buffer := b }) := by
  rw [write, if_neg hb, if_neg (by simp [h.opened]), if_neg (by simp [h.unpoisoned]), h.empty, List.nil_append]

/-- A waiting writer closes without a frame. -/
theorem close_of_waits (h : w.Waits) :
    w.close (FileSystem.sinkAt l) world = (.ok (), { w with buffer := [], closed := true }, world) := by
  simp only [close, flush, h.opened, h.unpoisoned, h.empty, if_true, Bool.false_eq_true, if_false, Except.map]
  rfl

/-- A frame that can be sealed goes to the end of the file. -/
theorem flush_sinkAt (h : Session.Ready w) {frame : Bytes} {entropy : Entropy}
    (hseal : w.sealBuffer world.entropy = (.ok frame, entropy)) :
    w.flush (FileSystem.sinkAt l) world =
      (.ok true, { w with buffer := [], frames := w.frames + 1 }, { sink := world.sink.appendAt l frame, entropy }) := by
  have hframe : frame ≠ [] := (sealed_of_sealBuffer hseal).ne_nil
  rw [flush, if_neg (by simp [h.unpoisoned]), if_neg h.filled, if_neg (by simp [h.opened]), hseal]
  simp only [emit, FileSystem.writeAll_sinkAt l world.sink hframe]
  rfl

/-- A frame that cannot be sealed leaves the file and the segment as they are. -/
theorem flush_unsealed (S : Sink FileSystem) (h : Session.Ready w) {e : Error} {entropy : Entropy}
    (hseal : w.sealBuffer world.entropy = (.error e, entropy)) :
    w.flush S world = (.error e, w, { world with entropy }) := by
  rw [flush, if_neg (by simp [h.unpoisoned]), if_neg h.filled, if_neg (by simp [h.opened]), hseal]

end Writer

namespace LogFile

variable {l target : Location} {chunk rounds position n : Nat} {content old slice : Bytes} {w : Writer}
  {world world' : World FileSystem}

/-! ## Slices of an open file -/

/-- Without another slice the writer is closed. -/
theorem sealSlices_end (hread : ((world.sink.sourceAt l position).readUpTo chunk).1 = .ok []) (hw : w.Waits) :
    sealSlices l chunk (FileSystem.sinkAt target) (rounds + 1) position w world = (.ok w.frames, world) := by
  rw [sealSlices, hread]
  dsimp only
  rw [if_pos rfl, Writer.close_of_waits hw]
  rfl

/-- The next slice becomes a frame at the end of the output. -/
theorem sealSlices_next (hread : ((world.sink.sourceAt l position).readUpTo chunk).1 = .ok slice) (hne : slice ≠ [])
    (hw : w.Waits) {frame : Bytes} {entropy : Entropy}
    (hseal : ({ w with buffer := slice } : Writer).sealBuffer world.entropy = (.ok frame, entropy)) :
    sealSlices l chunk (FileSystem.sinkAt target) (rounds + 1) position w world =
      sealSlices l chunk (FileSystem.sinkAt target) rounds (position + slice.length) { w with frames := w.frames + 1 }
        { sink := world.sink.appendAt target frame, entropy } := by
  have hready : Session.Ready { w with buffer := slice } := ⟨hw.unpoisoned, hne, hw.opened⟩
  rw [sealSlices, hread]
  dsimp only
  rw [if_neg hne, Writer.write_of_waits hw hne]
  dsimp only
  rw [Writer.flush_sinkAt hready hseal]
  dsimp only
  rw [← hw.empty]

/-- A slice that cannot be sealed ends it. -/
theorem sealSlices_unsealed (hread : ((world.sink.sourceAt l position).readUpTo chunk).1 = .ok slice) (hne : slice ≠ [])
    (hw : w.Waits) {e : Error} {entropy : Entropy}
    (hseal : ({ w with buffer := slice } : Writer).sealBuffer world.entropy = (.error e, entropy)) :
    (sealSlices l chunk (FileSystem.sinkAt target) (rounds + 1) position w world).1 = .error e := by
  have hready : Session.Ready { w with buffer := slice } := ⟨hw.unpoisoned, hne, hw.opened⟩
  rw [sealSlices, hread]
  dsimp only
  rw [if_neg hne, Writer.write_of_waits hw hne]
  dsimp only
  rw [Writer.flush_unsealed _ hready hseal]

theorem drop_after_slice (chunk position : Nat) (content : Bytes) :
    content.drop (position + ((content.drop position).take chunk).length) = (content.drop position).drop chunk := by
  rw [← List.drop_drop, List.length_take]
  by_cases hshort : (content.drop position).length ≤ chunk
  · rw [Nat.min_eq_right hshort, List.drop_length, List.drop_eq_nil_of_le hshort]
  · rw [Nat.min_eq_left (by omega)]

/-- Slices are read from a file. -/
theorem exists_content_of_sealSlices (hchunk : 0 < chunk) {S : Sink FileSystem}
    (h : sealSlices l chunk S rounds position w world = (.ok n, world')) : ∃ content, world.sink.contentAt l = .ok content := by
  cases rounds with
  | zero => cases h
  | succ rounds =>
    rw [sealSlices] at h
    cases hread : ((world.sink.sourceAt l position).readUpTo chunk).1 with
    | error e => rw [hread] at h; cases h
    | ok slice => exact FileSystem.exists_content_of_readUpTo hchunk hread

/-- What was sealed are the slices, and the frames are at the end of the output. -/
theorem sealSlices_ok (hchunk : 0 < chunk) (hne : l ≠ target)
    (hcontent : world.sink.contentAt l = .ok content) (hold : world.sink.contentAt target = .ok old) (hw : w.Waits)
    (h : sealSlices l chunk (FileSystem.sinkAt target) rounds position w world = (.ok n, world')) :
    ∃ encodings, List.Forall₂ (Sealed w.recipient world.entropy.byte) (Bytes.slices chunk (content.drop position)) encodings ∧
      n = w.frames + encodings.length ∧ FileSystem.SameBut target world.sink world'.sink ∧
      world'.sink.contentAt target = .ok (old ++ encodings.flatten) ∧ world'.entropy.byte = world.entropy.byte := by
  induction rounds generalizing position w world old with
  | zero => cases h
  | succ rounds ih =>
    have hread := FileSystem.readUpTo_sourceAt hcontent position chunk
    by_cases hrest : content.drop position = []
    · rw [hrest, List.take_nil] at hread
      rw [sealSlices_end hread hw] at h
      cases h
      rw [hrest, Bytes.slices_nil]
      exact ⟨[], .nil, rfl, .refl hold, by rwa [List.flatten_nil, List.append_nil], rfl⟩
    · have hslice : (content.drop position).take chunk ≠ [] := by simp [hrest, hchunk.ne']
      rcases hseal : ({ w with buffer := (content.drop position).take chunk } : Writer).sealBuffer world.entropy with
        ⟨e | frame, entropy⟩
      · have herror : (sealSlices l chunk (FileSystem.sinkAt target) (rounds + 1) position w world).1 = .error e :=
          sealSlices_unsealed hread hslice hw hseal
        rw [h] at herror
        cases herror
      · rw [sealSlices_next hread hslice hw hseal] at h
        obtain ⟨hsame, hgrown⟩ := FileSystem.appendAt_spec hold frame
        have hbyte := Writer.byte_of_sealBuffer hseal
        have hwaits : ({ w with frames := w.frames + 1 } : Writer).Waits := ⟨hw.unpoisoned, hw.empty, hw.opened⟩
        obtain ⟨encodings, hsealed, hcount, hlater, hheld, hbyte'⟩ :=
          ih ((hsame.contentAt_of_ne hne).trans hcontent) hgrown hwaits h
        rw [drop_after_slice, hbyte] at hsealed
        refine ⟨frame :: encodings, ?_, ?_, hsame.trans hlater, ?_, hbyte'.trans hbyte⟩
        · rw [Bytes.slices_of_ne_nil hchunk hrest]
          exact .cons (Writer.sealed_of_sealBuffer hseal) hsealed
        · rw [hcount, List.length_cons, Nat.add_assoc, Nat.add_comm 1]
        · rw [hheld, List.flatten_cons, List.append_assoc]

/-- If there are rounds enough and every slice can be sealed, all slices are sealed. -/
theorem sealSlices_succeeds (hchunk : 0 < chunk) (hne : l ≠ target)
    (hcontent : world.sink.contentAt l = .ok content) (hold : world.sink.contentAt target = .ok old) (hw : w.Waits)
    (hroom : w.recipient.Fits KeyMaterial.keySize) (hsize : w.recipient.size < 256 ^ Frame.lengthSize)
    (hslices : ∀ s ∈ Bytes.slices chunk (content.drop position), s.length + Gcm.tagSize < 256 ^ Frame.lengthSize)
    (hrounds : (Bytes.slices chunk (content.drop position)).length < rounds) :
    ∃ n world', sealSlices l chunk (FileSystem.sinkAt target) rounds position w world = (.ok n, world') := by
  induction rounds generalizing position w world old with
  | zero => cases hrounds
  | succ rounds ih =>
    have hread := FileSystem.readUpTo_sourceAt hcontent position chunk
    by_cases hrest : content.drop position = []
    · rw [hrest, List.take_nil] at hread
      exact ⟨w.frames, world, sealSlices_end hread hw⟩
    · have hslice : (content.drop position).take chunk ≠ [] := by simp [hrest, hchunk.ne']
      rw [Bytes.slices_of_ne_nil hchunk hrest] at hslices hrounds
      rw [← drop_after_slice] at hslices hrounds
      obtain ⟨hfirst, hothers⟩ := List.forall_mem_cons.mp hslices
      obtain ⟨frame, entropy, hseal⟩ := Writer.sealBuffer_succeeds
        (w := { w with buffer := (content.drop position).take chunk }) hroom hsize hfirst world.entropy
      obtain ⟨hsame, hgrown⟩ := FileSystem.appendAt_spec hold frame
      have hwaits : ({ w with frames := w.frames + 1 } : Writer).Waits := ⟨hw.unpoisoned, hw.empty, hw.opened⟩
      rw [sealSlices_next hread hslice hw hseal]
      exact ih ((hsame.contentAt_of_ne hne).trans hcontent) hgrown hwaits hroom hsize hothers
        (Nat.lt_of_succ_lt_succ hrounds)

/-! ## Encrypting a file -/

/-- What is asked of a call that encrypts a file. -/
structure Job where
  input : String
  output : String
  chunk : Nat

/-- A call that encrypted a file: what was asked of it, how many frames it told of, what the file held, and the frames. -/
structure Encryption where
  job : Job
  count : Nat
  content : Bytes
  encodings : List Bytes

namespace Encryption

/-- The slices of the file. -/
def slices (x : Encryption) : List Bytes := Bytes.slices x.job.chunk x.content

/-- Whether a call did what was asked of it, in a file system in which its output is at a location. -/
structure Right (recipient : Rsa.PublicKey) (byte : Nat → UInt8) (target : Location) (fs : FileSystem) (x : Encryption) :
    Prop where
  chunk_pos : 0 < x.job.chunk
  /-- The input is another file than the output, and was read as it is. -/
  reads : ∃ source, source ≠ target ∧ fs.openRead x.job.input = .ok source ∧ fs.contentAt source = .ok x.content
  /-- The frames are those of the slices of the input, in their order. -/
  sealed : List.Forall₂ (Sealed recipient byte) x.slices x.encodings
  /-- Only the last slice may be shorter than asked. -/
  whole : ∀ slice ∈ x.slices.dropLast, slice.length = x.job.chunk
  count_eq : x.count = x.encodings.length ∧ x.count = (x.content.length + x.job.chunk - 1) / x.job.chunk

variable {recipient : Rsa.PublicKey} {byte : Nat → UInt8} {fs fs' : FileSystem} {x : Encryption}

/-- An encryption is right of the file system before it too, as its input is another file. -/
theorem Right.of_sameBut (hx : x.Right recipient byte target fs') (h : FileSystem.SameBut target fs fs') :
    x.Right recipient byte target fs := by
  obtain ⟨source, hne, hopen, hcontent⟩ := hx.reads
  exact { hx with reads := ⟨source, hne, h.openRead hopen hne, (h.contentAt_of_ne hne).symm.trans hcontent⟩ }

/-- The slices of all calls are sealed in the frames of all calls, and make up the files. -/
theorem sealed_flatMap {xs : List Encryption} (h : ∀ x ∈ xs, x.Right recipient byte target fs) :
    List.Forall₂ (Sealed recipient byte) (xs.flatMap slices) (xs.flatMap encodings) ∧
      (xs.flatMap slices).flatten = xs.flatMap Encryption.content := by
  induction xs with
  | nil => exact ⟨.nil, rfl⟩
  | cons x xs ih =>
    obtain ⟨hx, hxs⟩ := List.forall_mem_cons.mp h
    obtain ⟨hsealed, hflatten⟩ := ih hxs
    refine ⟨List.rel_append hx.sealed hsealed, ?_⟩
    rw [List.flatMap_cons, List.flatten_append, hflatten, List.flatMap_cons, slices, Bytes.flatten_slices hx.chunk_pos]

end Encryption

variable {recipient : Rsa.PublicKey} {byte : Nat → UInt8} {fs fs' : FileSystem} {x : Encryption} {input output : String}
  {opening : FileSystem.Opening}

/-- What a call does to the world: it puts its frames behind what its output keeps, and changes nothing else. -/
structure Encryption.Does (recipient : Rsa.PublicKey) (target : Location) (opening : FileSystem.Opening)
    (world world' : World FileSystem) (x : Encryption) : Prop where
  place : world.sink.locate x.job.output = .ok ⟨target, false⟩
  right : x.Right recipient world.entropy.byte target world.sink
  same : FileSystem.SameBut target world.sink world'.sink
  held : world'.sink.contentAt target = .ok (opening.kept world.sink target ++ x.encodings.flatten)
  byte : world'.entropy.byte = world.entropy.byte

/-- A path leads to one place only. -/
theorem Encryption.Does.target_eq (h : x.Does recipient target opening world world') {target' : Location}
    (hplace : world.sink.locate x.job.output = .ok ⟨target', false⟩) : target = target' := by
  rw [h.place] at hplace
  cases hplace
  rfl

/-- A call that succeeds opened its input, then its output, and sealed the slices of the one onto the other. -/
theorem exists_sealSlices_of_encrypt (h : encrypt recipient input output chunk opening world = (.ok n, world')) :
    ∃ source target opened rounds, 0 < chunk ∧ world.sink.openRead input = .ok source ∧
      world.sink.openWrite output opening FileSystem.fileMode = .ok (target, opened) ∧
      sealSlices source chunk (FileSystem.sinkAt target) rounds 0 { recipient } { world with sink := opened } =
        (.ok n, world') := by
  unfold encrypt at h
  split at h
  · cases h
  rename_i hchunk
  split at h
  · cases h
  rename_i source hsource
  split at h
  · cases h
  rename_i target opened htarget
  dsimp only at h
  split at h
  · cases h
  exact ⟨source, target, opened, _, Nat.pos_of_ne_zero hchunk, hsource, htarget, h⟩

/-- A call that succeeds did what was asked of it. -/
theorem encrypt_ok (hapart : world.sink.Apart input output)
    (h : encrypt recipient input output chunk opening world = (.ok n, world')) :
    ∃ (target : Location) (x : Encryption), x.job = ⟨input, output, chunk⟩ ∧ x.count = n ∧
      x.Does recipient target opening world world' := by
  obtain ⟨source, target, opened, rounds, hpos, hsource, htarget, hseal⟩ := exists_sealSlices_of_encrypt h
  obtain ⟨hplace, hsame, hkept⟩ := FileSystem.openWrite_spec htarget
  have hne : source ≠ target := hapart.ne hsource hplace
  obtain ⟨content, hcontent⟩ := exists_content_of_sealSlices hpos hseal
  obtain ⟨encodings, hsealed, hcount, hgrown, hheld, hbyte⟩ := sealSlices_ok hpos hne hcontent hkept ⟨rfl, rfl, rfl⟩ hseal
  rw [List.drop_zero] at hsealed
  rw [Nat.zero_add] at hcount
  have hslices : n = (content.length + chunk - 1) / chunk := by
    rw [hcount, ← hsealed.length_eq, Bytes.length_slices hpos]
  refine ⟨target, ⟨⟨input, output, chunk⟩, n, content, encodings⟩, rfl, rfl, hplace, ?_, hsame.trans hgrown, hheld, hbyte⟩
  exact ⟨hpos, ⟨source, hne, hsource, (hsame.contentAt_of_ne hne).symm.trans hcontent⟩, hsealed,
    fun _ => Bytes.length_eq_of_mem_dropLast_slices, hcount, hslices⟩

/-- Whether a call can do what is asked of it, once its output is open: its input is a file other than the output, and no slice
is too long for a frame. -/
structure Job.Feasible (fs : FileSystem) (job : Job) : Prop where
  chunk_pos : 0 < job.chunk
  chunk_lt : job.chunk + Gcm.tagSize < 256 ^ Frame.lengthSize
  apart : fs.Apart job.input job.output
  reads : ∃ source content, fs.openRead job.input = .ok source ∧ fs.contentAt source = .ok content

/-- A call that can be made stays one while only the output changes. -/
theorem Job.Feasible.of_sameBut {job : Job} (hjob : job.Feasible fs) (hplace : fs.locate job.output = .ok ⟨target, false⟩)
    (h : FileSystem.SameBut target fs fs') : job.Feasible fs' := by
  obtain ⟨source, content, hopen, hcontent⟩ := hjob.reads
  have hne : source ≠ target := hjob.apart.ne hopen hplace
  exact { hjob with
    apart := h.apart hjob.apart
    reads := ⟨source, content, h.symm.openRead hopen hne, (h.contentAt_of_ne hne).trans hcontent⟩ }

/-- A feasible call succeeds if its output can be opened and a key can be wrapped. -/
theorem encrypt_succeeds {job : Job} (hjob : job.Feasible world.sink)
    (htarget : world.sink.openWrite job.output opening FileSystem.fileMode = .ok (target, fs'))
    (hroom : recipient.Fits KeyMaterial.keySize) (hsize : recipient.size < 256 ^ Frame.lengthSize) :
    ∃ n world', encrypt recipient job.input job.output job.chunk opening world = (.ok n, world') := by
  obtain ⟨hchunk, hfits, hapart, source, content, hsource, hcontent⟩ := hjob
  obtain ⟨hplace, hsame, hkept⟩ := FileSystem.openWrite_spec htarget
  have hne : source ≠ target := hapart.ne hsource hplace
  have hheld : fs'.contentAt source = .ok content := (hsame.contentAt_of_ne hne).trans hcontent
  have hbound : job.chunk < chunkBound := lt_trans (Nat.lt_of_add_right_lt hfits) (by decide)
  rw [encrypt, if_neg hchunk.ne', hsource]
  dsimp only
  rw [htarget]
  dsimp only
  rw [if_neg (Nat.not_le.mpr hbound), hheld]
  refine sealSlices_succeeds hchunk hne hheld hkept ⟨rfl, rfl, rfl⟩ hroom hsize (fun s hs => ?_) ?_
  · exact lt_of_le_of_lt (Nat.add_le_add_right (Bytes.length_le_of_mem_slices hs) _) hfits
  · rw [List.drop_zero]
    exact Bytes.length_slices_lt hchunk content

/-! ## Encrypting files one after the other -/

/-- Calls that encrypt files one after the other, the first opening its output as told and the others for appending: what each
of them answers, and what becomes of the world. -/
def encryptAll (recipient : Rsa.PublicKey) :
    FileSystem.Opening → List Job → World FileSystem → List (Except Error Nat) × World FileSystem
  | _, [], world => ([], world)
  | opening, job :: jobs, world =>
    let (answer, world) := encrypt recipient job.input job.output job.chunk opening world
    let (answers, world) := encryptAll recipient .append jobs world
    (answer :: answers, world)

/-- What a sequence of calls with the same output comes to that all succeed: where the output is, what each call did, and what
the output holds after the first calls, `old` being what it keeps. Before a call that empties it, it need not hold anything. -/
structure Appended (recipient : Rsa.PublicKey) (target : Location) (old : Bytes) (opening : FileSystem.Opening)
    (jobs : List Job) (counts : List Nat) (world : World FileSystem) (xs : List Encryption) : Prop where
  place : ∀ job ∈ jobs, world.sink.locate job.output = .ok ⟨target, false⟩
  jobs_eq : xs.map Encryption.job = jobs
  counts_eq : xs.map Encryption.count = counts
  right : ∀ x ∈ xs, x.Right recipient world.entropy.byte target world.sink
  /-- After each call the output holds what it held before, with the frames of the call behind it, and no other file is
  changed. -/
  stages : ∀ i, 0 < i ∨ opening = .append →
    let after := (encryptAll recipient opening (jobs.take i) world).2
    FileSystem.SameBut target world.sink after.sink ∧
      after.sink.contentAt target = .ok (old ++ ((xs.take i).flatMap Encryption.encodings).flatten)

variable {job : Job} {jobs : List Job} {counts : List Nat} {xs : List Encryption}

/-- One more call before others that go on where it ended. -/
theorem Appended.cons (hcall : encrypt recipient job.input job.output job.chunk opening world = (.ok n, world'))
    (hjob : x.job = job) (hcount : x.count = n) (hx : x.Does recipient target opening world world')
    (hold : opening = .append → world.sink.contentAt target = .ok old)
    (h : Appended recipient target (old ++ x.encodings.flatten) .append jobs counts world' xs) :
    Appended recipient target old opening (job :: jobs) (n :: counts) world (x :: xs) where
  place := List.forall_mem_cons.mpr ⟨hjob ▸ hx.place, fun j hj => hx.same.symm.locate (h.place j hj)⟩
  jobs_eq := by rw [List.map_cons, hjob, h.jobs_eq]
  counts_eq := by rw [List.map_cons, hcount, h.counts_eq]
  right := by
    refine List.forall_mem_cons.mpr ⟨hx.right, fun y hy => ?_⟩
    have hright := (h.right y hy).of_sameBut hx.same
    rwa [hx.byte] at hright
  stages := by
    intro i hi
    cases i with
    | zero =>
      have hheld := hold (hi.resolve_left (Nat.lt_irrefl 0))
      exact ⟨.refl hheld, by simpa [encryptAll] using hheld⟩
    | succ i =>
      obtain ⟨hlater, hheld⟩ := h.stages i (.inr rfl)
      rw [List.take_succ_cons, encryptAll, hcall, List.take_succ_cons, List.flatMap_cons, List.flatten_append,
        ← List.append_assoc]
      exact ⟨hx.same.trans hlater, hheld⟩

/-- Of calls that all succeed the first does, and the others do from where it ended. -/
theorem encryptAll_cons_ok (hok : (encryptAll recipient opening (job :: jobs) world).1 = counts.map .ok) :
    ∃ n rest world', counts = n :: rest ∧
      encrypt recipient job.input job.output job.chunk opening world = (.ok n, world') ∧
      (encryptAll recipient .append jobs world').1 = rest.map .ok := by
  rcases hcall : encrypt recipient job.input job.output job.chunk opening world with ⟨answer, world'⟩
  rw [encryptAll, hcall] at hok
  cases counts with
  | nil => cases hok
  | cons n rest =>
    obtain ⟨rfl, hrest⟩ := List.cons.inj hok
    exact ⟨n, rest, world', rfl, rfl, hrest⟩

/-- Calls that append leave the frames of all behind what the output holds, in their order. -/
theorem encryptAll_append (hplace : ∀ job ∈ jobs, world.sink.locate job.output = .ok ⟨target, false⟩)
    (hold : world.sink.contentAt target = .ok old) (hapart : ∀ job ∈ jobs, world.sink.Apart job.input job.output)
    (hok : (encryptAll recipient .append jobs world).1 = counts.map .ok) :
    ∃ xs, Appended recipient target old .append jobs counts world xs := by
  induction jobs generalizing world old counts with
  | nil =>
    obtain rfl : counts = [] := by simpa [encryptAll, eq_comm] using hok
    refine ⟨[], hplace, rfl, rfl, by simp, fun i _ => ?_⟩
    rw [List.take_nil, List.take_nil, List.flatMap_nil, List.flatten_nil, List.append_nil]
    exact ⟨.refl hold, hold⟩
  | cons job jobs ih =>
    obtain ⟨hfirst, hothers⟩ := List.forall_mem_cons.mp hapart
    obtain ⟨hhere, hthere⟩ := List.forall_mem_cons.mp hplace
    obtain ⟨n, rest, world', rfl, hcall, hrest⟩ := encryptAll_cons_ok hok
    obtain ⟨target', x, hjob, hcount, hx⟩ := encrypt_ok hfirst hcall
    obtain rfl : target' = target := hx.target_eq (hjob ▸ hhere)
    have hheld := hx.held
    rw [FileSystem.Opening.kept_append hold] at hheld
    obtain ⟨xs, hxs⟩ :=
      ih (fun j hj => hx.same.locate (hthere j hj)) hheld (fun j hj => hx.same.apart (hothers j hj)) hrest
    exact ⟨x :: xs, .cons hcall hjob hcount hx (fun _ => hold) hxs⟩

/-- Calls of which the first empties the output leave there the frames of all, in their order. -/
theorem encryptAll_truncate (hone : ∀ j ∈ jobs, world.sink.locate j.output = world.sink.locate job.output)
    (hapart : ∀ j ∈ job :: jobs, world.sink.Apart j.input j.output)
    (hok : (encryptAll recipient .truncate (job :: jobs) world).1 = counts.map .ok) :
    ∃ target xs, Appended recipient target [] .truncate (job :: jobs) counts world xs := by
  obtain ⟨hfirst, hothers⟩ := List.forall_mem_cons.mp hapart
  obtain ⟨n, rest, world', rfl, hcall, hrest⟩ := encryptAll_cons_ok hok
  obtain ⟨target, x, hjob, hcount, hx⟩ := encrypt_ok hfirst hcall
  have hplace := hx.place
  rw [hjob] at hplace
  obtain ⟨xs, hxs⟩ := encryptAll_append (fun j hj => hx.same.locate ((hone j hj).trans hplace)) hx.held
    (fun j hj => hx.same.apart (hothers j hj)) hrest
  exact ⟨target, x :: xs, .cons hcall hjob hcount hx nofun hxs⟩

/-- Feasible calls with the same output all succeed if it is not a directory and a key can be wrapped. -/
theorem encryptAll_succeeds (hroom : recipient.Fits KeyMaterial.keySize) (hsize : recipient.size < 256 ^ Frame.lengthSize)
    (hjobs : ∀ job ∈ jobs, job.Feasible world.sink)
    (hplace : ∀ job ∈ jobs, world.sink.locate job.output = .ok ⟨target, false⟩)
    (hfree : ∀ mode, world.sink.node? target ≠ some (.directory mode)) :
    ∃ counts : List Nat, (encryptAll recipient opening jobs world).1 = counts.map .ok := by
  induction jobs generalizing opening world with
  | nil => exact ⟨[], rfl⟩
  | cons job jobs ih =>
    obtain ⟨hfirst, hothers⟩ := List.forall_mem_cons.mp hjobs
    obtain ⟨hhere, hthere⟩ := List.forall_mem_cons.mp hplace
    obtain ⟨opened, hopen⟩ := FileSystem.exists_openWrite hhere hfree opening FileSystem.fileMode
    obtain ⟨n, world', hcall⟩ := encrypt_succeeds hfirst hopen hroom hsize
    obtain ⟨target', x, hjob, -, hx⟩ := encrypt_ok hfirst.apart hcall
    obtain rfl : target' = target := hx.target_eq (hjob ▸ hhere)
    obtain ⟨counts, hrest⟩ := ih (fun j hj => (hothers j hj).of_sameBut (hthere j hj) hx.same)
      (fun j hj => hx.same.locate (hthere j hj)) hx.same.no_directory_after
    refine ⟨n :: counts, ?_⟩
    rw [encryptAll, hcall, List.map_cons, ← hrest]

/-- What the inputs hold says what was read and what was told. -/
theorem Appended.of_contents (h : Appended recipient target old opening jobs counts world xs) {held : String → Bytes}
    (hheld : ∀ job ∈ jobs, ∃ source, world.sink.openRead job.input = .ok source ∧
      world.sink.contentAt source = .ok (held job.input)) :
    xs.map Encryption.content = jobs.map (fun job => held job.input) ∧
      counts = jobs.map fun job => ((held job.input).length + job.chunk - 1) / job.chunk := by
  have hcontent : ∀ x ∈ xs, x.content = held x.job.input := by
    intro x hx
    obtain ⟨source, -, hopen, hread⟩ := (h.right x hx).reads
    obtain ⟨source', hopen', hread'⟩ := hheld x.job (h.jobs_eq ▸ List.mem_map_of_mem hx)
    rw [hopen] at hopen'
    cases hopen'
    exact Except.ok.inj (hread.symm.trans hread')
  rw [← h.jobs_eq, ← h.counts_eq, List.map_map, List.map_map]
  refine ⟨List.map_congr_left hcontent, List.map_congr_left fun x hx => ?_⟩
  rw [Function.comp, ← hcontent x hx]
  exact (h.right x hx).count_eq.2

/-- After all calls the output holds the frames of all. -/
theorem Appended.final (h : Appended recipient target [] .truncate (job :: jobs) counts world xs) :
    let after := (encryptAll recipient .truncate (job :: jobs) world).2
    FileSystem.SameBut target world.sink after.sink ∧
      after.sink.contentAt target = .ok (xs.flatMap Encryption.encodings).flatten := by
  have hlength : xs.length = (job :: jobs).length := by rw [← h.jobs_eq, List.length_map]
  have hlast := h.stages (job :: jobs).length (.inl (Nat.succ_pos _))
  rwa [List.take_length, ← hlength, List.take_length, List.nil_append] at hlast

/-! ## Decrypting a file -/

/-- A log that opens is decrypted onto the output, and nothing else is changed. -/
theorem decrypt_of_log {k : Rsa.PrivateKey} {l plain : Location} {limit : Nat} {payload : Bytes}
    (hopen : fs.openRead input = .ok l) (hlog : (Log.decrypt k limit (fs.sourceAt l 0)).1 = .ok payload)
    (hplain : fs.openWrite output .truncate FileSystem.fileMode = .ok (plain, fs')) :
    ∃ after, decrypt k limit input output fs = (.ok payload.length, after) ∧ FileSystem.SameBut plain fs after ∧
      after.contentAt plain = .ok payload := by
  obtain ⟨-, hsame, hempty⟩ := FileSystem.openWrite_spec hplain
  obtain ⟨hgrown, hheld⟩ := FileSystem.appendAt_spec hempty payload
  refine ⟨fs'.appendAt plain payload, ?_, hsame.trans hgrown, hheld⟩
  rw [decrypt, hopen]
  dsimp only
  rw [hlog]
  dsimp only
  rw [FileSystem.writeFile, hplain]

/-- The owner of the key decrypts a file of frames to their payloads, if no field is over the limit, and changes nothing but
the output. -/
theorem decrypt_sealed {k : Rsa.PrivateKey} {s : Rsa.Shortcut} (hsound : k.Sound s) (hprime : ∀ p ∈ k.primes, p.Prime)
    {l plain : Location} {payloads encodings : List Bytes} {limit : Nat}
    (hopen : fs.openRead input = .ok l) (hcontent : fs.contentAt l = .ok encodings.flatten)
    (hsealed : List.Forall₂ (Sealed k.toPublicKey byte) payloads encodings) (hsize : k.size ≤ limit)
    (hpayloads : ∀ p ∈ payloads, p.length + Gcm.tagSize ≤ limit)
    (hplain : fs.openWrite output .truncate FileSystem.fileMode = .ok (plain, fs')) :
    ∃ after, decrypt k limit input output fs = (.ok payloads.flatten.length, after) ∧
      FileSystem.SameBut plain fs after ∧ after.contentAt plain = .ok payloads.flatten := by
  have hlog := ((Log.gives_decrypt_sealed hsound hprime hsealed hsize hpayloads).apply
    (FileSystem.sourceAt_delivers hcontent 0)).1
  exact decrypt_of_log hopen hlog hplain

/-! ## The round trip -/

/-- Files that are encrypted onto the same output one after the other, each call succeeding, make a log of their slices, and
the owner of the key decrypts it to the files, one after the other. -/
theorem decrypt_encryptAll {text : String} {k : Rsa.PrivateKey} (hk : Rsa.PrivateKey.ofText text = .ok k)
    (hprime : ∀ p ∈ k.primes, p.Prime) (hone : ∀ j ∈ jobs, world.sink.locate j.output = world.sink.locate job.output)
    (hapart : ∀ j ∈ job :: jobs, world.sink.Apart j.input j.output)
    (hok : (encryptAll k.toPublicKey .truncate (job :: jobs) world).1 = counts.map .ok) :
    ∃ (target : Location) (xs : List Encryption),
      Appended k.toPublicKey target [] .truncate (job :: jobs) counts world xs ∧
      let after := (encryptAll k.toPublicKey .truncate (job :: jobs) world).2.sink
      ∀ log, world.sink.locate log = world.sink.locate job.output →
        ∀ limit, k.size ≤ limit → (∀ x ∈ xs, ∀ slice ∈ x.slices, slice.length + 16 ≤ limit) →
          ∀ path plain opened, after.openWrite path .truncate FileSystem.fileMode = .ok (plain, opened) →
            ∃ decrypted, decrypt k limit log path after = (.ok (xs.flatMap Encryption.content).length, decrypted) ∧
              FileSystem.SameBut plain after decrypted ∧
              decrypted.contentAt plain = .ok (xs.flatMap Encryption.content) := by
  obtain ⟨s, hsound⟩ := Rsa.PrivateKey.sound_of_ofText hk
  obtain ⟨target, xs, happended⟩ := encryptAll_truncate hone hapart hok
  refine ⟨target, xs, happended, ?_⟩
  intro after log hlog limit hsize hslices path plain opened hplain
  obtain ⟨hsame, hheld⟩ := happended.final
  have hplace : world.sink.locate log = .ok ⟨target, false⟩ := hlog.trans (happended.place job List.mem_cons_self)
  have hopen : after.openRead log = .ok target := FileSystem.openRead_of_locate (hsame.locate hplace) hheld
  obtain ⟨hsealed, hcontent⟩ := Encryption.sealed_flatMap happended.right
  rw [← hcontent]
  refine decrypt_sealed hsound hprime hopen hheld hsealed hsize (fun slice hslice => ?_) hplain
  obtain ⟨x, hx, hslice⟩ := List.mem_flatMap.mp hslice
  exact hslices x hx slice hslice

/-- Two files and the place for a third; reads return three bytes at most and are interrupted after two. -/
def Sample.files : FileSystem where
  nodes := [(["a"], .file 0o644 [1, 2, 3, 4, 5]), (["b"], .file 0o644 []), (["c"], .file 0o644 [9])]
  delivery := { mostPerRead := some 3, interrupts := [2] }

/-- What the files hold. -/
def Sample.held (path : String) : Bytes := if path = "a" then [1, 2, 3, 4, 5] else []

/-- An empty file between a file in three slices and the same file in one. -/
def Sample.calls : List Job := [⟨"a", "log", 2⟩, ⟨"b", "./log", 1⟩, ⟨"a", "/log", 9⟩]

theorem Sample.held_spec : ∀ job ∈ Sample.calls, ∃ source, Sample.files.openRead job.input = .ok source ∧
    Sample.files.contentAt source = .ok (Sample.held job.input) :=
  List.forall_mem_cons.mpr ⟨⟨["a"], rfl, rfl⟩, List.forall_mem_cons.mpr
    ⟨⟨["b"], rfl, rfl⟩, List.forall_mem_singleton.mpr ⟨["a"], rfl, rfl⟩⟩⟩

theorem Sample.place : ∀ job ∈ Sample.calls, Sample.files.locate job.output = .ok ⟨["log"], false⟩ :=
  List.forall_mem_cons.mpr ⟨rfl, List.forall_mem_cons.mpr ⟨rfl, List.forall_mem_singleton.mpr rfl⟩⟩

theorem Sample.apart : ∀ job ∈ Sample.calls, Sample.files.Apart job.input job.output :=
  List.forall_mem_cons.mpr ⟨FileSystem.apart_of_locate rfl rfl (by decide), List.forall_mem_cons.mpr
    ⟨FileSystem.apart_of_locate rfl rfl (by decide), List.forall_mem_singleton.mpr
      (FileSystem.apart_of_locate rfl rfl (by decide))⟩⟩

theorem Sample.chunk_mem : ∀ job ∈ Sample.calls, 0 < job.chunk ∧ job.chunk ≤ 9 := by
  decide

/-- The log of three calls is decrypted onto the third file. -/
theorem decrypt_encryptAll_sample :
    let world : World FileSystem := { sink := Sample.files, entropy := .cycle [7] }
    let encrypted := encryptAll Sample.key.toPublicKey .truncate Sample.calls world
    encrypted.1 = [.ok 3, .ok 0, .ok 1] ∧
      ∃ decrypted, decrypt Sample.key 100 "./log" "c" encrypted.2.sink = (.ok 10, decrypted) ∧
        decrypted.contentAt ["c"] = .ok [1, 2, 3, 4, 5, 1, 2, 3, 4, 5] := by
  intro world encrypted
  have hfeasible : ∀ job ∈ Sample.calls, job.Feasible world.sink := by
    intro job hjob
    obtain ⟨hpos, hle⟩ := Sample.chunk_mem job hjob
    obtain ⟨source, hopen, hcontent⟩ := Sample.held_spec job hjob
    exact ⟨hpos, lt_of_le_of_lt (Nat.add_le_add_right hle _) (by decide), Sample.apart job hjob, source, _, hopen, hcontent⟩
  have hsucceeds : ∃ counts : List Nat, encrypted.1 = counts.map .ok :=
    encryptAll_succeeds EnvelopeLog.Sample.fits_key EnvelopeLog.Sample.size_key_lt hfeasible Sample.place (by exact nofun)
  obtain ⟨counts, hok⟩ := hsucceeds
  have hone : ∀ job ∈ Sample.calls.tail, world.sink.locate job.output = world.sink.locate "log" :=
    fun job hjob => Sample.place job (List.mem_of_mem_tail hjob)
  have hapart : ∀ job ∈ Sample.calls, world.sink.Apart job.input job.output := Sample.apart
  obtain ⟨target, xs, happended, hdecrypt⟩ := decrypt_encryptAll Sample.ofText_text Sample.prime_of_mem hone hapart hok
  obtain ⟨hcontents, hcounts⟩ := happended.of_contents Sample.held_spec
  have hjobs : xs.map Encryption.job = Sample.calls := happended.jobs_eq
  have hplain : ∃ opened, encrypted.2.sink.openWrite "c" .truncate FileSystem.fileMode = .ok (["c"], opened) := by
    obtain ⟨hsame, -⟩ := happended.final
    refine FileSystem.exists_openWrite (hsame.locate rfl) (fun mode => ?_) _ _
    obtain rfl : ["log"] = target := by
      have hplace : Sample.files.locate "log" = .ok ⟨target, false⟩ := happended.place _ List.mem_cons_self
      cases hplace
      rfl
    rw [hsame.others ["c"] (by decide)]
    exact nofun
  obtain ⟨opened, hopened⟩ := hplain
  have hslices : ∀ x ∈ xs, ∀ slice ∈ x.slices, slice.length + 16 ≤ 100 := by
    intro x hx slice hslice
    have hle := (Sample.chunk_mem x.job (hjobs ▸ List.mem_map_of_mem hx)).2
    have := Bytes.length_le_of_mem_slices hslice
    omega
  obtain ⟨decrypted, hanswer, -, hheld⟩ := hdecrypt "./log" rfl 100 EnvelopeLog.Sample.size_key.le hslices "c" ["c"] opened hopened
  rw [List.flatMap_def, hcontents] at hanswer hheld
  exact ⟨hok.trans (by rw [hcounts]; rfl), decrypted, hanswer, hheld⟩

end LogFile

end EnvelopeLog
