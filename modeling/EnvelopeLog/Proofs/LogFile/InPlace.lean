import EnvelopeLog.Proofs.FileSystem.Writing
import EnvelopeLog.Proofs.Log.Joining
import EnvelopeLog.Proofs.LogFile

/-!
# Files that are encrypted onto themselves

To encrypt a file onto another one keeps what it holds: the frames open to it. The input and the output may also be the same file,
under one name or two. The output is opened before the input is read, so if it is emptied there is nothing left to read, and the
call succeeds without a frame (`encrypt_onto_itself`); if it is appended to, it grows faster than it is read, and the call does not
succeed unless the file is empty (`sealSlices_growing`). So what a call that succeeds wrote opens to what the input held
exactly if the input is another file than the output or held nothing (`encrypt_keeps_iff`).
-/

namespace EnvelopeLog

open FileSystem (SameBut)

namespace FileSystem

variable {fs : FileSystem} {path : String} {l : Location}

/-- What can be opened for reading and is not a directory holds bytes. -/
theorem exists_content_of_openRead (hopen : fs.openRead path = .ok l) (hfile : ∀ mode, fs.node? l ≠ some (.directory mode)) :
    ∃ content, fs.contentAt l = .ok content := by
  obtain ⟨place, hplace, rfl⟩ := locate_of_openRead hopen
  rw [openRead, find, hplace] at hopen
  rcases hnode : fs.node? place.location with _ | mode | ⟨mode, content⟩
  · simp only [hnode] at hopen
    cases hopen
  · exact absurd hnode (hfile mode)
  · exact ⟨content, contentAt_eq_ok_iff.mpr ⟨mode, hnode⟩⟩

/-- A file that can be opened for reading reads what it holds. -/
theorem readBytes_of_openRead {content : Bytes} (hopen : fs.openRead path = .ok l) (hcontent : fs.contentAt l = .ok content) :
    fs.readBytes path = .ok content := by
  rw [readBytes, hopen]
  dsimp only
  rw [hcontent]
  rfl

end FileSystem

namespace LogFile

variable {recipient : Rsa.PublicKey} {input output : String} {opening : FileSystem.Opening} {l source target : Location}
  {chunk rounds position n : Nat} {content : Bytes} {w : Writer} {world world' : World FileSystem}

/-- A file that grows by a frame for every slice that is read of it is not read to its end. -/
theorem sealSlices_growing (hchunk : 0 < chunk) (hcontent : world.sink.contentAt l = .ok content)
    (hposition : position < content.length) (hw : w.Waits) :
    ∃ e, (sealSlices l chunk (FileSystem.sinkAt l) rounds position w world).1 = .error e := by
  induction rounds generalizing position w world content with
  | zero => exact ⟨_, rfl⟩
  | succ rounds ih =>
    have hread := FileSystem.readUpTo_sourceAt hcontent position chunk
    have hslice : (content.drop position).take chunk ≠ [] := by
      rw [← List.length_pos_iff, List.length_take, List.length_drop]
      omega
    rcases hseal : ({ w with buffer := (content.drop position).take chunk } : Writer).sealBuffer world.entropy with
      ⟨e | frame, entropy⟩
    · exact ⟨e, sealSlices_unsealed hread hslice hw hseal⟩
    · rw [sealSlices_next hread hslice hw hseal]
      obtain ⟨-, hgrown⟩ := FileSystem.appendAt_spec hcontent frame
      have hframe : 0 < frame.length := List.length_pos_iff.mpr (Writer.sealed_of_sealBuffer hseal).ne_nil
      refine ih hgrown ?_ ⟨hw.unpoisoned, hw.empty, hw.opened⟩
      rw [List.length_take, List.length_drop, List.length_append]
      omega

/-- Encrypting a file onto itself, with the output emptied first, makes no frame and leaves an empty file. -/
theorem encrypt_onto_itself (hchunk : 0 < chunk) (hbound : chunk < chunkBound) (hsource : world.sink.openRead input = .ok l)
    {fs : FileSystem} (htarget : world.sink.openWrite output .truncate FileSystem.fileMode = .ok (l, fs)) :
    encrypt recipient input output chunk .truncate world = (.ok 0, { world with sink := fs }) ∧ fs.contentAt l = .ok [] := by
  obtain ⟨-, -, hempty⟩ := FileSystem.openWrite_spec htarget
  refine ⟨?_, hempty⟩
  have hread : ((fs.sourceAt l 0).readUpTo chunk).1 = .ok [] := by
    rw [FileSystem.readUpTo_sourceAt hempty, FileSystem.Opening.kept, List.drop_nil, List.take_nil]
  rw [encrypt, if_neg hchunk.ne', hsource]
  dsimp only
  rw [htarget]
  dsimp only
  rw [if_neg (Nat.not_le.mpr hbound)]
  exact sealSlices_end hread ⟨rfl, rfl, rfl⟩

/-- What a call does that succeeds: it reads its input and puts frames behind what its output keeps, and changes nothing else. -/
structure Encrypts (input output : String) (opening : FileSystem.Opening) (fs fs' : FileSystem) (content : Bytes)
    (frames : List Bytes) : Prop where
  /-- What the input held before the call. -/
  reads : fs.readBytes input = .ok content
  adds : ∃ target, fs.locate output = .ok ⟨target, false⟩ ∧ SameBut target fs fs' ∧
    fs'.contentAt target = .ok (opening.kept fs target ++ frames.flatten)

/-- A call that succeeds on one file as input and output made no frame, and unless it emptied the file, the file was empty. What
such a file keeps is all that there is to read, and a call that finds something to read does not succeed. -/
theorem encrypt_ok_of_not_apart (hsame : ¬world.sink.Apart input output)
    (h : encrypt recipient input output chunk opening world = (.ok n, world')) :
    ∃ content, Encrypts input output opening world.sink world'.sink content [] ∧ n = 0 ∧
      (opening = .append → content = []) := by
  obtain ⟨source, target, opened, rounds, hpos, hsource, htarget, hseal⟩ := exists_sealSlices_of_encrypt h
  obtain ⟨hplace, hothers, hkept⟩ := FileSystem.openWrite_spec htarget
  obtain rfl : source = target := by
    by_contra hne
    obtain ⟨place, hread, rfl⟩ := FileSystem.locate_of_openRead hsource
    exact hsame (FileSystem.apart_of_locate hread hplace hne)
  obtain ⟨content, hcontent⟩ := FileSystem.exists_content_of_openRead hsource hothers.no_directory
  have hwaits : ({ recipient } : Writer).Waits := ⟨rfl, rfl, rfl⟩
  have hnothing : opening.kept world.sink source = [] := by
    by_contra hne
    have hgrows : ∃ e, (sealSlices source chunk (FileSystem.sinkAt source) rounds 0 { recipient }
        { world with sink := opened }).1 = .error e :=
      sealSlices_growing hpos hkept (List.length_pos_iff.mpr hne) hwaits
    rw [hseal] at hgrows
    obtain ⟨e, ⟨⟩⟩ := hgrows
  rw [hnothing] at hkept
  have hread : ((opened.sourceAt source 0).readUpTo chunk).1 = .ok [] := by
    rw [FileSystem.readUpTo_sourceAt hkept, List.drop_nil, List.take_nil]
  cases rounds with
  | zero => cases hseal
  | succ rounds =>
    rw [sealSlices_end hread hwaits] at hseal
    cases hseal
    refine ⟨content, ⟨FileSystem.readBytes_of_openRead hsource hcontent, source, hplace, hothers, ?_⟩, rfl, ?_⟩
    · rw [hkept, hnothing]
      rfl
    · rintro rfl
      rwa [FileSystem.Opening.kept_append hcontent] at hnothing

/-- What a call that succeeds wrote opens to what the input held, exactly if the input is another file than the output or held
nothing. Onto itself a file makes no frame, and unless that empties it, it was empty before; nothing but the output is changed. -/
theorem encrypt_keeps_iff {text : String} {k : Rsa.PrivateKey} (hk : Rsa.PrivateKey.ofText text = .ok k)
    (hprime : ∀ p ∈ k.primes, p.Prime)
    (h : encrypt k.toPublicKey input output chunk opening world = (.ok n, world')) :
    ∃ content frames, Encrypts input output opening world.sink world'.sink content frames ∧ n = frames.length ∧
      (∀ limit, k.size ≤ limit → (∀ slice ∈ Bytes.slices chunk content, slice.length + 16 ≤ limit) →
        (Log.decryptBytes k limit frames.flatten = .ok content ↔ world.sink.Apart input output ∨ content = [])) ∧
      (¬world.sink.Apart input output → frames = [] ∧ (opening = .append → content = [])) := by
  obtain ⟨shortcut, hsound⟩ := Rsa.PrivateKey.sound_of_ofText hk
  by_cases hapart : world.sink.Apart input output
  · obtain ⟨target, x, hjob, hcount, hx⟩ := encrypt_ok hapart h
    obtain ⟨source, hne, hsource, hcontent⟩ := hx.right.reads
    have hsealed := hx.right.sealed
    have hplace := hx.place
    have hpos := hx.right.chunk_pos
    rw [Encryption.slices] at hsealed
    rw [hjob] at hsource hplace hsealed hpos
    refine ⟨x.content, x.encodings, ⟨FileSystem.readBytes_of_openRead hsource hcontent, target, hplace, hx.same, hx.held⟩,
      hcount.symm.trans hx.right.count_eq.1, ?_, fun hnot => absurd hapart hnot⟩
    intro limit hlimit hslices
    have hopens := Log.gives_decrypt_sealed hsound hprime hsealed hlimit hslices
    have hlog : Log.decryptBytes k limit x.encodings.flatten = .ok (Bytes.slices chunk x.content).flatten :=
      congrArg Prod.fst (hopens.after 0)
    rw [hlog, Bytes.flatten_slices hpos]
    exact ⟨fun _ => .inl hapart, fun _ => rfl⟩
  · obtain ⟨content, hdoes, rfl, hempty⟩ := encrypt_ok_of_not_apart hapart h
    refine ⟨content, [], hdoes, rfl, fun limit _ _ => ?_, fun _ => ⟨rfl, hempty⟩⟩
    rw [List.flatten_nil, Log.decryptBytes_nil, Except.ok.injEq, eq_comm]
    exact ⟨.inr, fun hor => hor.resolve_left hapart⟩

/-- A file in three slices is encrypted onto a new one, and the frames open to it. -/
theorem encrypt_keeps_iff_sample :
    let world : World FileSystem := { sink := Sample.files, entropy := .cycle [7] }
    ∃ n after frames, encrypt Sample.key.toPublicKey "a" "log" 2 .truncate world = (.ok n, after) ∧
      Encrypts "a" "log" .truncate Sample.files after.sink [1, 2, 3, 4, 5] frames ∧
      Log.decryptBytes Sample.key 100 frames.flatten = .ok [1, 2, 3, 4, 5] := by
  intro world
  have hapart : Sample.files.Apart "a" "log" := FileSystem.apart_of_locate rfl rfl (by decide)
  have hfeasible : Job.Feasible world.sink ⟨"a", "log", 2⟩ := ⟨by decide, by decide, hapart, ["a"], _, rfl, rfl⟩
  have hopened : ∃ fs, Sample.files.openWrite "log" .truncate FileSystem.fileMode = .ok (["log"], fs) :=
    FileSystem.exists_openWrite rfl (by exact nofun) _ _
  obtain ⟨fs, htarget⟩ := hopened
  obtain ⟨n, after, hanswer⟩ := encrypt_succeeds hfeasible htarget Sample.fits_key Sample.size_key_lt
  obtain ⟨content, frames, hdoes, -, hkeeps, -⟩ := encrypt_keeps_iff Sample.ofText_text Sample.prime_of_mem hanswer
  obtain rfl : [1, 2, 3, 4, 5] = content := Except.ok.inj hdoes.reads
  have hslices : ∀ slice ∈ Bytes.slices 2 [1, 2, 3, 4, 5], slice.length + 16 ≤ 100 := fun slice hslice =>
    (Nat.add_le_add_right (Bytes.length_le_of_mem_slices hslice) 16).trans (by decide)
  exact ⟨n, after, frames, hanswer, hdoes, (hkeeps 100 Sample.size_key.le hslices).mpr (.inl hapart)⟩

/-- The same file under two names: the call succeeds, the file is empty, and no frames open to what it held. -/
theorem encrypt_onto_itself_loses :
    let world : World FileSystem := { sink := Sample.files, entropy := .cycle [7] }
    Sample.files.readBytes "a" = .ok [1, 2, 3, 4, 5] ∧
      ∃ after, encrypt Sample.key.toPublicKey "a" "./a" 2 .truncate world = (.ok 0, after) ∧
        after.sink.readBytes "a" = .ok [] ∧
        ¬∃ frames limit, Encrypts "a" "./a" .truncate Sample.files after.sink [1, 2, 3, 4, 5] frames ∧
          Log.decryptBytes Sample.key limit frames.flatten = .ok [1, 2, 3, 4, 5] := by
  intro world
  have hopened : ∃ fs, Sample.files.openWrite "./a" .truncate FileSystem.fileMode = .ok (["a"], fs) :=
    FileSystem.exists_openWrite rfl (by exact nofun) _ _
  obtain ⟨fs, htarget⟩ := hopened
  have hdone : encrypt Sample.key.toPublicKey "a" "./a" 2 .truncate world = (.ok 0, { world with sink := fs }) ∧
      fs.contentAt ["a"] = .ok [] :=
    encrypt_onto_itself (by decide) (by decide) rfl htarget
  obtain ⟨hanswer, hempty⟩ := hdone
  obtain ⟨-, hsame, -⟩ := FileSystem.openWrite_spec htarget
  have hread : fs.readBytes "a" = .ok [] :=
    FileSystem.readBytes_of_openRead (FileSystem.openRead_of_locate (hsame.locate rfl) hempty) hempty
  refine ⟨rfl, _, hanswer, hread, ?_⟩
  rintro ⟨frames, limit, hdoes, hopens⟩
  obtain ⟨target, hplace, -, hheld⟩ := hdoes.adds
  obtain rfl : ["a"] = target := congrArg FileSystem.Place.location (Except.ok.inj hplace)
  have hnone : frames.flatten = [] := by
    rw [hempty] at hheld
    exact (Except.ok.inj hheld).symm
  rw [hnone, Log.decryptBytes_nil] at hopens
  cases hopens

end LogFile

end EnvelopeLog
