import EnvelopeLog.KeyPair
import EnvelopeLog.Proofs.FileSystem.Directories

/-!
# Key pairs that are saved

The files of a key pair are written one after the other. If nothing goes wrong, the directory holds the pair, the private half
being its owner's alone. Otherwise saving ends at the first fault, and nothing is taken back: a file whose opening failed is as
it was, one that was opened holds a first part of its half, and no other file is touched (`save_spec`).
-/

namespace EnvelopeLog.KeyPair

variable {p : KeyPair} {troubles : Troubles} {directory : String} {fs fs' : FileSystem} {b b' : Bytes}

/-! ## The places of the files -/

theorem plain_publicKey : Path.Plain "public_key.json" := ⟨by decide, by decide, by decide, by decide⟩

theorem plain_privateKey : Path.Plain "private_key.json" := ⟨by decide, by decide, by decide, by decide⟩

/-- The files of a pair are in the same place under different names. -/
theorem locate_pathsIn {place place' : FileSystem.Place} (h : fs.locate (pathsIn directory).publicKey = .ok place)
    (h' : fs.locate (pathsIn directory).privateKey = .ok place') :
    ∃ l, place = ⟨l ++ ["public_key.json"], false⟩ ∧ place' = ⟨l ++ ["private_key.json"], false⟩ := by
  obtain ⟨l, hl, rfl⟩ := FileSystem.locate_join plain_publicKey h
  obtain ⟨l', hl', rfl⟩ := FileSystem.locate_join plain_privateKey h'
  rw [hl] at hl'
  cases hl'
  exact ⟨l, rfl, rfl⟩

/-! ## What the directory holds -/

/-- Of the files of a pair, only that of the public half was written and holds the given bytes. All other files, that of the
private half among them, are as they were. -/
structure HalfWritten (directory : String) (fs fs' : FileSystem) (b : Bytes) : Prop where
  publicKey : fs'.readBytes (pathsIn directory).publicKey = .ok b
  others : ∃ l, fs'.locate (pathsIn directory).publicKey = .ok ⟨l ++ ["public_key.json"], false⟩ ∧
    ∀ l', l' ≠ l ++ ["public_key.json"] → fs.Stays fs' l'

/-- Both files of a pair were written and hold the given bytes, and all other files are as they were. -/
structure Written (directory : String) (fs fs' : FileSystem) (b b' : Bytes) : Prop where
  publicKey : fs'.readBytes (pathsIn directory).publicKey = .ok b
  privateKey : fs'.readBytes (pathsIn directory).privateKey = .ok b'
  others : ∃ l, fs'.locate (pathsIn directory).publicKey = .ok ⟨l ++ ["public_key.json"], false⟩ ∧
    fs'.locate (pathsIn directory).privateKey = .ok ⟨l ++ ["private_key.json"], false⟩ ∧
    ∀ l', l' ≠ l ++ ["public_key.json"] → l' ≠ l ++ ["private_key.json"] → fs.Stays fs' l'

/-- How saving a pair ends: the directory cannot be made; the file of a half cannot be opened; the calls on the open file of a half
stop after so many of its bytes; or the pair is saved, the private half being its owner's alone. -/
inductive Outcome (p : KeyPair) (directory : String) (fs : FileSystem) (troubles : Troubles) :
    Except Error KeyPaths × FileSystem → Prop
  | noDirectory {e : OsFault} {fs' : FileSystem} (h : (fs.makeDirectories directory).1 = some e)
      (adds : fs.AddsDirectories fs') : Outcome p directory fs troubles (.error (.io (.os e)), fs')
  | publicKeyShut {fault : IoFault} {fs' : FileSystem}
      (h : fs'.openAnew (pathsIn directory).publicKey FileSystem.fileMode troubles.publicKey = .error fault)
      (adds : fs.AddsDirectories fs') : Outcome p directory fs troubles (.error (.io fault), fs')
  | publicKeyStopped {n : Nat} {fault : IoFault} {fs' : FileSystem}
      (h : troubles.publicKey.cut (Bytes.ofText p.publicKey) = some (n, fault))
      (written : HalfWritten directory fs fs' ((Bytes.ofText p.publicKey).take n)) :
      Outcome p directory fs troubles (.error (.io fault), fs')
  | privateKeyShut {fault : IoFault} {fs' : FileSystem}
      (h : fs'.openAnew (pathsIn directory).privateKey FileSystem.privateMode troubles.privateKey = .error fault)
      (written : HalfWritten directory fs fs' (Bytes.ofText p.publicKey)) :
      Outcome p directory fs troubles (.error (.io fault), fs')
  | privateKeyStopped {n : Nat} {fault : IoFault} {fs' : FileSystem}
      (h : troubles.privateKey.stop (Bytes.ofText p.privateKey) = some (n, fault))
      (written : Written directory fs fs' (Bytes.ofText p.publicKey) ((Bytes.ofText p.privateKey).take n)) :
      Outcome p directory fs troubles (.error (.io fault), fs')
  | saved {fs' : FileSystem} (written : Written directory fs fs' (Bytes.ofText p.publicKey) (Bytes.ofText p.privateKey))
      (mode : fs'.mode (pathsIn directory).privateKey = .ok FileSystem.privateMode) :
      Outcome p directory fs troubles (.ok (pathsIn directory), fs')

/-! ## Saving -/

/-- What is written to the file of the public half, directories being made before, is all that is written. -/
theorem halfWritten_of_admits {l : Location} (hadds : fs.AddsDirectories fs')
    (hadmits : fs'.Admits (pathsIn directory).publicKey l) (mode : Nat) (b : Bytes) :
    HalfWritten directory fs (fs'.set l (.file mode b)) b := by
  obtain ⟨base, -, hplace⟩ := FileSystem.locate_join plain_publicKey hadmits.place
  cases hplace
  have hsame := hadmits.sameBut mode b
  have hlocate := hsame.locate hadmits.place
  exact ⟨FileSystem.readBytes_of_node hlocate (hadmits.node?_set mode b), base, hlocate,
    fun l' hne => (hadds.node l').sameBut hsame hne⟩

/-- What is written to the file of the private half leaves that of the public half alone. -/
theorem HalfWritten.complete {l : Location} (h : HalfWritten directory fs fs' b)
    (hadmits : fs'.Admits (pathsIn directory).privateKey l) (mode : Nat) (b' : Bytes) :
    Written directory fs (fs'.set l (.file mode b')) b b' := by
  obtain ⟨base, hplace, hothers⟩ := h.others
  obtain ⟨base', hpublic, hprivate⟩ := locate_pathsIn hplace hadmits.place
  cases hprivate
  obtain rfl : base = base' := by simpa using hpublic
  have hsame := hadmits.sameBut mode b'
  have hne : base ++ ["public_key.json"] ≠ base ++ ["private_key.json"] := by simp
  have hlocate := hsame.locate hadmits.place
  constructor
  case publicKey => exact hsame.readBytes hplace hne h.publicKey
  case privateKey => exact FileSystem.readBytes_of_node hlocate (hadmits.node?_set mode b')
  case others =>
    exact ⟨base, hsame.locate hplace, hlocate, fun l' hpublic hprivate => (hothers l' hpublic).sameBut hsame hprivate⟩

/-- Whether the private half can be written does not depend on whether the public half is written already. -/
theorem replaceable_privateKey_iff {l : Location} (hadmits : fs.Admits (pathsIn directory).publicKey l) (mode : Nat) (b : Bytes)
    (trouble : FileSystem.Trouble) (stop : Option (Nat × IoFault)) :
    (fs.set l (.file mode b)).Replaceable (pathsIn directory).privateKey trouble stop ↔
      fs.Replaceable (pathsIn directory).privateKey trouble stop := by
  have hsame := hadmits.sameBut mode b
  have hne {m : Location} (h : fs.locate (pathsIn directory).privateKey = .ok ⟨m, false⟩) : m ≠ l := by
    obtain ⟨base, hpublic, hprivate⟩ := locate_pathsIn hadmits.place h
    cases hpublic
    cases hprivate
    simp
  constructor
  · rintro ⟨hopens, ⟨m, h⟩, hstop⟩
    exact ⟨hopens, ⟨m, hsame.symm.admits h (hne (hsame.symm.locate h.place))⟩, hstop⟩
  · rintro ⟨hopens, ⟨m, h⟩, hstop⟩
    exact ⟨hopens, ⟨m, hsame.admits h (hne h.place)⟩, hstop⟩

/-- Saving a pair succeeds exactly if the directory can be made and each of the two files can be written there as a whole. -/
theorem save_isOk_iff (p : KeyPair) (directory : String) (fs : FileSystem) (troubles : Troubles) :
    (p.save directory fs troubles).1.isOk = true ↔
      (fs.makeDirectories directory).1 = none ∧
        (fs.makeDirectories directory).2.Replaceable (pathsIn directory).publicKey troubles.publicKey
          (troubles.publicKey.cut (Bytes.ofText p.publicKey)) ∧
        (fs.makeDirectories directory).2.Replaceable (pathsIn directory).privateKey troubles.privateKey
          (troubles.privateKey.stop (Bytes.ofText p.privateKey)) := by
  rcases hmake : fs.makeDirectories directory with ⟨failure, made⟩
  rw [save, hmake]
  cases failure with
  | some e => exact ⟨nofun, nofun⟩
  | none =>
    dsimp only
    have hpublic := made.replaceFile_rewrites (pathsIn directory).publicKey (Bytes.ofText p.publicKey) troubles.publicKey
    rw [← hpublic.eq_none_iff]
    rcases hresult : made.replaceFile (pathsIn directory).publicKey (Bytes.ofText p.publicKey) troubles.publicKey
      with ⟨fault, fs'⟩
    rw [hresult] at hpublic
    cases hpublic with
    | shut h => exact ⟨nofun, nofun⟩
    | stopped hadmits h => exact ⟨nofun, nofun⟩
    | written hopens hadmits h =>
      dsimp only
      rw [← replaceable_privateKey_iff hadmits, ← (FileSystem.replacePrivateFile_rewrites _ (pathsIn directory).privateKey
        (Bytes.ofText p.privateKey) troubles.privateKey).eq_none_iff]
      rcases FileSystem.replacePrivateFile _ _ _ troubles.privateKey with ⟨_ | fault, fs''⟩
      · exact ⟨fun _ => ⟨rfl, rfl, rfl⟩, fun _ => rfl⟩
      · exact ⟨nofun, nofun⟩

/-- Saving a pair ends in one of the given ways, whatever goes wrong. -/
theorem save_outcome (p : KeyPair) (directory : String) (fs : FileSystem) (troubles : Troubles) :
    Outcome p directory fs troubles (p.save directory fs troubles) := by
  have hadds := FileSystem.addsDirectories_makeDirectories fs directory
  rcases hmake : fs.makeDirectories directory with ⟨failure, made⟩
  rw [hmake] at hadds
  rw [save, hmake]
  cases failure with
  | some e => exact .noDirectory (by rw [hmake]) hadds
  | none =>
    dsimp only
    have hpublic := made.replaceFile_rewrites (pathsIn directory).publicKey (Bytes.ofText p.publicKey) troubles.publicKey
    rcases hresult : made.replaceFile (pathsIn directory).publicKey (Bytes.ofText p.publicKey) troubles.publicKey
      with ⟨fault, fs'⟩
    rw [hresult] at hpublic
    cases hpublic with
    | shut h => exact .publicKeyShut h hadds
    | stopped hadmits h => exact .publicKeyStopped h (halfWritten_of_admits hadds hadmits _ _)
    | @written l hopens hadmits h =>
      dsimp only
      have hhalf := halfWritten_of_admits hadds hadmits (made.modeAt l FileSystem.fileMode) (Bytes.ofText p.publicKey)
      generalize made.set l (.file (made.modeAt l FileSystem.fileMode) (Bytes.ofText p.publicKey)) = fs' at hhalf
      have hprivate := fs'.replacePrivateFile_rewrites (pathsIn directory).privateKey (Bytes.ofText p.privateKey)
        troubles.privateKey
      rcases hresult : fs'.replacePrivateFile (pathsIn directory).privateKey (Bytes.ofText p.privateKey) troubles.privateKey
        with ⟨fault, fs''⟩
      rw [hresult] at hprivate
      cases hprivate with
      | shut h => exact .privateKeyShut h hhalf
      | stopped hadmits h => exact .privateKeyStopped h (hhalf.complete hadmits _ _)
      | written hopens hadmits h => exact .saved (hhalf.complete hadmits _ _) (hadmits.mode_set _ _)

/-- Saving a pair succeeds exactly if nothing goes wrong: the directory can be made, and both files can be written there as a whole.
Then each file holds its half. Otherwise saving ends at the first fault, and what was done before it stays done. -/
theorem save_spec (p : KeyPair) (directory : String) (fs : FileSystem) (troubles : Troubles) :
    ((p.save directory fs troubles).1.isOk = true ↔
      (fs.makeDirectories directory).1 = none ∧
        (fs.makeDirectories directory).2.Replaceable (pathsIn directory).publicKey troubles.publicKey
          (troubles.publicKey.cut (Bytes.ofText p.publicKey)) ∧
        (fs.makeDirectories directory).2.Replaceable (pathsIn directory).privateKey troubles.privateKey
          (troubles.privateKey.stop (Bytes.ofText p.privateKey))) ∧
    Outcome p directory fs troubles (p.save directory fs troubles) :=
  ⟨p.save_isOk_iff directory fs troubles, p.save_outcome directory fs troubles⟩

/-- Where the private half cannot be written, the public half is replaced nevertheless. -/
theorem save_replaces_publicKey :
    let p : KeyPair := ⟨"new", "secret"⟩
    let fs : FileSystem := { nodes := [(["keys"], .directory 0o755), (["keys", "private_key.json"], .directory 0o755),
      (["keys", "public_key.json"], .file 0o644 (Bytes.ofText "old"))] }
    (p.save "keys" fs).1 = .error (.io (.os .isADirectory)) ∧ fs.readText "keys/public_key.json" = .ok "old" ∧
      (p.save "keys" fs).2.readText "keys/public_key.json" = .ok "new" := by
  decide +kernel

/-- On a full disk the private half that was there is lost, and the new one is not there. -/
example :
    let p : KeyPair := ⟨"new", "secret"⟩
    let fs : FileSystem := { nodes := [(["keys"], .directory 0o755),
      (["keys", "private_key.json"], .file 0o600 (Bytes.ofText "old"))] }
    let full : FileSystem.Trouble := { writing := some (3, .os .storageFull) }
    (p.save "keys" fs { privateKey := full }).1.isOk = false ∧
      (p.save "keys" fs { privateKey := full }).2.readText "keys/private_key.json" = .ok "sec" := by
  decide +kernel

end EnvelopeLog.KeyPair
