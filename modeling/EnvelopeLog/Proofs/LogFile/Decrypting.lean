import EnvelopeLog.Command.Run
import EnvelopeLog.Proofs.FileSystem.Writing
import EnvelopeLog.Proofs.Log.Joining

/-!
# Files that are decrypted

To decrypt a file is to open the bytes that it holds, in whatever pieces they are delivered, and to write the payload to the
output (`decrypt_eq_writeFile`). The payload is known before the output is opened. So a call that fails, for whatever reason,
leaves the file system as it was, and a call that succeeds replaces what the output holds and nothing else, also if the output
is the input (`Decrypts`); and so does the command (`decrypt_all_or_nothing`).
-/

namespace EnvelopeLog.LogFile

variable {k : Rsa.PrivateKey} {limit n : Nat} {input output : String} {fs fs' : FileSystem} {payload : Bytes}

/-! ## Opening an open file -/

/-- A file opens to what its bytes open to, and a directory does not open. -/
theorem decrypt_sourceAt (k : Rsa.PrivateKey) (limit : Nat) (fs : FileSystem) (l : Location) :
    (Log.decrypt k limit (fs.sourceAt l 0)).1 =
      match fs.contentAt l with
      | .error e => .error (.io (.os e))
      | .ok b => Log.decryptBytes k limit b := by
  cases hcontent : fs.contentAt l with
  | ok b => exact Log.decrypt_of_delivers (FileSystem.sourceAt_delivers hcontent 0)
  | error e =>
    have hfailing : (Source.failing (.os e) e.kind_ne_interrupted).Delivers [] (some (.os e)) :=
      Source.delivers_of_failure (s := Source.failing (.os e) e.kind_ne_interrupted) nofun rfl (Nat.le_refl 0) (Nat.le_refl 0)
    rw [FileSystem.sourceAt, hcontent]
    exact ((Log.gives_decrypt_error (Frame.gives_end KeyMaterial.nonceSize limit (some (.os e)))).apply hfailing).1

/-- To decrypt a file is to read it, to open what it holds, and to write the payload. -/
theorem decrypt_eq_writeFile (k : Rsa.PrivateKey) (limit : Nat) (input output : String) (fs : FileSystem) :
    decrypt k limit input output fs =
      match fs.readBytes input with
      | .error e => (.error (.io e), fs)
      | .ok b =>
        match Log.decryptBytes k limit b with
        | .error e => (.error e, fs)
        | .ok payload =>
          match fs.writeFile output payload with
          | .error e => (.error (.io (.os e)), fs)
          | .ok fs' => (.ok payload.length, fs') := by
  rw [decrypt, FileSystem.readBytes]
  cases fs.openRead input with
  | error e => rfl
  | ok l =>
    dsimp only
    rw [decrypt_sourceAt]
    cases fs.contentAt l with
    | error e => rfl
    | ok b => rfl

/-! ## All or nothing -/

/-- What a call that decrypts a file does if it succeeds: the output holds the payload of the log that the input held before, with
the permissions that it had, and nothing else is different. -/
structure Decrypts (k : Rsa.PrivateKey) (limit : Nat) (input output : String) (fs fs' : FileSystem) (payload : Bytes) :
    Prop where
  opens : ∃ log, fs.readBytes input = .ok log ∧ Log.decryptBytes k limit log = .ok payload
  holds : fs'.readBytes output = .ok payload
  replaced : ∃ l, fs.Admits output l ∧ fs' = fs.set l (.file (fs.modeAt l FileSystem.fileMode) payload) ∧
    ∀ l', l' ≠ l → fs'.node? l' = fs.node? l'

/-- A payload that was decrypted and written is what the output holds, and nothing else is changed. -/
theorem Decrypts.of_writeFile {log : Bytes} (hread : fs.readBytes input = .ok log)
    (hopen : Log.decryptBytes k limit log = .ok payload) (hwrite : fs.writeFile output payload = .ok fs') :
    Decrypts k limit input output fs fs' payload := by
  obtain ⟨l, hadmits, rfl⟩ := FileSystem.writeFile_eq_ok_iff.mp hwrite
  have hsame := hadmits.sameBut (fs.modeAt l FileSystem.fileMode) payload
  have hholds := FileSystem.readBytes_of_node (hsame.locate hadmits.place) (hadmits.node?_set _ payload)
  exact ⟨⟨log, hread, hopen⟩, hholds, l, hadmits, rfl, hsame.others⟩

/-- A call succeeds exactly if the input can be read, what it holds opens, and the output admits a file. -/
theorem decrypt_eq_ok_iff :
    decrypt k limit input output fs = (.ok n, fs') ↔
      ∃ payload, n = payload.length ∧ Decrypts k limit input output fs fs' payload := by
  rw [decrypt_eq_writeFile]
  constructor
  · intro h
    split at h
    · cases h
    rename_i log hread
    split at h
    · cases h
    rename_i payload hopen
    split at h
    · cases h
    rename_i written hwrite
    cases h
    exact ⟨payload, rfl, .of_writeFile hread hopen hwrite⟩
  · rintro ⟨payload, rfl, ⟨log, hread, hopen⟩, -, l, hadmits, rfl, -⟩
    rw [hread]
    dsimp only
    rw [hopen]
    dsimp only
    rw [FileSystem.writeFile_eq_ok_iff.mpr ⟨l, hadmits, rfl⟩]

/-- A call that fails changes nothing, and it does not ask for slices that no memory could hold. -/
theorem decrypt_error {e : Error} (h : decrypt k limit input output fs = (.error e, fs')) :
    fs' = fs ∧ e ≠ Command.hopeless := by
  rw [decrypt_eq_writeFile] at h
  split at h
  · cases h
    exact ⟨rfl, nofun⟩
  split at h
  · rename_i hopen
    cases h
    refine ⟨rfl, ?_⟩
    rintro rfl
    cases Log.decryptBytes_refusal hopen
  split at h
  · cases h
    exact ⟨rfl, nofun⟩
  · cases h

end EnvelopeLog.LogFile

/-! ## The command -/

namespace EnvelopeLog.Command

variable {settings : Option String} {logLevel privateKey input output : String} {fs fs' : FileSystem} {world : World FileSystem}
  {s : Settings} {k : Rsa.PrivateKey}

/-- No settings ask for slices that no memory could hold. -/
theorem check_ne_chunkTooLarge (s : Settings) : s.check ≠ .error .chunkTooLarge := by
  intro h
  simp only [Settings.check, Settings.checkKeyBits] at h
  split_ifs at h <;> cases h

/-- Settings that cannot be used are a fault of their own. -/
theorem settingsOf_error {f : Failure} (h : settingsOf settings fs = .error f) : f.error ≠ hopeless := by
  unfold settingsOf at h
  split at h
  · cases h
  unfold loadSettings at h
  split at h
  · cases h
    exact nofun
  rename_i text _
  unfold Settings.parseChecked at h
  split at h
  · cases h
    exact nofun
  rename_i s _
  split at h
  · rename_i fault hfault
    cases h
    rintro ⟨⟩
    exact check_ne_chunkTooLarge s hfault
  · cases h

/-- A key that cannot be loaded is a fault of its own. -/
theorem loadPrivateKey_error {e : Error} (h : loadPrivateKey fs privateKey = .error e) : e ≠ hopeless := by
  unfold loadPrivateKey at h
  split at h
  · cases h
    exact nofun
  · rename_i text _
    cases hkey : Rsa.PrivateKey.ofText text with
    | error e =>
      rw [hkey] at h
      cases h
      exact nofun
    | ok k =>
      rw [hkey] at h
      cases h

/-- Once the settings and the key are loaded, the command does what decrypting the file does. -/
theorem invoke_decrypt (hsettings : settingsOf settings world.sink = .ok s)
    (hkey : loadPrivateKey world.sink privateKey = .ok k) :
    invoke ⟨settings, logLevel, .decrypt privateKey input output⟩ world =
      ((within s!"failed to decrypt {input}" (LogFile.decrypt k s.maxFieldLength.toNat input output world.sink).1).map
          fun length => s!"Decrypted {length} bytes to {output}",
        { world with sink := (LogFile.decrypt k s.maxFieldLength.toNat input output world.sink).2 }) := by
  rw [invoke, hsettings]
  dsimp only
  rw [act, hkey]
  rfl

/-- Where the settings or the key cannot be loaded, the command fails and changes nothing. -/
theorem loaded_or_fails (settings : Option String) (logLevel privateKey input output : String) (world : World FileSystem) :
    (∃ s k, settingsOf settings world.sink = .ok s ∧ loadPrivateKey world.sink privateKey = .ok k) ∨
      ∃ f, invoke ⟨settings, logLevel, .decrypt privateKey input output⟩ world = (.error f, world) ∧
        f.error ≠ hopeless := by
  cases hsettings : settingsOf settings world.sink with
  | error f =>
    refine .inr ⟨f, ?_, settingsOf_error hsettings⟩
    rw [invoke, hsettings]
  | ok s =>
    cases hkey : loadPrivateKey world.sink privateKey with
    | error e =>
      refine .inr ⟨⟨s!"failed to load private key {privateKey}", e⟩, ?_, loadPrivateKey_error hkey⟩
      rw [invoke, hsettings]
      dsimp only
      rw [act, hkey]
      rfl
    | ok k => exact .inl ⟨s, k, rfl, rfl⟩

/-- A command to decrypt that fails changes nothing. -/
theorem invoke_decrypt_error {f : Failure} {world' : World FileSystem}
    (h : invoke ⟨settings, logLevel, .decrypt privateKey input output⟩ world = (.error f, world')) :
    world' = world ∧ f.error ≠ hopeless := by
  rcases loaded_or_fails settings logLevel privateKey input output world with ⟨s, k, hsettings, hkey⟩ | ⟨f', hfails, hne⟩
  · rw [invoke_decrypt hsettings hkey] at h
    rcases hdecrypt : LogFile.decrypt k s.maxFieldLength.toNat input output world.sink with ⟨e | n, fs⟩
    · obtain ⟨rfl, hne⟩ := LogFile.decrypt_error hdecrypt
      rw [hdecrypt] at h
      cases h
      exact ⟨rfl, hne⟩
    · rw [hdecrypt] at h
      cases h
  · rw [hfails] at h
    cases h
    exact ⟨rfl, hne⟩

/-- A command to decrypt succeeds exactly if the settings and the key can be loaded and the file decrypts with them. -/
theorem invoke_decrypt_eq_ok_iff {world' : World FileSystem} :
    (∃ told, invoke ⟨settings, logLevel, .decrypt privateKey input output⟩ world = (.ok told, world')) ↔
      ∃ s k payload fs', settingsOf settings world.sink = .ok s ∧ loadPrivateKey world.sink privateKey = .ok k ∧
        LogFile.Decrypts k s.maxFieldLength.toNat input output world.sink fs' payload ∧
        world' = { world with sink := fs' } := by
  constructor
  · rintro ⟨told, h⟩
    rcases loaded_or_fails settings logLevel privateKey input output world with ⟨s, k, hsettings, hkey⟩ | ⟨f, hfails, -⟩
    · rw [invoke_decrypt hsettings hkey] at h
      rcases hdecrypt : LogFile.decrypt k s.maxFieldLength.toNat input output world.sink with ⟨e | n, fs'⟩
      · rw [hdecrypt] at h
        cases h
      · obtain ⟨payload, -, hdecrypts⟩ := LogFile.decrypt_eq_ok_iff.mp hdecrypt
        rw [hdecrypt] at h
        cases h
        exact ⟨s, k, payload, fs', hsettings, hkey, hdecrypts, rfl⟩
    · rw [hfails] at h
      cases h
  · rintro ⟨s, k, payload, fs', hsettings, hkey, hdecrypts, rfl⟩
    rw [invoke_decrypt hsettings hkey, LogFile.decrypt_eq_ok_iff.mpr ⟨payload, rfl, hdecrypts⟩]
    exact ⟨_, rfl⟩

/-- Decrypting a file is all or nothing, for callers and for the command alike. An error, or the exit code 1, is given only where
the file system is as it was. Otherwise the output holds the payload of what the input held before, and that is all the
difference. -/
theorem decrypt_all_or_nothing :
    (∀ (k : Rsa.PrivateKey) (limit : Nat) (input output : String) (fs fs' : FileSystem),
      (∀ e, LogFile.decrypt k limit input output fs = (.error e, fs') → fs' = fs) ∧
      ∀ n, LogFile.decrypt k limit input output fs = (.ok n, fs') ↔
        ∃ payload, n = payload.length ∧ LogFile.Decrypts k limit input output fs fs' payload) ∧
    ∀ (args : List String) (settings : Option String) (logLevel privateKey input output : String) (world : World FileSystem),
      parse args = .ok ⟨settings, logLevel, .decrypt privateKey input output⟩ →
      let (outcome, world') := run args world
      (outcome.code = 0 ∨ outcome.code = 1 ∧ world' = world) ∧
      (outcome.code = 0 ↔ ∃ s k payload fs', settingsOf settings world.sink = .ok s ∧
        loadPrivateKey world.sink privateKey = .ok k ∧
        LogFile.Decrypts k s.maxFieldLength.toNat input output world.sink fs' payload ∧
        world' = { world with sink := fs' }) := by
  constructor
  · intro k limit input output fs fs'
    exact ⟨fun e h => (LogFile.decrypt_error h).1, fun n => LogFile.decrypt_eq_ok_iff⟩
  · intro args settings logLevel privateKey input output world hparse
    have hiff (world' : World FileSystem) :=
      @invoke_decrypt_eq_ok_iff settings logLevel privateKey input output world world'
    rw [run, hparse]
    dsimp only
    rw [← hiff]
    rcases hinvoke : invoke ⟨settings, logLevel, .decrypt privateKey input output⟩ world with ⟨f | told, world'⟩
    · obtain ⟨rfl, hne⟩ := invoke_decrypt_error hinvoke
      dsimp only
      rw [if_neg hne]
      exact ⟨.inr ⟨rfl, rfl⟩, nofun, fun ⟨told, h⟩ => by cases h⟩
    · exact ⟨.inl rfl, fun _ => ⟨told, rfl⟩, fun _ => rfl⟩

/-- The command with a settings file, its options in some order and form. -/
example : parse ["--config", "settings", "decrypt", "-o", "plain", "-p=key", "--input", "log"] =
    .ok ⟨some "settings", "warn", .decrypt "key" "log" "plain"⟩ := by
  decide +kernel

end EnvelopeLog.Command
