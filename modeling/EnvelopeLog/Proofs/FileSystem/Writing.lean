import EnvelopeLog.Proofs.FileSystem

/-!
# Files that are written anew

What a file holds may be replaced exactly if its path leads to a place without a directory (`Admits`). The file system after it
differs from the one before in that file only, which keeps its permissions unless it is to be its owner's alone
(`writeFile_eq_ok_iff`); otherwise there is no other file system.

With trouble on the way the file may be left with a first part of what it was to hold (`Rewrites`). This is all that can become
of it and of the others, whether it is a file for everyone or its owner's alone (`replaceFile_rewrites`,
`replacePrivateFile_rewrites`).
-/

namespace EnvelopeLog.FileSystem

variable {fs fs' : FileSystem} {l : Location} {b : Bytes} {path : String} {mode : Nat}

/-- Of what is put at a location, the last counts. -/
theorem set_set (fs : FileSystem) (l : Location) (n n' : Node) : (fs.set l n).set l n' = fs.set l n' := by
  simp [set, List.filter_filter]

/-- The permissions of the file at a location, and of a new file there. -/
def modeAt (fs : FileSystem) (l : Location) (fresh : Nat) : Nat :=
  match fs.node? l with
  | some (.file mode _) => mode
  | _ => fresh

/-- Whether a path leads to a place where a file is or may be. -/
structure Admits (fs : FileSystem) (path : String) (l : Location) : Prop where
  place : fs.locate path = .ok ⟨l, false⟩
  free : ∀ mode, fs.node? l ≠ some (.directory mode)

namespace Admits

theorem ne_nil (h : fs.Admits path l) : l ≠ [] := by
  intro hl
  subst hl
  exact h.free directoryMode rfl

/-- A new file at the place is a difference there and nowhere else. -/
theorem sameBut (h : fs.Admits path l) (mode : Nat) (b : Bytes) : SameBut l fs (fs.set l (.file mode b)) :=
  (sameBut_set h.ne_nil h.free).1

theorem node?_set (h : fs.Admits path l) (mode : Nat) (b : Bytes) : (fs.set l (.file mode b)).node? l = some (.file mode b) := by
  rw [FileSystem.node?_set fs h.ne_nil, if_pos rfl]

end Admits

/-- What a path admits elsewhere it admits still. -/
theorem SameBut.admits {l' : Location} (h : SameBut l' fs fs') (hadmits : fs.Admits path l) (hne : l ≠ l') :
    fs'.Admits path l where
  place := h.locate hadmits.place
  free := by
    intro mode
    rw [h.others l hne]
    exact hadmits.free mode

/-! ## Reading what was written -/

/-- A path that leads to a file finds it. -/
theorem find_of_node (hplace : fs.locate path = .ok ⟨l, false⟩) (hnode : fs.node? l = some (.file mode b)) :
    fs.find path = .ok (l, .file mode b) := by
  rw [find, hplace]
  dsimp only
  rw [hnode]
  rfl

/-- A path that leads to a file reads what it holds. -/
theorem readBytes_of_node (hplace : fs.locate path = .ok ⟨l, false⟩) (hnode : fs.node? l = some (.file mode b)) :
    fs.readBytes path = .ok b := by
  rw [readBytes, openRead, find_of_node hplace hnode]
  dsimp only [Except.map]
  rw [contentAt, hnode]
  rfl

/-- What is read is held by a file. -/
theorem exists_node_of_readBytes (hplace : fs.locate path = .ok ⟨l, false⟩) (h : fs.readBytes path = .ok b) :
    ∃ mode, fs.node? l = some (.file mode b) := by
  cases hcontent : fs.contentAt l with
  | ok content =>
    obtain ⟨mode, hnode⟩ := contentAt_eq_ok_iff.mp hcontent
    rw [readBytes_of_node hplace hnode] at h
    cases h
    exact ⟨mode, hnode⟩
  | error e =>
    exfalso
    rw [readBytes, openRead, find, hplace] at h
    dsimp only at h
    rcases hnode : fs.node? l with _ | old | ⟨old, content⟩
    · rw [hnode] at h
      cases h
    · rw [hnode] at h
      dsimp only [Except.map] at h
      rw [hcontent] at h
      cases h
    · rw [contentAt_eq_ok_iff.mpr ⟨old, hnode⟩] at hcontent
      cases hcontent

/-- A file that is not the one that differs reads as it did. -/
theorem SameBut.readBytes {l' : Location} (h : SameBut l' fs fs') (hplace : fs.locate path = .ok ⟨l, false⟩) (hne : l ≠ l')
    (hread : fs.readBytes path = .ok b) : fs'.readBytes path = .ok b := by
  obtain ⟨mode, hnode⟩ := exists_node_of_readBytes hplace hread
  exact readBytes_of_node (h.locate hplace) ((h.others l hne).trans hnode)

/-- A path that leads to a file tells its permissions. -/
theorem mode_of_node (hplace : fs.locate path = .ok ⟨l, false⟩) (hnode : fs.node? l = some (.file mode b)) :
    fs.mode path = .ok mode := by
  rw [FileSystem.mode, find_of_node hplace hnode]
  rfl

/-- What is put at the place has the permissions that it was given. -/
theorem Admits.mode_set (h : fs.Admits path l) (mode : Nat) (b : Bytes) :
    (fs.set l (.file mode b)).mode path = .ok mode :=
  mode_of_node ((h.sameBut mode b).locate h.place) (h.node?_set mode b)

/-! ## Writing -/

/-- A file is emptied, or made, exactly if the path admits one. -/
theorem openWrite_truncate_eq_ok_iff :
    fs.openWrite path .truncate mode = .ok (l, fs') ↔
      fs.Admits path l ∧ fs' = fs.set l (.file (fs.modeAt l mode) []) := by
  constructor
  · intro h
    obtain ⟨hplace, hsame, -⟩ := openWrite_spec h
    refine ⟨⟨hplace, hsame.no_directory⟩, ?_⟩
    rw [openWrite, hplace] at h
    dsimp only at h
    rcases hnode : fs.node? l with _ | old | ⟨old, content⟩
    · rw [hnode] at h
      simp only [modeAt, hnode]
      cases h
      rfl
    · exact absurd hnode (hsame.no_directory old)
    · rw [hnode] at h
      simp only [modeAt, hnode]
      cases h
      rfl
  · rintro ⟨hadmits, rfl⟩
    rw [openWrite, hadmits.place]
    dsimp only
    rcases hnode : fs.node? l with _ | old | ⟨old, content⟩
    · simp only [modeAt, hnode]
      rfl
    · exact absurd hnode (hadmits.free old)
    · simp only [modeAt, hnode]
      rfl

/-- Something written to an emptied file is all that it holds. -/
theorem Admits.appendAt_set (h : fs.Admits path l) (mode : Nat) (b : Bytes) :
    (fs.set l (.file mode [])).appendAt l b = fs.set l (.file mode b) := by
  rw [appendAt, h.node?_set]
  exact set_set fs l _ _

/-- What a file holds is replaced exactly if the path admits a file, and nothing else is changed. -/
theorem writeFile_eq_ok_iff :
    fs.writeFile path b = .ok fs' ↔ ∃ l, fs.Admits path l ∧ fs' = fs.set l (.file (fs.modeAt l fileMode) b) := by
  constructor
  · intro h
    unfold writeFile at h
    split at h
    · cases h
    · rename_i l opened hopen
      obtain ⟨hadmits, rfl⟩ := openWrite_truncate_eq_ok_iff.mp hopen
      cases h
      exact ⟨l, hadmits, hadmits.appendAt_set _ b⟩
  · rintro ⟨l, hadmits, rfl⟩
    rw [writeFile, openWrite_truncate_eq_ok_iff.mpr ⟨hadmits, rfl⟩]
    exact congrArg Except.ok (hadmits.appendAt_set _ b)

/-! ## Writing with trouble -/

/-- A file is opened to be written anew exactly if nothing keeps it shut and the path admits one. -/
theorem openAnew_eq_ok_iff {trouble : Trouble} :
    fs.openAnew path mode trouble = .ok (l, fs') ↔
      trouble.opening = none ∧ fs.Admits path l ∧ fs' = fs.set l (.file (fs.modeAt l mode) []) := by
  rw [← openWrite_truncate_eq_ok_iff]
  unfold openAnew
  cases trouble.opening with
  | some fault => exact ⟨nofun, nofun⟩
  | none =>
    cases fs.openWrite path .truncate mode with
    | error e => exact ⟨nofun, nofun⟩
    | ok opened => simp [Except.mapError]

/-- Where the calls on the open file of a private text stop, and why. -/
def Trouble.stop (trouble : Trouble) (b : Bytes) : Option (Nat × IoFault) :=
  match trouble.permissions with
  | some fault => some (0, fault)
  | none =>
    match trouble.cut b with
    | some stop => some stop
    | none => trouble.lasting.map (b.length, ·)

/-- Whether a file can be written anew as a whole: nothing keeps it shut, the path admits one, and no call on it stops. -/
structure Replaceable (fs : FileSystem) (path : String) (trouble : Trouble) (stop : Option (Nat × IoFault)) : Prop where
  opens : trouble.opening = none
  admits : ∃ l, fs.Admits path l
  unstopped : stop = none

/-- How writing a file anew ends. It is not opened, and everything is as it was; or the calls on the open file stop, and it holds
a first part of what it was to hold; or it holds all of that with the permissions that are due. No other file is touched. -/
inductive Rewrites (fs : FileSystem) (path : String) (b : Bytes) (trouble : Trouble) (stop : Option (Nat × IoFault))
    (fresh : Nat) (due : Location → Nat) : Option IoFault × FileSystem → Prop
  | shut {fault : IoFault} (h : fs.openAnew path fresh trouble = .error fault) :
      Rewrites fs path b trouble stop fresh due (some fault, fs)
  | stopped {l : Location} {n mode : Nat} {fault : IoFault} (admits : fs.Admits path l) (h : stop = some (n, fault)) :
      Rewrites fs path b trouble stop fresh due (some fault, fs.set l (.file mode (b.take n)))
  | written {l : Location} (opens : trouble.opening = none) (admits : fs.Admits path l) (h : stop = none) :
      Rewrites fs path b trouble stop fresh due (none, fs.set l (.file (due l) b))

/-- Writing a file anew goes well exactly if the file can be written as a whole. -/
theorem Rewrites.eq_none_iff {trouble : Trouble} {stop : Option (Nat × IoFault)} {fresh : Nat} {due : Location → Nat}
    {result : Option IoFault × FileSystem} (h : Rewrites fs path b trouble stop fresh due result) :
    result.1 = none ↔ fs.Replaceable path trouble stop := by
  cases h with
  | shut h =>
    refine ⟨nofun, fun hfree => ?_⟩
    obtain ⟨l, hadmits⟩ := hfree.admits
    rw [openAnew_eq_ok_iff.mpr ⟨hfree.opens, hadmits, rfl⟩] at h
    cases h
  | stopped hadmits h =>
    refine ⟨nofun, fun hfree => ?_⟩
    rw [hfree.unstopped] at h
    cases h
  | written hopens hadmits h => exact ⟨fun _ => ⟨hopens, ⟨_, hadmits⟩, h⟩, fun _ => rfl⟩

/-- A file for everyone keeps the permissions that it had. -/
theorem replaceFile_rewrites (fs : FileSystem) (path : String) (b : Bytes) (trouble : Trouble) :
    Rewrites fs path b trouble (trouble.cut b) fileMode (fs.modeAt · fileMode) (fs.replaceFile path b trouble) := by
  unfold replaceFile
  cases hopen : fs.openAnew path fileMode trouble with
  | error fault => exact .shut hopen
  | ok opened =>
    obtain ⟨hopens, hadmits, hemptied⟩ := openAnew_eq_ok_iff.mp hopen
    dsimp only
    rw [hemptied, fillAt]
    cases hcut : trouble.cut b with
    | none =>
      dsimp only
      rw [hadmits.appendAt_set]
      exact .written hopens hadmits rfl
    | some cut =>
      dsimp only
      rw [hadmits.appendAt_set]
      exact .stopped hadmits rfl

/-- A file that is to be its owner's alone becomes so before anything is written to it. -/
theorem replacePrivateFile_rewrites (fs : FileSystem) (path : String) (b : Bytes) (trouble : Trouble) :
    Rewrites fs path b trouble (trouble.stop b) privateMode (fun _ => privateMode)
      (fs.replacePrivateFile path b trouble) := by
  unfold replacePrivateFile
  cases hopen : fs.openAnew path privateMode trouble with
  | error fault => exact .shut hopen
  | ok opened =>
    obtain ⟨hopens, hadmits, hemptied⟩ := openAnew_eq_ok_iff.mp hopen
    have hprivate : opened.2.setModeAt opened.1 privateMode = fs.set opened.1 (.file privateMode []) := by
      rw [hemptied, setModeAt, hadmits.node?_set]
      exact set_set fs _ _ _
    dsimp only
    cases hpermissions : trouble.permissions with
    | some fault =>
      dsimp only
      rw [hemptied]
      exact .stopped hadmits (n := 0) (by rw [Trouble.stop, hpermissions])
    | none =>
      dsimp only
      rw [hprivate, fillAt]
      cases hcut : trouble.cut b with
      | some cut =>
        dsimp only
        rw [hadmits.appendAt_set]
        exact .stopped hadmits (by rw [Trouble.stop, hpermissions, hcut])
      | none =>
        dsimp only
        rw [hadmits.appendAt_set]
        cases hlasting : trouble.lasting with
        | none => exact .written hopens hadmits (by rw [Trouble.stop, hpermissions, hcut, hlasting]; rfl)
        | some fault =>
          have hstopped : Rewrites fs path b trouble (trouble.stop b) privateMode (fun _ => privateMode)
              (some fault, fs.set opened.1 (.file privateMode (b.take b.length))) :=
            .stopped hadmits (by rw [Trouble.stop, hpermissions, hcut, hlasting]; rfl)
          rwa [List.take_length] at hstopped

/-- Without trouble a file is replaced as a whole. -/
theorem replaceFile_calm (fs : FileSystem) (path : String) (b : Bytes) :
    fs.replaceFile path b {} =
      match fs.writeFile path b with
      | .error e => (some (.os e), fs)
      | .ok fs' => (none, fs') := by
  unfold replaceFile writeFile openAnew
  cases fs.openWrite path .truncate fileMode with
  | error e => rfl
  | ok opened => rfl

end EnvelopeLog.FileSystem
