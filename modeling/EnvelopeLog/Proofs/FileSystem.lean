import EnvelopeLog.FileSystem.Access
import EnvelopeLog.Proofs.Journal
import EnvelopeLog.Proofs.Source

/-!
# Files that grow

Whatever the pieces in which an open file is delivered, what is read of it is what it holds (`sourceAt_delivers`). Two file
systems that differ at most in the file at one location (`SameBut`) have the same directories, so a path that leads somewhere
in one leads there in the other (`SameBut.locate`), and what is anywhere else is the same. Opening a file for writing and adding
bytes to it make such a difference and no other (`openWrite_spec`, `appendAt_spec`), and an open file takes all bytes that it is
given (`writeAll_sinkAt`).
-/

namespace EnvelopeLog.FileSystem

variable {fs fs' fs'' : FileSystem} {l : Location} {content b : Bytes} {path : String}

/-! ## The file at a location -/

/-- What has a content is a file. -/
theorem contentAt_eq_ok_iff : fs.contentAt l = .ok content ↔ ∃ mode, fs.node? l = some (.file mode content) := by
  unfold contentAt
  rcases fs.node? l with _ | _ | ⟨mode, held⟩ <;> simp

/-- What holds bytes is not the root. -/
theorem ne_nil_of_contentAt (h : fs.contentAt l = .ok content) : l ≠ [] := by
  rintro rfl
  cases h

/-- What an open file delivers is what it holds from the position on, in whatever pieces. -/
theorem sourceAt_delivers (h : fs.contentAt l = .ok content) (position : Nat) :
    (fs.sourceAt l position).Delivers (content.drop position) none := by
  rw [sourceAt, h]
  exact .ending fs.delivery.progress rfl nofun

/-- From an open file, as many bytes are read as are wanted and there. -/
theorem readUpTo_sourceAt (h : fs.contentAt l = .ok content) (position wanted : Nat) :
    ((fs.sourceAt l position).readUpTo wanted).1 = .ok ((content.drop position).take wanted) :=
  ((Source.gives_collect .whole _ none wanted).apply (sourceAt_delivers h position)).1

/-- Bytes are read from files only. -/
theorem exists_content_of_readUpTo {position wanted : Nat} (hwanted : 0 < wanted)
    (h : ((fs.sourceAt l position).readUpTo wanted).1 = .ok b) : ∃ content, fs.contentAt l = .ok content := by
  cases hcontent : fs.contentAt l with
  | ok content => exact ⟨content, rfl⟩
  | error e =>
    have hfailing : (Source.failing (.os e) e.kind_ne_interrupted).Delivers [] (some (.os e)) :=
      Source.delivers_of_failure (s := Source.failing (.os e) e.kind_ne_interrupted) nofun rfl (Nat.le_refl 0) (Nat.le_refl 0)
    have hanswer := ((Source.gives_collect .whole [] (some (.os e)) wanted).apply hfailing).1
    rw [sourceAt, hcontent, Source.readUpTo] at h
    rw [h, Source.collected, List.length_nil, if_neg (Nat.not_le.mpr hwanted)] at hanswer
    cases hanswer

/-- Two file systems that differ at most in the file at a location. -/
structure SameBut (l : Location) (fs fs' : FileSystem) : Prop where
  no_directory : ∀ mode, fs.node? l ≠ some (.directory mode)
  no_directory_after : ∀ mode, fs'.node? l ≠ some (.directory mode)
  others : ∀ l', l' ≠ l → fs'.node? l' = fs.node? l'
  workingDirectory : fs'.workingDirectory = fs.workingDirectory

namespace SameBut

theorem refl (h : fs.contentAt l = .ok content) : SameBut l fs fs := by
  obtain ⟨mode, hnode⟩ := contentAt_eq_ok_iff.mp h
  have hfile : ∀ mode, fs.node? l ≠ some (.directory mode) := by
    intro mode
    rw [hnode]
    exact nofun
  exact ⟨hfile, hfile, fun _ _ => rfl, rfl⟩

theorem trans (h : SameBut l fs fs') (h' : SameBut l fs' fs'') : SameBut l fs fs'' where
  no_directory := h.no_directory
  no_directory_after := h'.no_directory_after
  others l' hl' := (h'.others l' hl').trans (h.others l' hl')
  workingDirectory := h'.workingDirectory.trans h.workingDirectory

/-- What is a directory stays one. -/
theorem directory (h : SameBut l fs fs') {l' : Location} {mode : Nat} (hdirectory : fs.node? l' = some (.directory mode)) :
    fs'.node? l' = some (.directory mode) := by
  by_cases hl' : l' = l
  · subst hl'
    exact absurd hdirectory (h.no_directory mode)
  · rw [h.others l' hl', hdirectory]

/-- Another file holds what it held. -/
theorem contentAt_of_ne (h : SameBut l fs fs') {l' : Location} (hl' : l' ≠ l) : fs'.contentAt l' = fs.contentAt l' := by
  rw [contentAt, contentAt, h.others l' hl']

theorem symm (h : SameBut l fs fs') : SameBut l fs' fs where
  no_directory := h.no_directory_after
  no_directory_after := h.no_directory
  others l' hl' := (h.others l' hl').symm
  workingDirectory := h.workingDirectory.symm

/-! ### Following paths -/

theorem enter (h : SameBut l fs fs') {start l' : Location} {name : String} (hok : fs.enter start name = .ok l') :
    fs'.enter start name = .ok l' := by
  unfold FileSystem.enter at hok ⊢
  split
  · rwa [if_pos ‹_›] at hok
  rw [if_neg ‹_›] at hok
  split
  · rwa [if_pos ‹_›] at hok
  rw [if_neg ‹_›] at hok
  split
  · rwa [if_pos ‹_›] at hok
  rw [if_neg ‹_›] at hok
  split at hok
  · cases hok
  · cases hok
  · rename_i hnode
    rw [h.directory hnode]
    exact hok

theorem enterAll (h : SameBut l fs fs') {start l' : Location} {names : List String}
    (hok : fs.enterAll start names = .ok l') : fs'.enterAll start names = .ok l' := by
  induction names generalizing start with
  | nil => exact hok
  | cons name names ih =>
    rw [FileSystem.enterAll] at hok ⊢
    split at hok
    · cases hok
    · rename_i hname
      rw [h.enter hname]
      exact ih hok

/-- A path leads where it led. -/
theorem locate (h : SameBut l fs fs') {place : Place} (hok : fs.locate path = .ok place) :
    fs'.locate path = .ok place := by
  unfold FileSystem.locate at hok ⊢
  rw [h.workingDirectory]
  dsimp only at hok ⊢
  split
  · rwa [if_pos ‹_›] at hok
  rw [if_neg ‹_›] at hok
  split
  · rwa [if_pos ‹_›] at hok
  rw [if_neg ‹_›] at hok
  split
  · rwa [if_pos ‹_›] at hok
  rw [if_neg ‹_›] at hok
  split at hok
  · exact hok
  · split at hok
    · cases hok
    · rename_i hall
      rw [h.enterAll hall]
      exact hok

end SameBut

/-! ## Opening and reading -/

/-- A path that leads to something leads to where it is. -/
theorem locate_of_openRead (h : fs.openRead path = .ok l) : ∃ place, fs.locate path = .ok place ∧ place.location = l := by
  unfold openRead at h
  cases hfind : fs.find path with
  | error e => rw [hfind] at h; cases h
  | ok found =>
    rw [hfind] at h
    cases h
    unfold find at hfind
    split at hfind
    · cases hfind
    · rename_i place hplace
      refine ⟨place, hplace, ?_⟩
      split at hfind
      · cases hfind
      · split at hfind <;> cases hfind
        rfl
      · cases hfind
        rfl

/-- What is elsewhere is opened as before. -/
theorem SameBut.openRead (h : SameBut l fs fs') {source : Location} (hok : fs'.openRead path = .ok source)
    (hne : source ≠ l) : fs.openRead path = .ok source := by
  obtain ⟨place, hplace, rfl⟩ := locate_of_openRead hok
  unfold FileSystem.openRead find at hok ⊢
  rw [hplace] at hok
  rw [h.symm.locate hplace]
  dsimp only at hok ⊢
  rwa [h.others _ hne] at hok

/-- A path to a file may be opened. -/
theorem openRead_of_locate (hplace : fs.locate path = .ok ⟨l, false⟩) (hcontent : fs.contentAt l = .ok content) :
    fs.openRead path = .ok l := by
  obtain ⟨mode, hnode⟩ := contentAt_eq_ok_iff.mp hcontent
  rw [FileSystem.openRead, find, hplace]
  dsimp only
  rw [hnode]
  rfl

/-- Whether two paths lead to different places. -/
def Apart (fs : FileSystem) (path path' : String) : Prop :=
  ∀ place place', fs.locate path = .ok place → fs.locate path' = .ok place' → place.location ≠ place'.location

/-- Paths that are apart lead to different places. -/
theorem Apart.ne {path path' : String} {place : Place} (h : fs.Apart path path') (hopen : fs.openRead path = .ok l)
    (hplace : fs.locate path' = .ok place) : l ≠ place.location := by
  obtain ⟨found, hfound, rfl⟩ := locate_of_openRead hopen
  exact h found place hfound hplace

/-- Paths that lead to different places are apart. -/
theorem apart_of_locate {path path' : String} {place place' : Place} (h : fs.locate path = .ok place)
    (h' : fs.locate path' = .ok place') (hne : place.location ≠ place'.location) : fs.Apart path path' := by
  intro found found' hfound hfound'
  rw [h] at hfound
  rw [h'] at hfound'
  cases hfound
  cases hfound'
  exact hne

/-- Paths that were apart still are after a file was changed. -/
theorem SameBut.apart (h : SameBut l fs fs') {path path' : String} (hapart : fs.Apart path path') :
    fs'.Apart path path' :=
  fun place place' hplace hplace' => hapart place place' (h.symm.locate hplace) (h.symm.locate hplace')

/-! ## Opening and writing -/

/-- What an open file holds at first. -/
def Opening.kept (opening : Opening) (fs : FileSystem) (l : Location) : Bytes :=
  match opening with
  | .append => (fs.contentAt l).toOption.getD []
  | .truncate => []

/-- A file that is opened for appending keeps all that it holds. -/
theorem Opening.kept_append (h : fs.contentAt l = .ok content) : Opening.kept .append fs l = content := by
  rw [kept, h]
  rfl

/-- Something new at a location without a directory makes no difference elsewhere. -/
theorem sameBut_set {mode : Nat} (hl : l ≠ []) (h : ∀ mode, fs.node? l ≠ some (.directory mode)) :
    SameBut l fs (fs.set l (.file mode content)) ∧ (fs.set l (.file mode content)).contentAt l = .ok content := by
  have hnode : (fs.set l (.file mode content)).node? l = some (.file mode content) := by
    rw [node?_set fs hl, if_pos rfl]
  refine ⟨⟨h, ?_, ?_, rfl⟩, contentAt_eq_ok_iff.mpr ⟨mode, hnode⟩⟩
  · intro mode'
    rw [hnode]
    exact nofun
  · intro l' hl'
    rw [node?_set fs hl, if_neg hl']

/-- Opening a file for writing changes nothing else, and the file holds what is kept. -/
theorem openWrite_spec {opening : Opening} {mode : Nat} (h : fs.openWrite path opening mode = .ok (l, fs')) :
    fs.locate path = .ok ⟨l, false⟩ ∧ SameBut l fs fs' ∧ fs'.contentAt l = .ok (opening.kept fs l) := by
  rw [openWrite] at h
  rcases hplace : fs.locate path with e | ⟨location, _ | _⟩
  · rw [hplace] at h
    cases h
  · rw [hplace] at h
    dsimp only at h
    rcases hnode : fs.node? location with _ | old | ⟨old, content⟩
    · rw [hnode] at h
      have hroot : location ≠ [] := by
        rintro rfl
        cases hnode
      have hfile : ∀ mode, fs.node? location ≠ some (.directory mode) := by
        intro mode
        rw [hnode]
        exact nofun
      have hkept : opening.kept fs location = [] := by
        cases opening with
        | append => simp [Opening.kept, contentAt, hnode, Except.toOption]
        | truncate => rfl
      cases h
      rw [hkept]
      exact ⟨rfl, sameBut_set hroot hfile⟩
    · rw [hnode] at h
      cases h
    · rw [hnode] at h
      have hcontent : fs.contentAt location = .ok content := contentAt_eq_ok_iff.mpr ⟨old, hnode⟩
      have hsame := SameBut.refl hcontent
      cases opening with
      | append =>
        cases h
        exact ⟨rfl, hsame, by rwa [Opening.kept_append hcontent]⟩
      | truncate =>
        cases h
        exact ⟨rfl, sameBut_set (ne_nil_of_contentAt hcontent) hsame.no_directory⟩
  · rw [hplace] at h
    dsimp only at h
    rcases hnode : fs.node? location with _ | old | ⟨old, content⟩ <;> rw [hnode] at h <;> cases h

/-- What is not a directory may be opened for writing. -/
theorem exists_openWrite (hplace : fs.locate path = .ok ⟨l, false⟩) (hfree : ∀ mode, fs.node? l ≠ some (.directory mode))
    (opening : Opening) (mode : Nat) : ∃ fs', fs.openWrite path opening mode = .ok (l, fs') := by
  rw [openWrite, hplace]
  dsimp only
  rcases hnode : fs.node? l with _ | old | ⟨old, content⟩
  · exact ⟨_, rfl⟩
  · exact absurd hnode (hfree old)
  · cases opening with
    | append => exact ⟨_, rfl⟩
    | truncate => exact ⟨_, rfl⟩

/-- Adding bytes to a file changes nothing else. -/
theorem appendAt_spec (h : fs.contentAt l = .ok content) (b : Bytes) :
    SameBut l fs (fs.appendAt l b) ∧ (fs.appendAt l b).contentAt l = .ok (content ++ b) := by
  obtain ⟨mode, hnode⟩ := contentAt_eq_ok_iff.mp h
  have heq : fs.appendAt l b = fs.set l (.file mode (content ++ b)) := by
    rw [appendAt, hnode]
  rw [heq]
  exact sameBut_set (ne_nil_of_contentAt h) (SameBut.refl h).no_directory

/-- An open file takes all that it is given. -/
theorem writeAll_sinkAt (l : Location) (fs : FileSystem) (hb : b ≠ []) :
    (sinkAt l).writeAll fs b = (b.length, none, fs.appendAt l b) := by
  have hpos := List.length_pos_iff.mpr hb
  have hwrite : (sinkAt l).write fs b = (.took (b.length - 1 + 1), fs.appendAt l b) := by
    rw [Nat.sub_add_cancel hpos]
    rfl
  rw [Sink.writeAll_took _ hb hwrite, Nat.sub_add_cancel hpos, List.drop_length, Sink.writeAll_nil]
  rfl

end EnvelopeLog.FileSystem
