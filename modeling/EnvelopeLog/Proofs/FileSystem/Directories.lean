import EnvelopeLog.Proofs.FileSystem.Writing

/-!
# Names in directories

The path of a name in a directory leads to the location of the directory with the name behind it, so different names lead to
different places (`locate_join`). Making directories only puts directories where nothing was (`AddsDirectories`), whether or not
it succeeds.
-/

namespace EnvelopeLog

/-! ## Joined paths -/

namespace Path

/-- A name that is no step of its own and holds no slash. -/
structure Plain (name : String) : Prop where
  filled : name.toList ≠ []
  no_slash : '/' ∉ name.toList
  no_step : name ≠ "." ∧ name ≠ ".."
  short : name.utf8ByteSize ≤ FileSystem.maxNameSize

theorem cut_ne_nil (cs : List Char) : cut cs ≠ [] := by
  cases cs with
  | nil => exact List.cons_ne_nil _ _
  | cons c cs =>
    rw [cut]
    split
    · exact List.cons_ne_nil _ _
    · split <;> exact List.cons_ne_nil _ _

/-- A slash separates the parts before it from those behind it. -/
theorem cut_append (a b : List Char) : cut (a ++ '/' :: b) = cut a ++ cut b := by
  induction a with
  | nil => rfl
  | cons c a ih =>
    rw [List.cons_append, cut, cut, ih]
    split
    · rfl
    · obtain ⟨first, more, hcut⟩ := List.exists_cons_of_ne_nil (cut_ne_nil a)
      rw [hcut]
      rfl

/-- Without a slash there is one part. -/
theorem cut_of_not_mem {cs : List Char} (h : '/' ∉ cs) : cut cs = [cs] := by
  induction cs with
  | nil => rfl
  | cons c cs ih =>
    rw [List.mem_cons, not_or] at h
    rw [cut, if_neg (Ne.symm h.1), ih h.2]

theorem Plain.not_absolute {name : String} (h : Plain name) : name.toList.head? ≠ some '/' :=
  fun hhead => h.no_slash (List.mem_of_head? hhead)

theorem Plain.not_slash {name : String} (h : Plain name) : name.toList.getLast? ≠ some '/' :=
  fun hlast => h.no_slash (List.mem_of_getLast? hlast)

/-- The parts of a path that ends in a name behind a slash. -/
theorem ofText_append {s name : String} {a : List Char} (hname : Plain name) (hs : s.toList = a ++ '/' :: name.toList) :
    ofText s =
      { absolute := (a ++ ['/']).head? = some '/'
        names := ((cut a).filter (· ≠ [])).map String.ofList ++ [name]
        slash := false } := by
  have hhead : s.toList.head? = (a ++ ['/']).head? := by
    rw [hs]
    cases a <;> rfl
  have hlast : s.toList.getLast? ≠ some '/' := by
    rw [hs, List.append_cons, List.getLast?_append_of_ne_nil _ hname.filled]
    exact hname.not_slash
  rw [ofText, hhead, decide_eq_false hlast]
  simp [hs, cut_append, cut_of_not_mem hname.no_slash, hname.filled]

/-- The path of a name in a directory has the name behind the names of the directory. -/
theorem ofText_join (directory : String) {name : String} (hname : Plain name) :
    ofText (join directory name) =
      { absolute := (ofText directory).absolute, names := (ofText directory).names ++ [name], slash := false } := by
  by_cases hempty : directory = ""
  · have hnothing : ofText "" = ⟨false, [], false⟩ := by decide
    rw [join, if_pos (.inl hempty), hempty, hnothing, String.empty_append]
    simp [ofText, cut_of_not_mem hname.no_slash, hname.filled, hname.not_absolute, hname.not_slash]
  by_cases hslash : (ofText directory).slash = true
  · obtain ⟨a, ha⟩ := List.getLast?_eq_some_iff.mp (of_decide_eq_true hslash)
    have hjoin : (join directory name).toList = a ++ '/' :: name.toList := by
      rw [join, if_pos (.inr hslash), String.toList_append, ha, ← List.append_cons]
    rw [ofText_append hname hjoin]
    simp [ofText, ha, cut_append, cut]
  · have hjoin : (join directory name).toList = directory.toList ++ '/' :: name.toList := by
      rw [join, if_neg (by simp [hempty, hslash])]
      simp
    have hhead : (directory.toList ++ ['/']).head? = directory.toList.head? :=
      List.head?_append_of_ne_nil _ (by simpa using hempty)
    rw [ofText_append hname hjoin, hhead]
    rfl

end Path

namespace FileSystem

variable {fs fs' fs'' : FileSystem}

/-- A name in a directory is located behind the location of the directory. -/
theorem locate_join {directory name : String} {place : Place} (hname : Path.Plain name)
    (h : fs.locate (Path.join directory name) = .ok place) :
    ∃ l, fs.enterAll (if (Path.ofText directory).absolute then [] else fs.workingDirectory) (Path.ofText directory).names =
      .ok l ∧ place = ⟨l ++ [name], false⟩ := by
  unfold locate at h
  rw [Path.ofText_join directory hname] at h
  dsimp only at h
  rw [List.getLast?_concat, List.dropLast_concat] at h
  split at h
  · cases h
  split at h
  · cases h
  split at h
  · cases h
  dsimp only at h
  split at h
  · cases h
  rename_i l hl
  rw [if_neg hname.no_step.1, if_neg hname.no_step.2, if_neg (Nat.not_lt.mpr hname.short)] at h
  cases h
  exact ⟨l, hl, rfl⟩

/-! ## Making directories -/

/-- Whether a location holds what it held, or a new directory in the place of nothing. -/
def Stays (fs fs' : FileSystem) (l : Location) : Prop :=
  fs'.node? l = fs.node? l ∨ fs.node? l = none ∧ fs'.node? l = some (.directory directoryMode)

/-- A difference elsewhere does not count. -/
theorem Stays.sameBut {l l' : Location} (h : fs.Stays fs' l') (hsame : SameBut l fs' fs'') (hne : l' ≠ l) :
    fs.Stays fs'' l' := by
  rw [Stays, hsame.others l' hne]
  exact h

/-- Two file systems of which the second has perhaps more directories. -/
structure AddsDirectories (fs fs' : FileSystem) : Prop where
  node : ∀ l, fs.Stays fs' l
  workingDirectory : fs'.workingDirectory = fs.workingDirectory
  delivery : fs'.delivery = fs.delivery

namespace AddsDirectories

theorem refl (fs : FileSystem) : fs.AddsDirectories fs := ⟨fun _ => .inl rfl, rfl, rfl⟩

theorem trans (h : fs.AddsDirectories fs') (h' : fs'.AddsDirectories fs'') : fs.AddsDirectories fs'' where
  node := by
    intro l
    rcases h'.node l with hsame | ⟨hfree, hdirectory⟩
    · rw [Stays, hsame]
      exact h.node l
    · rcases h.node l with hsame | ⟨-, hthere⟩
      · exact .inr ⟨hsame ▸ hfree, hdirectory⟩
      · rw [hthere] at hfree
        cases hfree
  workingDirectory := h'.workingDirectory.trans h.workingDirectory
  delivery := h'.delivery.trans h.delivery

end AddsDirectories

/-- A directory that is made is one where nothing was. -/
theorem addsDirectories_of_makeDirectory {path : String} (h : fs.makeDirectory path = .ok fs') : fs.AddsDirectories fs' := by
  unfold makeDirectory at h
  split at h
  · cases h
  rename_i place _
  split at h
  · cases h
  rename_i hfree
  cases h
  have hroot : place.location ≠ [] := by
    intro hl
    rw [hl] at hfree
    cases hfree
  refine ⟨fun l => ?_, rfl, rfl⟩
  rw [Stays, node?_set fs hroot]
  split
  · rename_i hl
    exact .inr ⟨hl ▸ hfree, rfl⟩
  · exact .inl rfl

/-- Whatever comes of it, what was there before stays. -/
theorem addsDirectories_makeFirst (fs : FileSystem) (paths : List String) : fs.AddsDirectories (fs.makeFirst paths).2 := by
  induction paths with
  | nil => exact .refl fs
  | cons path ancestors ih =>
    rw [makeFirst]
    split
    · rename_i made hmade
      exact addsDirectories_of_makeDirectory hmade
    · split
      · rename_i e between hbetween
        rw [hbetween] at ih
        exact ih
      · rename_i between hbetween
        rw [hbetween] at ih
        split
        · rename_i made hmade
          exact ih.trans (addsDirectories_of_makeDirectory hmade)
        · exact ih
    · exact .refl fs

/-- Making directories adds some, whether or not it succeeds. -/
theorem addsDirectories_makeDirectories (fs : FileSystem) (path : String) :
    fs.AddsDirectories (fs.makeDirectories path).2 := by
  unfold makeDirectories
  split
  · exact .refl fs
  · exact addsDirectories_makeFirst fs _

end FileSystem

end EnvelopeLog
