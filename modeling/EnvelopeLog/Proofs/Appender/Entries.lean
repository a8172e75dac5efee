import EnvelopeLog.Proofs.Appender
import EnvelopeLog.Proofs.FileSystem.Writing

/-!
# The frames of entries

An appender counts the entries that it adds, and on a log file of its own there is a frame of each that is not empty, in their
order (`Client.Kept`). An entry in which there is nothing is added without a frame, so the count is the number of frames only if
no entry is empty (`frames_of_entries`).
-/

namespace EnvelopeLog.Appender

open FileSystem (SameBut)

variable {recipient : Rsa.PublicKey} {target : Location} {requests : List Request}

/-- Each entry makes one segment, unless it is empty. -/
theorem flatMap_segments (entries : List Bytes) : entries.flatMap segments = entries.filter (· ≠ []) := by
  induction entries with
  | nil => rfl
  | cons entry entries ih =>
    rw [List.flatMap_cons, ih, segments]
    by_cases hentry : entry = []
    · rw [if_pos hentry, List.filter_cons_of_neg (by simpa using hentry), List.nil_append]
    · rw [if_neg hentry, List.filter_cons_of_pos (by simpa using hentry), List.singleton_append]

/-! ## The count -/

section Count

variable {σ : Type} {a : Appender σ} {world : World σ}

/-- An append counts if it is answered well. -/
theorem append_entries (a : Appender σ) (world : World σ) (entry : Bytes) :
    (a.append world entry).2.1.entries = a.entries + if (a.append world entry).1.isOk then 1 else 0 := by
  unfold append
  cases a.channel with
  | none => rfl
  | some c =>
    rcases hwrite : c.write a.sink world entry with ⟨e | taken, written, world⟩
    · simp only [hwrite]
      rfl
    · rcases hflush : written.flush a.sink world with ⟨e | done, flushed, world⟩ <;>
        simp only [hwrite, hflush] <;> rfl

/-- Closing counts nothing. -/
theorem close_entries (a : Appender σ) (world : World σ) : (a.close world).2.1.entries = a.entries := by
  unfold close
  split <;> rfl

/-- A request counts if it adds an entry. -/
theorem perform_entries (a : Appender σ) (world : World σ) (request : Request) {b : Appender σ}
    (hb : (a.perform world request).2.1 = some b) :
    b.entries = a.entries + (Exchange.mk a request (a.perform world request).1).added.length := by
  cases request with
  | append entry =>
    obtain rfl : (a.append world entry).2.1 = b := Option.some.inj hb
    rw [append_entries, Exchange.added, apply_ite List.length]
    rfl
  | appendLine line =>
    obtain rfl : (a.append world (Bytes.ofText line ++ [10])).2.1 = b := Option.some.inj hb
    rw [append_entries, Exchange.added, apply_ite List.length]
    rfl
  | close =>
    obtain rfl : (a.close world).2.1 = b := Option.some.inj hb
    rw [close_entries, Exchange.added, apply_ite List.length]
    simp [Request.entry?]
  | drop => cases hb

end Count

/-! ## What is asked -/

namespace Client

variable {σ : Type} {c : Client σ}

/-- To ask for an entry is noted and leaves the appender there. -/
theorem ask_entry (hthere : c.appender.isSome) {request : Request} (hentry : request.entry?.isSome) :
    (c.ask request).appender.isSome ∧
      (c.ask request).exchanges.map Exchange.request = c.exchanges.map Exchange.request ++ [request] := by
  obtain ⟨a, ha⟩ := Option.isSome_iff_exists.mp hthere
  rw [ask, ha]
  refine ⟨?_, by simp⟩
  cases request with
  | append entry => rfl
  | appendLine line => rfl
  | close => cases hentry
  | drop => cases hentry

/-- Entries are asked for one after the other, and the appender is still there. -/
theorem askAll_entries (hthere : c.appender.isSome) (hentries : ∀ request ∈ requests, request.entry?.isSome) :
    (c.askAll requests).appender.isSome ∧
      (c.askAll requests).exchanges.map Exchange.request = c.exchanges.map Exchange.request ++ requests := by
  induction requests generalizing c with
  | nil => exact ⟨hthere, (List.append_nil _).symm⟩
  | cons request requests ih =>
    obtain ⟨hentry, hothers⟩ := List.forall_mem_cons.mp hentries
    obtain ⟨hstays, hnoted⟩ := ask_entry hthere hentry
    obtain ⟨hlast, hall⟩ := ih hstays hothers
    refine ⟨hlast, hall.trans ?_⟩
    rw [hnoted, List.append_assoc, List.singleton_append]

/-- If everything was answered well, every entry that was asked for has been added. -/
theorem added_eq_of_isOk (hok : ∀ x ∈ c.exchanges, x.answer.isOk) :
    c.added = (c.exchanges.map Exchange.request).filterMap Request.entry? := by
  rw [added]
  generalize c.exchanges = exchanges at hok
  induction exchanges with
  | nil => rfl
  | cons x exchanges ih =>
    obtain ⟨hx, hothers⟩ := List.forall_mem_cons.mp hok
    rw [List.flatMap_cons, Exchange.added, if_pos hx, ih hothers, List.map_cons, List.filterMap_cons]
    cases x.request.entry? <;> rfl

end Client

/-! ## Clients on a log file -/

namespace Client

variable {c : Client FileSystem} {start : World FileSystem}

/-- What is known of a client that has come from a world in which there was an appender on a file. -/
structure Kept (recipient : Rsa.PublicKey) (target : Location) (start : World FileSystem) (c : Client FileSystem) : Prop where
  /-- The frames of the entries that have been added, and nothing else, are on the file. -/
  adds : Adds recipient target (c.added.flatMap segments) start c.world
  present : ∃ content, c.world.sink.contentAt target = .ok content
  bound : ∀ a, c.appender = some a → a.Bound recipient target
  counts : ∀ a, c.appender = some a → a.entries = c.added.length

/-- Whatever is asked, the file holds what was added and the count is right. -/
theorem Kept.ask (h : Kept recipient target start c) (request : Request) : Kept recipient target start (c.ask request) := by
  rcases ha : c.appender with _ | a
  · rw [Client.ask, ha]
    exact h
  · obtain ⟨hadds, hbound⟩ := perform_adds (h.bound a ha) h.present request
    have hcounts (b : Appender FileSystem) (hb : (a.perform c.world request).2.1 = some b) := perform_entries a c.world request hb
    rw [Client.ask, ha]
    dsimp only
    generalize a.perform c.world request = outcome at hadds hbound hcounts ⊢
    obtain ⟨answer, after, world⟩ := outcome
    have hadded : Client.added ⟨after, world, c.exchanges ++ [⟨a, request, answer⟩]⟩ =
        c.added ++ (Exchange.mk a request answer).added := by
      rw [added, List.flatMap_append, List.flatMap_singleton, added]
    have hsegments : (Exchange.mk a request answer).added.flatMap segments =
        if answer.isOk then request.entry?.toList.flatMap segments else [] := by
      rw [Exchange.added, apply_ite (List.flatMap segments), List.flatMap_nil]
    refine ⟨?_, hadds.stays h.present, hbound, fun b hb => ?_⟩
    · rw [hadded, List.flatMap_append, hsegments]
      exact h.adds.trans hadds
    · rw [hadded, List.length_append, ← h.counts a ha]
      exact hcounts b hb

/-- However much is asked, the file holds what was added and the count is right. -/
theorem Kept.askAll (h : Kept recipient target start c) (requests : List Request) :
    Kept recipient target start (c.askAll requests) := by
  induction requests generalizing c with
  | nil => exact h
  | cons request requests ih => exact ih (h.ask request)

/-- The appender is there and open, and has refused nothing. -/
def Ready (c : Client FileSystem) : Prop := ∃ a, c.appender = some a ∧ a.Free ∧ a.channel.isSome

/-- An entry that a frame has room for is added, and the appender stays open. -/
theorem Ready.ask (hready : c.Ready) (h : Kept recipient target start c) (hroom : recipient.Fits KeyMaterial.keySize)
    (hkey : recipient.size < 256 ^ Frame.lengthSize) {request : Request} (hentry : request.entry?.isSome)
    (hfits : request.Fits) :
    (c.ask request).Ready ∧ ∃ x, (c.ask request).exchanges = c.exchanges ++ [x] ∧ x.request = request ∧ x.answer.isOk := by
  obtain ⟨a, ha, hfree, hopen⟩ := hready
  obtain ⟨hanswer, hafter, hstays⟩ := perform_succeeds (h.bound a ha) hfree hroom hkey hfits c.world
  rw [hentry, hopen, Bool.and_self] at hstays
  rw [Client.ask, ha]
  refine ⟨?_, _, rfl, rfl, (hanswer hentry).trans hopen⟩
  cases hb : (a.perform c.world request).2.1 with
  | none =>
    rw [hb] at hstays
    cases hstays
  | some b =>
    rw [hb] at hstays
    exact ⟨b, hb, hafter b hb, hstays⟩

/-- Entries that frames have room for are all added. -/
theorem Ready.askAll (hready : c.Ready) (h : Kept recipient target start c) (hroom : recipient.Fits KeyMaterial.keySize)
    (hkey : recipient.size < 256 ^ Frame.lengthSize) (hentries : ∀ request ∈ requests, request.entry?.isSome)
    (hfits : ∀ request ∈ requests, request.Fits) (hok : ∀ x ∈ c.exchanges, x.answer.isOk) :
    ∀ x ∈ (c.askAll requests).exchanges, x.answer.isOk := by
  induction requests generalizing c with
  | nil => exact hok
  | cons request requests ih =>
    obtain ⟨hentry, hothers⟩ := List.forall_mem_cons.mp hentries
    obtain ⟨hfit, hrest⟩ := List.forall_mem_cons.mp hfits
    obtain ⟨hstays, x, hnoted, -, hx⟩ := hready.ask h hroom hkey hentry hfit
    refine ih hstays (h.ask request) hothers hrest ?_
    rw [hnoted]
    exact List.forall_mem_append.mpr ⟨hok, List.forall_mem_singleton.mpr hx⟩

/-- The user of a new appender has added nothing. -/
theorem kept_onFile {path : String} {a : Appender FileSystem} {opened : World FileSystem}
    (h : onFile path (Hook.encrypting recipient) start = (.ok a, opened)) :
    ∃ target, start.sink.locate path = .ok ⟨target, false⟩ ∧ Kept recipient target start (mk (some a) opened []) ∧
      (mk (some a) opened []).Ready := by
  rcases htarget : start.sink.openWrite path .append FileSystem.fileMode with fault | ⟨target, fs⟩
  · rw [onFile, htarget] at h
    cases h
  rw [onFile_eq htarget] at h
  cases h
  obtain ⟨hplace, -, hcontent⟩ := FileSystem.openWrite_spec htarget
  refine ⟨target, hplace, ⟨.opened htarget, ⟨_, hcontent⟩, ?_, ?_⟩, ⟨_, rfl, ?_, rfl⟩⟩
  · rintro a ⟨⟩
    exact ⟨rfl, .inr ⟨_, rfl, rfl, rfl, rfl, .inl rfl⟩⟩
  · rintro a ⟨⟩
    rfl
  · rintro w ⟨⟩
    rfl

end Client

/-! ## The log of a new appender -/

/-- A file that is missing or empty holds nothing. -/
theorem held_of_fresh {path : String} {fs : FileSystem} (hplace : fs.locate path = .ok ⟨target, false⟩)
    (hfresh : ∀ content, fs.readBytes path = .ok content → content = []) : fs.held target = [] := by
  cases hcontent : fs.contentAt target with
  | error e => rw [FileSystem.held, hcontent]; rfl
  | ok content =>
    obtain ⟨mode, hnode⟩ := FileSystem.contentAt_eq_ok_iff.mp hcontent
    rw [FileSystem.held_of_contentAt hcontent, hfresh content (FileSystem.readBytes_of_node hplace hnode)]

/-- If a new appender on a file that is missing or empty is asked for entries and answers all of them well, the file consists of
the frames of the entries that are not empty, in their order, and the appender has counted all entries. -/
theorem frames_of_entries {path : String} {a : Appender FileSystem} {world opened : World FileSystem}
    (hopen : onFile path (Hook.encrypting recipient) world = (.ok a, opened))
    (hfresh : ∀ content, world.sink.readBytes path = .ok content → content = [])
    (hentries : ∀ request ∈ requests, request.entry?.isSome) :
    let c := (Client.mk (some a) opened []).askAll requests
    (∀ x ∈ c.exchanges, x.answer.isOk) →
      ∃ b target encodings, c.appender = some b ∧ b.entries = requests.length ∧
        world.sink.locate path = .ok ⟨target, false⟩ ∧ SameBut target world.sink c.world.sink ∧
        List.Forall₂ (Sealed recipient world.entropy.byte) ((requests.filterMap Request.entry?).filter (· ≠ [])) encodings ∧
        c.world.sink.contentAt target = .ok encodings.flatten := by
  intro c hok
  obtain ⟨target, hplace, hstart, -⟩ := Client.kept_onFile hopen
  have hkept : Client.Kept recipient target world c := hstart.askAll requests
  obtain ⟨hthere, hasked⟩ := Client.askAll_entries (c := Client.mk (some a) opened []) rfl hentries
  obtain ⟨b, hb⟩ := Option.isSome_iff_exists.mp hthere
  have hadded : c.added = requests.filterMap Request.entry? := by
    rw [Client.added_eq_of_isOk hok, hasked, List.map_nil, List.nil_append]
  obtain ⟨encodings, hsealed, hheld⟩ := hkept.adds.grows
  obtain ⟨content, hcontent⟩ := hkept.present
  rw [hadded, flatMap_segments] at hsealed
  rw [held_of_fresh hplace hfresh, FileSystem.held_of_contentAt hcontent, List.nil_append] at hheld
  refine ⟨b, target, encodings, hb, ?_, hplace, hkept.adds.same, hsealed, hheld ▸ hcontent⟩
  rw [hkept.counts b hb, hadded, List.length_filterMap_eq_countP, List.countP_eq_length]
  exact hentries

/-- An empty line, nothing and two bytes are three entries and two frames. -/
theorem frames_of_entries_sample :
    let world : World FileSystem := { sink := LogFile.Sample.files, entropy := .cycle [7] }
    ∃ a opened, onFile "log" (Hook.encrypting Sample.key.toPublicKey) world = (.ok a, opened) ∧
      let c := (Client.mk (some a) opened []).askAll [.appendLine "", .append [], .append [1, 2]]
      ∃ b encodings, c.appender = some b ∧ b.entries = 3 ∧ c.world.sink.contentAt ["log"] = .ok encodings.flatten ∧
        List.Forall₂ (Sealed Sample.key.toPublicKey world.entropy.byte) [[10], [1, 2]] encodings := by
  intro world
  have hopened : ∃ fs, world.sink.openWrite "log" .append FileSystem.fileMode = .ok (["log"], fs) :=
    FileSystem.exists_openWrite rfl (by exact nofun) _ _
  obtain ⟨fs, htarget⟩ := hopened
  have hopen : onFile "log" (Hook.encrypting Sample.key.toPublicKey) world = _ := onFile_eq htarget
  have hentries : ∀ request ∈ [Request.appendLine "", .append [], .append [1, 2]], request.entry?.isSome := by decide
  have hfits : ∀ request ∈ [Request.appendLine "", .append [], .append [1, 2]], request.Fits := by
    simp only [List.forall_mem_cons]
    refine ⟨?_, ?_, ?_, List.forall_mem_nil _⟩ <;> rintro entry ⟨⟩ <;> decide
  obtain ⟨_, -, hstart, hready⟩ := Client.kept_onFile hopen
  have hok := hready.askAll hstart Sample.fits_key Sample.size_key_lt hentries hfits (List.forall_mem_nil _)
  obtain ⟨b, target, encodings, hb, hcount, hplace, -, hsealed, hcontent⟩ :=
    frames_of_entries hopen (by exact nofun) hentries hok
  obtain rfl : ["log"] = target := congrArg FileSystem.Place.location (Except.ok.inj hplace)
  exact ⟨_, _, hopen, b, encodings, hb, hcount, hcontent, hsealed⟩

/-- An entry in which there is nothing is added and counted, and there is no frame of it. -/
theorem no_frame_of_nothing :
    let world : World FileSystem := { sink := LogFile.Sample.files, entropy := .cycle [7] }
    ∃ a opened, onFile "log" (Hook.encrypting Sample.key.toPublicKey) world = (.ok a, opened) ∧
      let c := (Client.mk (some a) opened []).ask (.append [])
      (∀ x ∈ c.exchanges, x.answer.isOk) ∧ ∃ b, c.appender = some b ∧ b.entries = 1 ∧
        ¬∃ encodings : List Bytes, encodings.length = b.entries ∧
          List.Forall₂ (Sealed Sample.key.toPublicKey world.entropy.byte) [[]] encodings ∧
          c.world.sink.contentAt ["log"] = .ok encodings.flatten := by
  intro world
  have hopened : ∃ fs, world.sink.openWrite "log" .append FileSystem.fileMode = .ok (["log"], fs) :=
    FileSystem.exists_openWrite rfl (by exact nofun) _ _
  obtain ⟨fs, htarget⟩ := hopened
  obtain ⟨-, -, hempty⟩ := FileSystem.openWrite_spec htarget
  refine ⟨_, _, onFile_eq htarget, List.forall_mem_singleton.mpr rfl, _, rfl, rfl, ?_⟩
  rintro ⟨encodings, -, hsealed, hcontent⟩
  have hnone : encodings.flatten = [] := Except.ok.inj (hcontent.symm.trans hempty)
  rcases hsealed with _ | ⟨hfirst, -⟩
  exact hfirst.ne_nil (List.append_eq_nil_iff.mp hnone).1

end EnvelopeLog.Appender
