import EnvelopeLog.Proofs.Appender
import EnvelopeLog.Proofs.Log.Joining

/-!
# A log that several writers share

Any number of appenders are open on one log at the same time, files are encrypted onto it meanwhile, and the calls come in any
order (`SharedLog`). Each call puts whole frames behind what the log holds or leaves it as it is, and nobody keeps back anything
that could be written later, so the log always consists of what it held at first and the frames of the calls that succeeded, in
their order (`SharedLog.Sound`). The owner of the key opens it to their entries and files, and no call is refused that a frame
has room for (`SharedLog.run_opens`).
-/

namespace EnvelopeLog

open FileSystem (Extends SameBut)

/-- What a call contributes to a log: the entry of an appender, or the file that is encrypted onto it. -/
inductive Contribution where
  | entry (b : Bytes)
  | file (job : LogFile.Job)

namespace Contribution

/-- The bytes that are contributed, files being those of a file system. -/
def payload (fs : FileSystem) : Contribution → Bytes
  | .entry b => b
  | .file job => (fs.readBytes job.input).toOption.getD []

/-- The payloads of the frames. -/
def segments (fs : FileSystem) : Contribution → List Bytes
  | .entry b => Appender.segments b
  | .file job => Bytes.slices job.chunk ((fs.readBytes job.input).toOption.getD [])

end Contribution

/-- A log at work: the appenders that were opened on it, each until it is given up, and what calls contributed so far. -/
structure SharedLog where
  world : World FileSystem
  appenders : List (Option (Appender FileSystem)) := []
  made : List Contribution := []

namespace SharedLog

/-! ## Calls -/

/-- A call of one of those who share a log. -/
inductive Act where
  /-- One more appender is opened. -/
  | join (path : String)
  | ask (i : Nat) (request : Appender.Request)
  | encrypt (job : LogFile.Job)

namespace Act

/-- Whether a path that is called with leads to the log, and a file that is encrypted onto the log is another file. -/
def Concerns (fs : FileSystem) (target : Location) : Act → Prop
  | .join path => fs.locate path = .ok ⟨target, false⟩
  | .ask _ _ => True
  | .encrypt job => fs.locate job.output = .ok ⟨target, false⟩ ∧ fs.Apart job.input job.output

/-- Whether frames have room for what is contributed, and a file can be read. -/
def Fits (fs : FileSystem) : Act → Prop
  | .join _ => True
  | .ask _ request => request.Fits
  | .encrypt job => job.Feasible fs

/-- What a call contributes that is not refused, when it is known which appenders are open. -/
def contributions (opened : List Bool) : Act → List Contribution
  | .join _ => []
  | .ask i request => if opened[i]? = some true then request.entry?.toList.map .entry else []
  | .encrypt job => [.file job]

/-- Which appenders are open after a call. -/
def track (opened : List Bool) : Act → List Bool
  | .join _ => opened ++ [true]
  | .ask i request => if request.entry?.isSome then opened else opened.set i false
  | .encrypt _ => opened

end Act

/-- What calls contribute of which none is refused, in their order. -/
def contributions : List Bool → List Act → List Contribution
  | _, [] => []
  | opened, x :: acts => x.contributions opened ++ contributions (x.track opened) acts

/-- The log after a call; nothing is asked of an appender that was given up or never opened. -/
def step (recipient : Rsa.PublicKey) (s : SharedLog) : Act → SharedLog
  | .join path =>
    match Appender.onFile path (Hook.encrypting recipient) s.world with
    | (.error _, world) => { s with world }
    | (.ok a, world) => { s with world, appenders := s.appenders ++ [some a] }
  | .ask i request =>
    match s.appenders[i]? with
    | some (some a) =>
      let (answer, after, world) := a.perform s.world request
      { world
        appenders := s.appenders.set i after
        made := s.made ++ if answer.isOk then request.entry?.toList.map .entry else [] }
    | _ => s
  | .encrypt job =>
    match LogFile.encrypt recipient job.input job.output job.chunk .append s.world with
    | (.error _, world) => { s with world }
    | (.ok _, world) => { s with world, made := s.made ++ [.file job] }

/-- The log after some calls. -/
def run (recipient : Rsa.PublicKey) (s : SharedLog) (acts : List Act) : SharedLog := acts.foldl (step recipient) s

/-- A log before the first call. -/
def start (fs : FileSystem) (entropy : Entropy) : SharedLog where
  world := { sink := fs, entropy }

variable {recipient : Rsa.PublicKey} {target : Location} {fs : FileSystem} {entropy : Entropy} {s : SharedLog} {x : Act}
  {acts : List Act}

/-! ## Whole frames -/

/-- The log holds what it held at first and the frames of what was contributed, and whoever shares it has nothing left to add. -/
structure Sound (recipient : Rsa.PublicKey) (target : Location) (fs : FileSystem) (entropy : Entropy) (s : SharedLog) :
    Prop where
  adds : Adds recipient target (s.made.flatMap (Contribution.segments fs)) { sink := fs, entropy } s.world
  whole : ∀ c ∈ s.made, (c.segments fs).flatten = c.payload fs
  bound : ∀ a, some a ∈ s.appenders → a.Bound recipient target
  /-- Appenders are open on a file that is there. -/
  present : (∃ a, some a ∈ s.appenders) → ∃ content, s.world.sink.contentAt target = .ok content

namespace Sound

theorem start (hfree : ∀ mode, fs.node? target ≠ some (.directory mode)) :
    Sound recipient target fs entropy (start fs entropy) where
  adds := .still hfree rfl rfl
  whole := nofun
  bound := nofun
  present := nofun

/-- An appender that joins finds the file there, or makes it, and adds nothing. -/
theorem join (h : Sound recipient target fs entropy s) {path : String} (hplace : fs.locate path = .ok ⟨target, false⟩) :
    ∃ a world, s.step recipient (.join path) = { s with world, appenders := s.appenders ++ [some a] } ∧
      a.channel = some (.encrypting { recipient }) ∧
      Sound recipient target fs entropy { s with world, appenders := s.appenders ++ [some a] } := by
  obtain ⟨opened, hopened⟩ := FileSystem.exists_openWrite (h.adds.same.locate hplace) h.adds.same.no_directory_after
    .append FileSystem.fileMode
  refine ⟨_, _, by rw [step, Appender.onFile_eq hopened], rfl, ?_⟩
  refine ⟨h.adds.then_nothing (.opened hopened), h.whole, ?_, fun _ => ⟨_, (FileSystem.openWrite_spec hopened).2.2⟩⟩
  intro a ha
  rcases List.mem_append.mp ha with ha | ha
  · exact h.bound a ha
  · obtain rfl := Option.some.inj (List.mem_singleton.mp ha)
    exact ⟨rfl, .inr ⟨_, rfl, rfl, rfl, rfl, .inl rfl⟩⟩

/-- What is asked of one appender adds the frames of its entry, and leaves nothing for later. -/
theorem ask (h : Sound recipient target fs entropy s) (i : Nat) (request : Appender.Request) :
    Sound recipient target fs entropy (s.step recipient (.ask i request)) := by
  rw [step]
  split
  · rename_i a hget
    have hmem : some a ∈ s.appenders := List.mem_of_getElem? hget
    obtain ⟨hadds, hbound⟩ := Appender.perform_adds (h.bound a hmem) (h.present ⟨a, hmem⟩) request
    generalize a.perform s.world request = outcome at hadds hbound ⊢
    obtain ⟨answer, after, world⟩ := outcome
    have hsegments : (if answer.isOk then request.entry?.toList.map Contribution.entry else []).flatMap
        (Contribution.segments fs) = if answer.isOk then request.entry?.toList.flatMap Appender.segments else [] := by
      split
      · rw [List.flatMap_map]
        rfl
      · rfl
    refine ⟨?_, ?_, ?_, fun _ => hadds.stays (h.present ⟨a, hmem⟩)⟩
    · rw [List.flatMap_append, hsegments]
      exact h.adds.trans hadds
    · intro c hc
      rcases List.mem_append.mp hc with hc | hc
      · exact h.whole c hc
      · split at hc
        · obtain ⟨entry, -, rfl⟩ := List.mem_map.mp hc
          exact Appender.flatten_segments entry
        · cases hc
    · intro b hb
      rcases List.mem_or_eq_of_mem_set hb with hb | hb
      · exact h.bound b hb
      · exact hbound b hb.symm
  · exact h

/-- Encrypting another file adds the frames of its slices. -/
theorem encrypt (h : Sound recipient target fs entropy s) {job : LogFile.Job}
    (hplace : fs.locate job.output = .ok ⟨target, false⟩) (hapart : fs.Apart job.input job.output) :
    Sound recipient target fs entropy (s.step recipient (.encrypt job)) := by
  have hthere := h.adds.same.locate hplace
  have hother := h.adds.same.apart hapart
  rw [step]
  rcases hcall : LogFile.encrypt recipient job.input job.output job.chunk .append s.world with ⟨e | n, world⟩
  · have hadds := LogFile.encrypt_error_adds hother hthere h.adds.same.no_directory_after hcall
    exact ⟨h.adds.then_nothing hadds, h.whole, h.bound, fun hsome => hadds.stays (h.present hsome)⟩
  · obtain ⟨x, rfl, hx, hadds⟩ := LogFile.encrypt_ok_adds hother hthere hcall
    obtain ⟨source, -, hopen, hcontent⟩ := (hx.of_sameBut h.adds.same).reads
    have hread : (fs.readBytes x.job.input).toOption.getD [] = x.content := by
      rw [FileSystem.readBytes, hopen]
      dsimp only
      rw [hcontent]
      rfl
    have hsegments : (Contribution.file x.job).segments fs = x.slices := by
      rw [Contribution.segments, hread]
      rfl
    refine ⟨?_, ?_, h.bound, fun hsome => hadds.stays (h.present hsome)⟩
    · rw [List.flatMap_append, List.flatMap_singleton, hsegments]
      exact h.adds.trans hadds
    · intro c hc
      rcases List.mem_append.mp hc with hc | hc
      · exact h.whole c hc
      · obtain rfl := List.mem_singleton.mp hc
        rw [hsegments, LogFile.Encryption.slices, Bytes.flatten_slices hx.chunk_pos, Contribution.payload, hread]

/-- Whatever the next call is, the log stays sound. -/
theorem step (h : Sound recipient target fs entropy s) (hx : x.Concerns fs target) :
    Sound recipient target fs entropy (s.step recipient x) := by
  cases x with
  | join path =>
    obtain ⟨a, world, hstep, -, hsound⟩ := h.join hx
    rw [hstep]
    exact hsound
  | ask i request => exact h.ask i request
  | encrypt job => exact h.encrypt hx.1 hx.2

/-- Whatever the calls are, the log stays sound. -/
theorem run (h : Sound recipient target fs entropy s) (hacts : ∀ x ∈ acts, x.Concerns fs target) :
    Sound recipient target fs entropy (s.run recipient acts) := by
  induction acts generalizing s with
  | nil => exact h
  | cons x acts ih =>
    obtain ⟨hx, hothers⟩ := List.forall_mem_cons.mp hacts
    exact ih (h.step hx) hothers

/-- What was contributed is what is in the frames. -/
theorem flatten_segments (h : Sound recipient target fs entropy s) :
    (s.made.flatMap (Contribution.segments fs)).flatten = s.made.flatMap (Contribution.payload fs) := by
  have hwhole := h.whole
  generalize s.made = made at hwhole
  induction made with
  | nil => rfl
  | cons c made ih =>
    obtain ⟨hc, hothers⟩ := List.forall_mem_cons.mp hwhole
    rw [List.flatMap_cons, List.flatten_append, hc, ih hothers, List.flatMap_cons]

end Sound

/-! ## Calls that fit -/

/-- No appender has refused anything, and it is known which are open. -/
structure Calm (opened : List Bool) (s : SharedLog) : Prop where
  free : ∀ a, some a ∈ s.appenders → a.Free
  opened : s.appenders.map Appender.isOpen = opened

namespace Calm

variable {opened : List Bool}

theorem getElem?_opened (h : Calm opened s) (i : Nat) : opened[i]? = s.appenders[i]?.map Appender.isOpen := by
  rw [← h.opened, List.getElem?_map]

/-- A request that fits is not refused, and contributes its entry if the appender is open. -/
theorem ask (h : Calm opened s) (hsound : Sound recipient target fs entropy s) (hroom : recipient.Fits KeyMaterial.keySize)
    (hkey : recipient.size < 256 ^ Frame.lengthSize) (i : Nat) {request : Appender.Request} (hfits : request.Fits) :
    Calm ((Act.ask i request).track opened) (s.step recipient (.ask i request)) ∧
      (s.step recipient (.ask i request)).made = s.made ++ (Act.ask i request).contributions opened := by
  have hget := h.getElem?_opened i
  rw [SharedLog.step, Act.contributions, Act.track]
  rcases ha : s.appenders[i]? with _ | _ | a
  · rw [ha, Option.map_none] at hget
    rw [hget, List.set_eq_of_length_le (List.getElem?_eq_none_iff.mp hget), ite_self]
    exact ⟨h, (List.append_nil _).symm⟩
  · rw [ha, Option.map_some] at hget
    obtain ⟨hi, hvalue⟩ := List.getElem?_eq_some_iff.mp hget
    have hset : opened.set i false = opened := by
      rw [← show opened[i] = false from hvalue, List.set_getElem_self hi]
    rw [hget, hset, ite_self]
    exact ⟨h, (List.append_nil _).symm⟩
  · rw [ha, Option.map_some] at hget
    have hmem : some a ∈ s.appenders := List.mem_of_getElem? ha
    obtain ⟨hanswer, hfree, hopen⟩ :=
      Appender.perform_succeeds (hsound.bound a hmem) (h.free a hmem) hroom hkey hfits s.world
    dsimp only
    generalize a.perform s.world request = outcome at hanswer hfree hopen ⊢
    obtain ⟨answer, after, world⟩ := outcome
    obtain ⟨hi, hvalue⟩ := List.getElem?_eq_some_iff.mp hget
    have hafter : ∀ b, some b ∈ s.appenders.set i after → b.Free := by
      intro b hb
      rcases List.mem_or_eq_of_mem_set hb with hb | hb
      · exact h.free b hb
      · exact hfree b hb.symm
    cases hentry : request.entry? with
    | none =>
      have hshut : Appender.isOpen after = false := by
        rw [hentry] at hopen
        exact hopen
      refine ⟨⟨hafter, ?_⟩, ?_⟩
      · rw [List.map_set, h.opened, hshut]
        rfl
      · simp
    | some entry =>
      have hsame : Appender.isOpen after = Appender.isOpen (some a) := by
        rw [hentry] at hopen
        exact hopen
      have hok : answer.isOk = Appender.isOpen (some a) := hanswer (by rw [hentry]; rfl)
      refine ⟨⟨hafter, ?_⟩, ?_⟩
      · rw [List.map_set, h.opened, hsame, ← hvalue, List.set_getElem_self hi]
        rfl
      · rw [hget, hok]
        cases Appender.isOpen (some a) <;> rfl

/-- A call that fits contributes what it was made for. -/
theorem step (h : Calm opened s) (hsound : Sound recipient target fs entropy s) (hroom : recipient.Fits KeyMaterial.keySize)
    (hkey : recipient.size < 256 ^ Frame.lengthSize) (hx : x.Concerns fs target) (hfits : x.Fits fs) :
    Calm (x.track opened) (s.step recipient x) ∧ (s.step recipient x).made = s.made ++ x.contributions opened := by
  cases x with
  | join path =>
    obtain ⟨a, world, hstep, hchannel, -⟩ := hsound.join hx
    rw [hstep]
    refine ⟨⟨?_, ?_⟩, (List.append_nil _).symm⟩
    · intro b hb
      rcases List.mem_append.mp hb with hb | hb
      · exact h.free b hb
      · obtain rfl := Option.some.inj (List.mem_singleton.mp hb)
        intro w hw
        rw [hchannel] at hw
        cases hw
        rfl
    · rw [List.map_append, h.opened, List.map_singleton, Appender.isOpen, hchannel]
      rfl
  | ask i request => exact h.ask hsound hroom hkey i hfits
  | encrypt job =>
    obtain ⟨opened', hopened⟩ := FileSystem.exists_openWrite (hsound.adds.same.locate hx.1)
      hsound.adds.same.no_directory_after .append FileSystem.fileMode
    have hfeasible : job.Feasible s.world.sink := LogFile.Job.Feasible.of_sameBut hfits hx.1 hsound.adds.same
    obtain ⟨n, world, hcall⟩ := LogFile.encrypt_succeeds hfeasible hopened hroom hkey
    rw [SharedLog.step, hcall]
    exact ⟨⟨h.free, h.opened⟩, rfl⟩

/-- Calls that fit contribute what they were made for, in their order. -/
theorem run (h : Calm opened s) (hsound : Sound recipient target fs entropy s) (hroom : recipient.Fits KeyMaterial.keySize)
    (hkey : recipient.size < 256 ^ Frame.lengthSize) (hacts : ∀ x ∈ acts, x.Concerns fs target)
    (hfits : ∀ x ∈ acts, x.Fits fs) : (s.run recipient acts).made = s.made ++ contributions opened acts := by
  induction acts generalizing s opened with
  | nil => exact (List.append_nil _).symm
  | cons x acts ih =>
    obtain ⟨hx, hothers⟩ := List.forall_mem_cons.mp hacts
    obtain ⟨hfirst, hrest⟩ := List.forall_mem_cons.mp hfits
    obtain ⟨hcalm, hmade⟩ := h.step hsound hroom hkey hx hfirst
    rw [contributions, ← List.append_assoc, ← hmade]
    exact ih hcalm (hsound.step hx) hothers hrest

end Calm

/-! ## Opening the log -/

/-- Frames behind a log that opens open behind what the log opens to. -/
theorem decryptBytes_of_extends {k : Rsa.PrivateKey} {shortcut : Rsa.Shortcut} (hsound : k.Sound shortcut)
    (hprime : ∀ p ∈ k.primes, p.Prime) {byte : Nat → UInt8} {segments : List Bytes} {fs' : FileSystem} {limit : Nat}
    {first : Bytes} (hgrows : Extends k.toPublicKey byte target segments fs fs')
    (hfirst : Log.decryptBytes k limit (fs.held target) = .ok first) (hsize : k.size ≤ limit)
    (hsegments : ∀ b ∈ segments, b.length + Gcm.tagSize ≤ limit) :
    Log.decryptBytes k limit (fs'.held target) = .ok (first ++ segments.flatten) := by
  obtain ⟨encodings, hsealed, hheld⟩ := hgrows
  have hframes : Log.decryptBytes k limit encodings.flatten = .ok segments.flatten :=
    congrArg Prod.fst ((Log.gives_decrypt_sealed hsound hprime hsealed hsize hsegments).after 0)
  rw [hheld, Log.decryptBytes_append_of_ok hfirst, hframes]
  rfl

/-- However the calls of those who share a log follow each other, at any time the log holds what it held at first and whole
frames behind it. If it opened at first, the owner of the key opens it to the same and, in the order of the calls, to the
entries and files of the calls that succeeded. A call succeeds if frames have room for what it contributes, if the file that is
to be encrypted can be read, and if the appender that is asked is open. -/
theorem run_opens {text : String} {k : Rsa.PrivateKey} (hk : Rsa.PrivateKey.ofText text = .ok k)
    (hprime : ∀ p ∈ k.primes, p.Prime) (hsize : 98 ≤ k.size)
    (hfree : ∀ mode, fs.node? target ≠ some (.directory mode)) (hacts : ∀ x ∈ acts, x.Concerns fs target)
    (entropy : Entropy) :
    let s := (start fs entropy).run k.toPublicKey acts
    let segments := s.made.flatMap (Contribution.segments fs)
    (SameBut target fs s.world.sink ∧ Extends k.toPublicKey entropy.byte target segments fs s.world.sink ∧
      ∀ job count, fs.locate job.output = .ok ⟨target, false⟩ →
        ∃ more, Extends k.toPublicKey entropy.byte target (segments ++ more) fs
          (LogFile.sealing k.toPublicKey job count s.world).sink) ∧
    (∀ limit first, Log.decryptBytes k limit (fs.held target) = .ok first → k.size ≤ limit →
      (∀ b ∈ segments, b.length + Gcm.tagSize ≤ limit) →
      let payload := first ++ s.made.flatMap (Contribution.payload fs)
      Log.decryptBytes k limit (s.world.sink.held target) = .ok payload ∧
      ∀ content log path plain opened, s.world.sink.contentAt target = .ok content →
        fs.locate log = .ok ⟨target, false⟩ →
        s.world.sink.openWrite path .truncate FileSystem.fileMode = .ok (plain, opened) →
          ∃ decrypted, LogFile.decrypt k limit log path s.world.sink = (.ok payload.length, decrypted) ∧
            SameBut plain s.world.sink decrypted ∧ decrypted.contentAt plain = .ok payload) ∧
    (k.size < 256 ^ Frame.lengthSize → (∀ x ∈ acts, x.Fits fs) → s.made = contributions [] acts) := by
  intro s segments
  obtain ⟨shortcut, hshortcut⟩ := Rsa.PrivateKey.sound_of_ofText hk
  have hstart : Sound k.toPublicKey target fs entropy (start fs entropy) := .start hfree
  have hsound : Sound k.toPublicKey target fs entropy s := hstart.run hacts
  have hgrows : Extends k.toPublicKey entropy.byte target segments fs s.world.sink := hsound.adds.grows
  refine ⟨⟨hsound.adds.same, hgrows, ?_⟩, ?_, ?_⟩
  · intro job count hplace
    obtain ⟨more, hmore⟩ := LogFile.sealing_adds (hsound.adds.same.locate hplace) hsound.adds.same.no_directory_after count
    exact ⟨more, (hsound.adds.trans hmore).grows⟩
  · intro limit first hfirst hlimit hsegments payload
    have hlog : Log.decryptBytes k limit (s.world.sink.held target) = .ok payload := by
      rw [decryptBytes_of_extends hshortcut hprime hgrows hfirst hlimit hsegments, hsound.flatten_segments]
    refine ⟨hlog, ?_⟩
    intro content log path plain opened hcontent hplace hplain
    have hopen := FileSystem.openRead_of_locate (hsound.adds.same.locate hplace) hcontent
    rw [FileSystem.held_of_contentAt hcontent] at hlog
    have hfile : (Log.decrypt k limit (s.world.sink.sourceAt target 0)).1 = Log.decryptBytes k limit content :=
      Log.decrypt_of_delivers (FileSystem.sourceAt_delivers hcontent 0)
    exact LogFile.decrypt_of_log hopen (hfile.trans hlog) hplain
  · intro hkey hfits
    have hcalm : Calm [] (start fs entropy) := ⟨nofun, rfl⟩
    exact hcalm.run hstart hsize hkey hacts hfits

/-- Two appenders and a file take turns; what is asked of an appender that is closed comes to nothing. -/
def Sample.calls : List Act :=
  [.join "log", .join "./log", .ask 0 (.append [1, 2]), .encrypt ⟨"a", "/log", 2⟩, .ask 1 (.append [6]), .ask 0 .close,
    .ask 0 (.append [7]), .ask 1 .drop]

/-- The log of two appenders and a file of five bytes. -/
theorem run_opens_sample :
    let s := (start LogFile.Sample.files (.cycle [7])).run EnvelopeLog.Sample.key.toPublicKey Sample.calls
    Log.decryptBytes EnvelopeLog.Sample.key 100 (s.world.sink.held ["log"]) = .ok [1, 2, 1, 2, 3, 4, 5, 6] := by
  have hsize := EnvelopeLog.Sample.size_key
  have hapart : LogFile.Sample.files.Apart "a" "/log" := FileSystem.apart_of_locate rfl rfl (by decide)
  have hfeasible : LogFile.Job.Feasible LogFile.Sample.files ⟨"a", "/log", 2⟩ :=
    ⟨by decide, by decide, hapart, ["a"], _, rfl, rfl⟩
  have hshort (b : Bytes) (hb : b.length ≤ 2) : (Appender.Request.append b).Fits := by
    rintro entry ⟨⟩
    exact lt_of_le_of_lt (Nat.add_le_add_right hb _) (by decide)
  have hconcerns : ∀ x ∈ Sample.calls, x.Concerns LogFile.Sample.files ["log"] := by
    simp only [Sample.calls, List.forall_mem_cons]
    exact ⟨rfl, rfl, trivial, ⟨rfl, hapart⟩, trivial, trivial, trivial, trivial, nofun⟩
  have hfits : ∀ x ∈ Sample.calls, x.Fits LogFile.Sample.files := by
    simp only [Sample.calls, List.forall_mem_cons]
    exact ⟨trivial, trivial, hshort _ (by decide), hfeasible, hshort _ (by decide), nofun, hshort _ (by decide), nofun, nofun⟩
  have hrun := run_opens EnvelopeLog.Sample.ofText_text EnvelopeLog.Sample.prime_of_mem (by rw [hsize]; decide)
    (by exact nofun) hconcerns (.cycle [7])
  dsimp only at hrun ⊢
  generalize (start LogFile.Sample.files (.cycle [7])).run EnvelopeLog.Sample.key.toPublicKey Sample.calls = s at hrun ⊢
  obtain ⟨-, hopens, hmade⟩ := hrun
  have hmade : s.made = [.entry [1, 2], .file ⟨"a", "/log", 2⟩, .entry [6]] := hmade (by rw [hsize]; decide) hfits
  have hsegments : ∀ b ∈ s.made.flatMap (Contribution.segments LogFile.Sample.files), b.length + Gcm.tagSize ≤ 100 := by
    rw [hmade]
    decide +kernel
  have hpayload : s.made.flatMap (Contribution.payload LogFile.Sample.files) = [1, 2, 1, 2, 3, 4, 5, 6] := by
    rw [hmade]
    decide +kernel
  have hempty : LogFile.Sample.files.held ["log"] = [] := by decide
  have hfirst : Log.decryptBytes EnvelopeLog.Sample.key 100 (LogFile.Sample.files.held ["log"]) = .ok [] := by
    rw [hempty, Log.decryptBytes_nil]
  obtain ⟨hlog, -⟩ := hopens 100 [] hfirst hsize.le hsegments
  rwa [List.nil_append, hpayload] at hlog

end SharedLog

end EnvelopeLog
