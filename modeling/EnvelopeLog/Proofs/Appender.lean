import EnvelopeLog.Proofs.LogFile.Growth

/-!
# What appenders do to a log file

An appender that seals for a recipient makes a frame of every entry, unless the entry is empty, before the call returns. Nothing
is left for a close or a drop to write, so whatever is asked, the file grows by the frame of the entry or not at all
(`Appender.perform_adds`). An open appender refuses only an entry that no frame has room for (`Appender.perform_succeeds`).
-/

namespace EnvelopeLog.Appender

/-- What can be asked of an appender. -/
inductive Request where
  | append (entry : Bytes)
  | appendLine (line : String)
  | close
  | drop

namespace Request

/-- The entry that is to be added. -/
def entry? : Request → Option Bytes
  | .append entry => some entry
  | .appendLine line => some (Bytes.ofText line ++ [10])
  | .close | .drop => none

/-- Whether a frame has room for the entry. -/
def Fits (request : Request) : Prop :=
  ∀ entry, request.entry? = some entry → entry.length + Gcm.tagSize < 256 ^ Frame.lengthSize

end Request

/-- The payloads of the frames of an entry. -/
def segments (entry : Bytes) : List Bytes := if entry = [] then [] else [entry]

/-- The segments of an entry make up the entry. -/
theorem flatten_segments (entry : Bytes) : (segments entry).flatten = entry := by
  unfold segments
  split
  · rename_i hentry
    rw [hentry]
    rfl
  · rw [List.flatten_singleton]

/-- The answer to a request, the appender unless it is given up, and the world after it. -/
def perform {σ : Type} (a : Appender σ) (world : World σ) : Request → Except Error Unit × Option (Appender σ) × World σ
  | .append entry =>
    let (answer, a, world) := a.append world entry
    (answer, some a, world)
  | .appendLine line =>
    let (answer, a, world) := a.appendLine world line
    (answer, some a, world)
  | .close =>
    let (answer, a, world) := a.close world
    (answer, some a, world)
  | .drop => (.ok (), none, a.drop world)

variable {recipient : Rsa.PublicKey} {target : Location} {a : Appender FileSystem} {w : Writer} {world : World FileSystem}

/-- Whether an appender is closed, or seals for a recipient onto a file and waits for an entry. -/
structure Bound (recipient : Rsa.PublicKey) (target : Location) (a : Appender FileSystem) : Prop where
  sink : a.sink = FileSystem.sinkAt target
  channel : a.channel = none ∨ ∃ w : Writer, a.channel = some (.encrypting w) ∧ w.Dormant recipient

/-- Whether an appender has refused nothing. -/
def Free (a : Appender FileSystem) : Prop := ∀ w, a.channel = some (.encrypting w) → w.buffer = []

/-- A new appender for a recipient. -/
theorem onFile_eq {path : String} {fs : FileSystem}
    (h : world.sink.openWrite path .append FileSystem.fileMode = .ok (target, fs)) :
    onFile path (Hook.encrypting recipient) world =
      (.ok { path, sink := FileSystem.sinkAt target, channel := some (.encrypting { recipient }) },
        { world with sink := fs }) := by
  rw [onFile, h]
  rfl

/-! ## Appends -/

/-- A closed appender refuses every entry and stays as it is. -/
theorem append_of_closed {σ : Type} {a : Appender σ} (h : a.channel = none) (world : World σ) (entry : Bytes) :
    a.append world entry = (.error (.io closedFault), a, world) := by
  rw [append, h]

/-- What an append to an open appender comes to. -/
inductive Appending (target : Location) (a : Appender FileSystem) (w : Writer) (world : World FileSystem) (entry : Bytes) :
    Except Error Unit × Appender FileSystem × World FileSystem → Prop
  | nothing (empty : w.buffer = []) (none : entry = []) :
      Appending target a w world entry
        (.ok (), { a with channel := some (.encrypting w), entries := a.entries + 1 }, world)
  | frame {frame : Bytes} {entropy : Entropy} (empty : w.buffer = []) (some : entry ≠ [])
      (sealed : ({ w with buffer := entry } : Writer).sealBuffer world.entropy = (.ok frame, entropy)) :
      Appending target a w world entry
        (.ok (), { a with channel := .some (.encrypting { w with buffer := [], frames := w.frames + 1 })
                          entries := a.entries + 1 },
          { sink := world.sink.appendAt target frame, entropy })
  /-- The entry stays in the writer for ever. -/
  | jammed {e : IoFault} {entropy : Entropy} (jammed : ¬({ w with buffer := w.buffer ++ entry } : Writer).Sealable)
      (byte : entropy.byte = world.entropy.byte) :
      Appending target a w world entry
        (.error (.io e), { a with channel := some (.encrypting { w with buffer := w.buffer ++ entry }) },
          { world with entropy })

/-- An append writes to the writer and flushes it. -/
theorem append_of_dormant (hsink : a.sink = FileSystem.sinkAt target) (hchannel : a.channel = some (.encrypting w))
    (hw : w.Dormant recipient) (entry : Bytes) :
    a.append world entry =
      match ({ w with buffer := w.buffer ++ entry } : Writer).flush (FileSystem.sinkAt target) world with
      | (.error e, w, world) => (.error (.io e.toIo), { a with channel := some (.encrypting w) }, world)
      | (.ok _, w, world) => (.ok (), { a with channel := some (.encrypting w), entries := a.entries + 1 }, world) := by
  rw [append, hchannel]
  simp only [Channel.write, Writer.write_of_dormant hw, Channel.flush, hsink]
  rcases ({ w with buffer := w.buffer ++ entry } : Writer).flush (FileSystem.sinkAt target) world with
    ⟨e | b, w', world'⟩ <;> rfl

/-- An append on the end of a file makes one frame of its entry, or leaves the entry with the writer. -/
theorem appending (hsink : a.sink = FileSystem.sinkAt target) (hchannel : a.channel = some (.encrypting w))
    (hw : w.Dormant recipient) (world : World FileSystem) (entry : Bytes) :
    Appending target a w world entry (a.append world entry) := by
  rw [append_of_dormant hsink hchannel hw]
  by_cases hempty : w.buffer ++ entry = []
  · obtain ⟨hbuffer, hentry⟩ := List.append_eq_nil_iff.mp hempty
    have hdormant : ({ w with buffer := w.buffer ++ entry } : Writer) = w := by
      rw [hentry, List.append_nil]
    rw [hdormant, hw.flush_idle hbuffer]
    exact .nothing hbuffer hentry
  · have hready : Session.Ready { w with buffer := w.buffer ++ entry } := ⟨hw.unpoisoned, hempty, hw.opened⟩
    obtain ⟨hsealable, frame, entropy, hseal⟩ | ⟨hjammed, -⟩ :=
      ({ w with buffer := w.buffer ++ entry } : Writer).sealBuffer_cases world.entropy
    · have hbuffer : w.buffer = [] := by
        refine hw.held.resolve_right fun hnot => hnot ⟨hsealable.room, hsealable.key, ?_⟩
        refine lt_of_le_of_lt (Nat.add_le_add_right ?_ _) hsealable.text
        rw [List.length_append]
        exact Nat.le_add_right _ _
      rw [hbuffer, List.nil_append] at hseal hempty hready ⊢
      rw [Writer.flush_sinkAt hready hseal]
      exact .frame hbuffer hempty hseal
    · obtain ⟨e, entropy, hflush, hbyte⟩ := Writer.flush_of_jammed hready hjammed (FileSystem.sinkAt target) world
      rw [hflush]
      exact .jammed hjammed hbyte

/-- An append that is answered well adds a frame of the entry, if there is anything in it; one that is not adds nothing. -/
theorem append_adds (ha : a.Bound recipient target) (hold : ∃ old, world.sink.contentAt target = .ok old) (entry : Bytes) :
    Adds recipient target (if (a.append world entry).1.isOk then segments entry else []) world (a.append world entry).2.2 ∧
      (a.append world entry).2.1.Bound recipient target := by
  obtain ⟨old, hold⟩ := hold
  have hfree := (FileSystem.SameBut.refl hold).no_directory
  rcases ha.channel with hclosed | ⟨w, hchannel, hw⟩
  · rw [append_of_closed hclosed]
    exact ⟨.still hfree rfl rfl, ha⟩
  have happending := appending ha.sink hchannel hw world entry
  generalize a.append world entry = outcome at happending ⊢
  cases happending with
  | nothing hempty hnone =>
    rw [hnone]
    exact ⟨.still hfree rfl rfl, ha.sink, .inr ⟨w, rfl, hw⟩⟩
  | frame hempty hsome hsealed =>
    have hframe := Adds.frame hold hsealed
    rw [hw.recipient] at hframe
    refine ⟨?_, ha.sink, .inr ⟨_, rfl, hw.recipient, hw.unpoisoned, hw.opened, .inl rfl⟩⟩
    rw [segments, if_neg hsome]
    exact hframe
  | jammed hjammed hbyte =>
    exact ⟨.still hfree rfl hbyte, ha.sink, .inr ⟨_, rfl, hw.recipient, hw.unpoisoned, hw.opened, .inr hjammed⟩⟩

/-- An open appender that has refused nothing does not refuse an entry that a frame has room for. -/
theorem append_succeeds (ha : a.Bound recipient target) (hfree : a.Free) (hroom : recipient.Fits KeyMaterial.keySize)
    (hkey : recipient.size < 256 ^ Frame.lengthSize) {entry : Bytes}
    (hentry : entry.length + Gcm.tagSize < 256 ^ Frame.lengthSize) (world : World FileSystem) :
    (a.append world entry).1.isOk = a.channel.isSome ∧ (a.append world entry).2.1.Free ∧
      (a.append world entry).2.1.channel.isSome = a.channel.isSome := by
  rcases ha.channel with hclosed | ⟨w, hchannel, hw⟩
  · rw [append_of_closed hclosed, hclosed]
    exact ⟨rfl, hfree, rfl⟩
  have hempty : w.buffer = [] := hfree w hchannel
  have happending := appending ha.sink hchannel hw world entry
  rw [hchannel]
  generalize a.append world entry = outcome at happending ⊢
  cases happending with
  | nothing _ _ =>
    refine ⟨rfl, ?_, rfl⟩
    rintro v ⟨⟩
    exact hempty
  | frame _ _ _ =>
    refine ⟨rfl, ?_, rfl⟩
    rintro v ⟨⟩
    rfl
  | jammed hjammed _ =>
    rw [hempty, List.nil_append] at hjammed
    refine absurd ⟨?_, ?_, hentry⟩ hjammed
    · rwa [hw.recipient]
    · rwa [hw.recipient]

/-! ## Requests -/

/-- A close lets go of the channel. -/
theorem close_channel {σ : Type} (a : Appender σ) (world : World σ) :
    (a.close world).2.1 = { a with channel := none } := by
  cases hchannel : a.channel with
  | none =>
    rw [close, hchannel]
    dsimp only
    rw [← hchannel]
  | some c => rw [close, hchannel]

/-- A close leaves the files as they are. -/
theorem close_adds (ha : a.Bound recipient target) (hfree : ∀ mode, world.sink.node? target ≠ some (.directory mode)) :
    Adds recipient target [] world (a.close world).2.2 := by
  rcases ha.channel with hclosed | ⟨w, hchannel, hw⟩
  · rw [close, hclosed]
    exact .still hfree rfl rfl
  · obtain ⟨result, entropy, hflush, hbyte⟩ := hw.flush (FileSystem.sinkAt target) world
    obtain ⟨hsink, hlater⟩ := hw.drop target { world with entropy }
    have hclose : (a.close world).2.2 = w.drop (FileSystem.sinkAt target) { world with entropy } := by
      rw [close, hchannel, ha.sink]
      simp only [Channel.flush, hflush]
      cases result <;> rfl
    rw [hclose]
    exact .still hfree hsink (hlater.trans hbyte)

/-- What a request adds is the frame of its entry, if it is answered well, or nothing. -/
theorem perform_adds (ha : a.Bound recipient target) (hold : ∃ old, world.sink.contentAt target = .ok old)
    (request : Request) :
    Adds recipient target
        (if (a.perform world request).1.isOk then request.entry?.toList.flatMap segments else []) world
        (a.perform world request).2.2 ∧
      ∀ b, (a.perform world request).2.1 = some b → b.Bound recipient target := by
  have hfree : ∀ mode, world.sink.node? target ≠ some (.directory mode) := by
    obtain ⟨old, hcontent⟩ := hold
    exact (FileSystem.SameBut.refl hcontent).no_directory
  have happend (entry : Bytes) := append_adds ha hold entry
  have hclose := close_adds ha hfree
  cases request with
  | append entry =>
    obtain ⟨hadds, hbound⟩ := happend entry
    refine ⟨?_, ?_⟩
    · rw [Request.entry?, Option.toList_some, List.flatMap_singleton]
      exact hadds
    · intro b hb
      obtain rfl : (a.append world entry).2.1 = b := Option.some.inj hb
      exact hbound
  | appendLine line =>
    obtain ⟨hadds, hbound⟩ := happend (Bytes.ofText line ++ [10])
    refine ⟨?_, ?_⟩
    · rw [Request.entry?, Option.toList_some, List.flatMap_singleton]
      exact hadds
    · intro b hb
      obtain rfl : (a.append world (Bytes.ofText line ++ [10])).2.1 = b := Option.some.inj hb
      exact hbound
  | close =>
    refine ⟨?_, ?_⟩
    · rw [Request.entry?, Option.toList_none, List.flatMap_nil, ite_self]
      exact hclose
    · intro b hb
      obtain rfl : (a.close world).2.1 = b := Option.some.inj hb
      rw [close_channel]
      exact ⟨ha.sink, .inl rfl⟩
  | drop =>
    refine ⟨?_, nofun⟩
    rw [Request.entry?, Option.toList_none, List.flatMap_nil, ite_self]
    exact hclose

/-- Whether there is an appender and it is open. -/
def isOpen {σ : Type} : Option (Appender σ) → Bool
  | some a => a.channel.isSome
  | none => false

/-- An entry that a frame has room for is added exactly if the appender is open, and only a close or a drop closes it. -/
theorem perform_succeeds (ha : a.Bound recipient target) (hfree : a.Free) (hroom : recipient.Fits KeyMaterial.keySize)
    (hkey : recipient.size < 256 ^ Frame.lengthSize) {request : Request} (hfits : request.Fits) (world : World FileSystem) :
    (request.entry?.isSome → (a.perform world request).1.isOk = a.channel.isSome) ∧
      (∀ b, (a.perform world request).2.1 = some b → b.Free) ∧
      isOpen (a.perform world request).2.1 = (request.entry?.isSome && a.channel.isSome) := by
  cases request with
  | append entry =>
    obtain ⟨hanswer, hafter, hopen⟩ := append_succeeds ha hfree hroom hkey (hfits entry rfl) world
    refine ⟨fun _ => hanswer, ?_, hopen⟩
    intro b hb
    obtain rfl : (a.append world entry).2.1 = b := Option.some.inj hb
    exact hafter
  | appendLine line =>
    obtain ⟨hanswer, hafter, hopen⟩ := append_succeeds ha hfree hroom hkey (hfits _ rfl) world
    refine ⟨fun _ => hanswer, ?_, hopen⟩
    intro b hb
    obtain rfl : (a.append world (Bytes.ofText line ++ [10])).2.1 = b := Option.some.inj hb
    exact hafter
  | close =>
    have hclosed : (a.close world).2.1.channel = none := by rw [close_channel]
    refine ⟨nofun, ?_, congrArg Option.isSome hclosed⟩
    intro b hb w hchannel
    obtain rfl : (a.close world).2.1 = b := Option.some.inj hb
    rw [hclosed] at hchannel
    cases hchannel
  | drop => exact ⟨nofun, nofun, rfl⟩

/-! ## Clients -/

/-- What an appender was asked, and what it answered. -/
structure Exchange (σ : Type) where
  asked : Appender σ
  request : Request
  answer : Except Error Unit

/-- The entry that was added, if there was one. -/
def Exchange.added {σ : Type} (x : Exchange σ) : List Bytes := if x.answer.isOk then x.request.entry?.toList else []

/-- The user of an appender: the appender unless it has been given up, the world, and what has been asked. -/
structure Client (σ : Type) where
  appender : Option (Appender σ)
  world : World σ
  exchanges : List (Exchange σ) := []

namespace Client

variable {σ : Type}

/-- Asks, unless the appender has been given up. -/
def ask (c : Client σ) (request : Request) : Client σ :=
  match c.appender with
  | none => c
  | some a =>
    let (answer, after, world) := a.perform c.world request
    { appender := after, world, exchanges := c.exchanges ++ [⟨a, request, answer⟩] }

/-- Asks one after the other. -/
def askAll (c : Client σ) (requests : List Request) : Client σ := requests.foldl ask c

/-- The entries that have been added. -/
def added (c : Client σ) : List Bytes := c.exchanges.flatMap Exchange.added

end Client

end EnvelopeLog.Appender
