import EnvelopeLog.Proofs.Appender.Entries
import EnvelopeLog.Proofs.Writer.LifeCycle
import EnvelopeLog.Proofs.Writer.Retry

/-!
# Appends that fail

An append whose sink fails leaves its entry in the writer, and the writer tries again by itself: the entry goes, in front of the
next one, into the frame of the next append that succeeds. What is sealed can be told from the answers alone (`Ledger`), up to a
last frame that nobody was told of: of entries that were still kept when the writer was poisoned or the appender closed. Whoever
asks again for an entry that was not added therefore adds it twice.
-/

namespace EnvelopeLog.Appender

open Session (Balanced Ready Whole)

variable {σ : Type}

/-- Whether what is appended is still written somewhere. -/
def canWrite (a : Appender σ) : Bool :=
  match a.channel with
  | some (.encrypting w) => w.canWrite
  | _ => false

/-! ## Ledgers -/

/-- What became of entries, as far as answers tell: the payloads of the frames, and what was appended since the last one. -/
structure Ledger where
  frames : List Bytes := []
  kept : Bytes := []

namespace Ledger

/-- An append that succeeds makes one frame of what was kept and of its entry, and one that fails keeps its entry too if the
writer took it. -/
def enter (l : Ledger) (x : Exchange σ) : Ledger :=
  match x.request.entry? with
  | none => l
  | some entry =>
    if x.answer.isOk then { frames := l.frames ++ segments (l.kept ++ entry) }
    else if x.asked.canWrite then { l with kept := l.kept ++ entry }
    else l

end Ledger

/-- What the writer took. -/
def Exchange.taken (x : Exchange σ) : Bytes :=
  if x.answer.isOk || x.asked.canWrite then x.request.entry?.getD [] else []

/-- What an exchange adds to the frames and to what is kept is what the writer took of its entry. -/
theorem Ledger.enter_flatten (l : Ledger) (x : Exchange σ) :
    (l.enter x).frames.flatten ++ (l.enter x).kept = l.frames.flatten ++ l.kept ++ x.taken := by
  unfold enter Exchange.taken
  cases x.request.entry? with
  | none => simp
  | some entry => cases x.answer.isOk <;> cases x.asked.canWrite <;> simp [flatten_segments]

/-- If the append did not fail and nothing is kept, its entry makes a frame of its own, unless it is empty. -/
theorem Ledger.enter_of_isOk (frames : List Bytes) {x : Exchange σ} (hok : x.request.entry?.isSome → x.answer.isOk) :
    Ledger.enter { frames } x = { frames := frames ++ x.added.flatMap segments } := by
  unfold enter Exchange.added
  cases hentry : x.request.entry? with
  | none => simp
  | some entry => simp [hok (by rw [hentry]; rfl)]

namespace Client

/-- The ledger of what has been asked and answered. -/
def ledger (c : Client σ) : Ledger := c.exchanges.foldl Ledger.enter {}

/-- Nothing is lost, doubled or reordered between the frames and what is kept. -/
theorem ledger_flatten (c : Client σ) : c.ledger.frames.flatten ++ c.ledger.kept = c.exchanges.flatMap Exchange.taken := by
  have hfold (l : Ledger) : (c.exchanges.foldl Ledger.enter l).frames.flatten ++ (c.exchanges.foldl Ledger.enter l).kept =
      l.frames.flatten ++ l.kept ++ c.exchanges.flatMap Exchange.taken := by
    induction c.exchanges generalizing l with
    | nil => simp
    | cons x exchanges ih => rw [List.foldl_cons, ih, l.enter_flatten, List.flatMap_cons, List.append_assoc]
  exact hfold {}

/-- If no append failed, there is a frame of every entry that is not empty. -/
theorem ledger_of_isOk {c : Client σ} (hok : ∀ x ∈ c.exchanges, x.request.entry?.isSome → x.answer.isOk) :
    c.ledger = { frames := c.added.filter (· ≠ []) } := by
  have hfold (frames : List Bytes) : c.exchanges.foldl Ledger.enter { frames } =
      { frames := frames ++ (c.exchanges.flatMap Exchange.added).flatMap segments } := by
    generalize c.exchanges = exchanges at hok
    induction exchanges generalizing frames with
    | nil => simp
    | cons x exchanges ih =>
      obtain ⟨hx, hothers⟩ := List.forall_mem_cons.mp hok
      rw [List.foldl_cons, Ledger.enter_of_isOk frames hx, ih _ hothers, List.flatMap_cons, List.flatMap_append,
        List.append_assoc]
  rw [← flatMap_segments]
  exact hfold []

end Client

/-! ## Ledgers and sessions -/

variable {S : Sink σ} {recipient : Rsa.PublicKey} {byte : Nat → UInt8} {l : Ledger} {s : Session σ} {a : Appender (Journal σ)}
  {world : World (Journal σ)}

/-- How a ledger fits the session of a writer: what is kept has not been put on the sink, or only a part of its frame, or it is in
a last frame that nobody was told of. -/
inductive Matches (recipient : Rsa.PublicKey) (byte : Nat → UInt8) (l : Ledger) (s : Session σ) : Prop
  | kept (segments : s.segments = l.frames) (held : s.discarded ++ s.writer.buffer = l.kept)
  | framed (segments : s.segments = l.frames ++ [l.kept]) (filled : l.kept ≠ []) (empty : s.writer.buffer = [])
      (whole : Whole recipient byte s)

namespace Matches

/-- A flush that nobody is told of may make the last frame. -/
theorem flush (h : Matches recipient byte l s) (hs : Balanced recipient byte s) : Matches recipient byte l (s.flush S).2 := by
  have hflush := s.flushing S
  generalize s.flush S = outcome at hflush ⊢
  cases h with
  | kept hsegments hheld =>
    cases hflush with
    | poisoned | idle | closed | unsealed | broken => exact .kept hsegments hheld
    | whole fault inner ready hseal attempt =>
      rw [hs.of_open ready.opened, List.nil_append] at hheld
      refine .framed ?_ (hheld ▸ ready.filled) rfl (hs.whole_emitted ready hseal attempt.taken_eq_all fault fault.isSome inner)
      rw [Session.emitted, hsegments, hheld]
  | framed hsegments hfilled hempty hwhole =>
    cases hflush with
    | poisoned | idle | closed => exact .framed hsegments hfilled hempty hwhole
    | unsealed ready | whole _ _ ready | broken _ ready => exact absurd hempty ready.filled

theorem shut (S : Sink σ) (h : Matches recipient byte l s) : Matches recipient byte l (s.shut S) := by
  cases h with
  | kept hsegments hheld => exact .kept hsegments (by rw [Session.shut, List.append_nil, hheld])
  | framed hsegments hfilled _ hwhole =>
    obtain ⟨encodings, hsealed, hreceived⟩ := hwhole
    exact .framed hsegments hfilled rfl ⟨encodings, hsealed, (s.received_shut S).trans hreceived⟩

end Matches

/-- A writer that can be written to takes everything. -/
theorem write_of_canWrite (hlive : s.writer.canWrite) (b : Bytes) :
    s.write b = (.ok b.length,
      { s with writer := { s.writer with buffer := s.writer.buffer ++ b }, accepted := s.accepted ++ b }) := by
  obtain ⟨hopen, hunpoisoned⟩ := (Session.canWrite_iff _).mp hlive
  rw [Session.write_eq]
  by_cases hb : b = []
  · rw [if_pos hb, hb, List.append_nil, List.append_nil]
    rfl
  · rw [if_neg hb, if_neg (by simp [hopen]), if_neg (by simp [hunpoisoned])]

/-- An entry that the writer takes is flushed with all that was kept, and made a frame, or kept too. -/
theorem matches_append (S : Sink σ) (hs : Balanced recipient byte s) (hlive : s.writer.canWrite)
    (hsegments : s.segments = l.frames) (hbuffer : s.writer.buffer = l.kept) (entry : Bytes) :
    let outcome := (s.write entry).2.flush S
    let after := if outcome.1.isOk then { frames := l.frames ++ segments (l.kept ++ entry) }
      else { l with kept := l.kept ++ entry }
    Matches recipient byte after outcome.2 ∧
      (outcome.2.writer.canWrite → outcome.2.segments = after.frames ∧ outcome.2.writer.buffer = after.kept) := by
  obtain ⟨hopen, hunpoisoned⟩ := (Session.canWrite_iff _).mp hlive
  have hwrite := hs.write entry
  have hwritten : (s.write entry).2.segments = l.frames ∧ (s.write entry).2.writer.buffer = l.kept ++ entry ∧
      (s.write entry).2.discarded = [] ∧ (s.write entry).2.writer.poisoned = false := by
    rw [write_of_canWrite hlive, ← hbuffer]
    exact ⟨hsegments, rfl, hs.of_open hopen, hunpoisoned⟩
  generalize (s.write entry).2 = t at hwrite hwritten ⊢
  obtain ⟨hsegments, hbuffer, hdiscarded, hunpoisoned⟩ := hwritten
  have hheld : t.discarded ++ t.writer.buffer = l.kept ++ entry := by rw [hdiscarded, hbuffer, List.nil_append]
  have hflush := t.flushing S
  generalize t.flush S = outcome at hflush ⊢
  cases hflush with
  | poisoned hpoisoned => exact absurd (hunpoisoned.symm.trans hpoisoned) Bool.false_ne_true
  | idle _ hempty =>
    have hnothing : l.kept ++ entry = [] := hbuffer.symm.trans hempty
    rw [hempty, hdiscarded] at hheld
    refine ⟨.kept ?_ ?_, fun _ => ⟨?_, hempty⟩⟩ <;> simp [Except.isOk, Except.toBool, segments, *]
  | closed hfilled hclosed =>
    refine ⟨.kept hsegments hheld, fun hcan => ?_⟩
    simp [Writer.canWrite, hclosed] at hcan
  | unsealed ready hseal => exact ⟨.kept hsegments hheld, fun _ => ⟨hsegments, hbuffer⟩⟩
  | whole fault inner ready hseal attempt =>
    have hfilled : l.kept ++ entry ≠ [] := hbuffer ▸ ready.filled
    have hwhole := hwrite.whole_emitted ready hseal attempt.taken_eq_all fault fault.isSome inner
    have hframes : t.segments ++ [t.writer.buffer] = l.frames ++ [l.kept ++ entry] := by rw [hsegments, hbuffer]
    cases fault with
    | none =>
      have hsegment : segments (l.kept ++ entry) = [l.kept ++ entry] := if_neg hfilled
      rw [← hsegment] at hframes
      exact ⟨.kept hframes (by rw [Session.emitted, hdiscarded]; rfl), fun _ => ⟨hframes, rfl⟩⟩
    | some fault =>
      refine ⟨.framed hframes hfilled rfl hwhole, fun hcan => ?_⟩
      simp [Writer.canWrite, Session.emitted] at hcan
  | broken inner ready hseal attempt => exact ⟨.kept hsegments hheld, fun _ => ⟨hsegments, hbuffer⟩⟩

/-! ## Appenders on sessions -/

/-- Whether an appender, unless it has been given up, writes to the writer of a session or is closed with it. -/
def Uses (S : Sink σ) (s : Session σ) : Option (Appender (Journal σ)) → Prop
  | none => s.writer.closed = true
  | some a => a.sink = S.journaled ∧ (a.channel = none ∧ s.writer.closed = true ∨
      a.channel = some (.encrypting s.writer) ∧ s.writer.closed = false)

/-- An appender can be written to exactly if the writer that it uses can. -/
theorem Uses.canWrite_eq (h : Uses S s (some a)) : a.canWrite = s.writer.canWrite := by
  obtain ⟨-, ⟨hchannel, hclosed⟩ | ⟨hchannel, -⟩⟩ := h
  · simp [canWrite, Writer.canWrite, hchannel, hclosed]
  · rw [canWrite, hchannel]

/-- An append writes to the session and flushes it. -/
theorem append_of_canWrite (hsink : a.sink = S.journaled) (hchannel : a.channel = some (.encrypting s.writer))
    (hlive : s.writer.canWrite) (entry : Bytes) :
    let outcome := (s.write entry).2.flush S
    (a.append s.world entry).1.isOk = outcome.1.isOk ∧ (a.append s.world entry).2.1.sink = S.journaled ∧
      (a.append s.world entry).2.1.channel = some (.encrypting outcome.2.writer) ∧
      (a.append s.world entry).2.2 = outcome.2.world := by
  have hall : (s.write entry).1 = .ok entry.length := congrArg Prod.fst (write_of_canWrite hlive entry)
  have hwrite : s.writer.write entry = (.ok entry.length, (s.write entry).2.writer) := Prod.ext hall rfl
  have hworld : (s.write entry).2.world = s.world := rfl
  simp only [append, hchannel, Channel.write, hwrite, Channel.flush, Session.flush, hsink, hworld, Session.track_writer,
    Session.track_world]
  rcases (s.write entry).2.writer.flush S.journaled s.world with ⟨e | b, w, after⟩ <;> exact ⟨rfl, rfl, rfl, rfl⟩

/-- A close flushes the session, and lets go of the writer as of one that is given up. -/
theorem close_session (hsink : a.sink = S.journaled) (hchannel : a.channel = some (.encrypting s.writer)) :
    a.close s.world =
      (((s.flush S).1.map fun _ => ()).mapError fun e => .io e.toIo, { a with channel := none },
        ((s.flush S).2.close S).2.world) := by
  rw [← Session.drop_eq]
  simp only [close, hchannel, Channel.flush, hsink, Session.flush, Session.track_writer, Session.track_world]
  rcases s.writer.flush S.journaled s.world with ⟨e | b, w, after⟩ <;> rfl

/-- A writer that can be written to takes an entry and is ready to be flushed. -/
theorem waited_write (hlive : s.writer.canWrite) {entry : Bytes} (hentry : entry ≠ []) :
    Ready (s.write entry).2.writer ∧ Session.Waited s (s.write entry).2 entry := by
  obtain ⟨hopen, hunpoisoned⟩ := (Session.canWrite_iff _).mp hlive
  rw [write_of_canWrite hlive]
  exact ⟨⟨hunpoisoned, by simp [hentry], hopen⟩, rfl, rfl, rfl, rfl⟩

/-- If the sink takes no byte of the frame, the append is refused, and its entry waits in the writer. -/
theorem append_refused (hsink : a.sink = S.journaled) (hchannel : a.channel = some (.encrypting s.writer))
    (hlive : s.writer.canWrite) {entry : Bytes} (hentry : entry ≠ [])
    (hfull : ∀ frame, (S.writeAll s.world.sink.inner frame).1 = 0) :
    (a.append s.world entry).1.isOk = false ∧ ∃ t, Session.Waited s t entry ∧ (a.append s.world entry).2.2 = t.world ∧
      (a.append s.world entry).2.1.sink = S.journaled ∧
      (a.append s.world entry).2.1.channel = some (.encrypting t.writer) := by
  obtain ⟨hok, hsink', hchannel', hworld⟩ := append_of_canWrite hsink hchannel hlive entry
  obtain ⟨hready, hwaited⟩ := waited_write hlive hentry
  obtain ⟨hfails, hunpoisoned⟩ := (Session.flush_fails_iff S hready).mpr fun frame _ => hfull frame
  have hstays : Session.Waited s ((s.write entry).2.flush S).2 (entry ++ []) :=
    hwaited.trans (Session.flush_waited hready hfails hunpoisoned)
  rw [List.append_nil] at hstays
  exact ⟨hok.trans hfails, _, hstays, hworld, hsink', hchannel'⟩

/-- If the frame can be put on the sink, the append succeeds, and the frame is of its entry and, in front of it, of all that
waited. -/
theorem append_accepted (hsink : a.sink = S.journaled) (hchannel : a.channel = some (.encrypting s.writer))
    (hlive : s.writer.canWrite) {entry : Bytes} (hentry : entry ≠ []) (hflushable : (s.write entry).2.Flushable S) :
    (a.append s.world entry).1.isOk = true ∧ ∃ frame,
      Sealed s.writer.recipient s.world.entropy.byte (s.writer.buffer ++ entry) frame ∧
      (a.append s.world entry).2.2.sink.received = s.received ++ frame := by
  obtain ⟨hok, -, -, hworld⟩ := append_of_canWrite hsink hchannel hlive entry
  obtain ⟨hready, hwaited⟩ := waited_write hlive hentry
  have hsucceeds := (Session.flush_isOk_iff S hready).mpr hflushable
  obtain ⟨-, frame, hsealed, hreceived, -, -⟩ := Session.flush_emits hready hsucceeds
  rw [hwaited.writer, hwaited.byte] at hsealed
  refine ⟨hok.trans hsucceeds, frame, hsealed, ?_⟩
  rw [hworld, ← hwaited.received]
  exact hreceived

/-- A poisoned writer takes nothing. -/
theorem append_of_poisoned {a : Appender σ} {w : Writer} (hchannel : a.channel = some (.encrypting w)) (hopen : w.closed = false)
    (hpoisoned : w.poisoned = true) (world : World σ) (entry : Bytes) :
    ∃ e, a.append world entry = (.error e, a, world) := by
  have hsame : { a with channel := some (.encrypting w) } = a := by rw [← hchannel]
  rw [append, hchannel]
  by_cases hentry : entry = []
  · refine ⟨.io (Error.io Writer.poisonedFault).toIo, ?_⟩
    simp only [Channel.write, Writer.write, if_pos hentry, Channel.flush, Writer.flush, hpoisoned, if_true, hsame]
  · refine ⟨.io Writer.poisonedFault, ?_⟩
    simp only [Channel.write, Writer.write, if_neg hentry, hopen, hpoisoned, Bool.false_eq_true, if_false, if_true, hsame]

/-! ## What is known after any number of requests -/

/-- What is known of a ledger, an appender unless it has been given up, and the world, in terms of a session. -/
structure Settled (S : Sink σ) (recipient : Rsa.PublicKey) (byte : Nat → UInt8) (l : Ledger) (o : Option (Appender (Journal σ)))
    (world : World (Journal σ)) (s : Session σ) : Prop where
  balanced : Balanced recipient byte s
  world_eq : s.world = world
  uses : Uses S s o
  fits : Matches recipient byte l s
  live : s.writer.canWrite → s.segments = l.frames ∧ s.writer.buffer = l.kept

namespace Settled

/-- An append enters the ledger as it was answered. -/
theorem append (h : Settled S recipient byte l (some a) world s) {request : Request} {entry : Bytes}
    (hentry : request.entry? = some entry) :
    ∃ t, Settled S recipient byte (l.enter ⟨a, request, (a.append world entry).1⟩) (some (a.append world entry).2.1)
      (a.append world entry).2.2 t := by
  obtain ⟨hsink, hchannel⟩ := id h.uses
  obtain rfl := h.world_eq
  by_cases hlive : s.writer.canWrite
  · have hopen : a.channel = some (.encrypting s.writer) := by
      rcases hchannel with ⟨-, hclosed⟩ | ⟨hopen, -⟩
      · simp [Writer.canWrite, hclosed] at hlive
      · exact hopen
    obtain ⟨hok, hsink', hchannel', hworld⟩ := append_of_canWrite hsink hopen hlive entry
    obtain ⟨hsegments, hbuffer⟩ := h.live hlive
    obtain ⟨hfits, hstays⟩ := matches_append S h.balanced hlive hsegments hbuffer entry
    have hafter : l.enter ⟨a, request, (a.append s.world entry).1⟩ =
        if ((s.write entry).2.flush S).1.isOk then { frames := l.frames ++ segments (l.kept ++ entry) }
        else { l with kept := l.kept ++ entry } := by
      simp only [Ledger.enter, hentry, hok, h.uses.canWrite_eq, hlive, if_true]
    rw [hafter]
    have hclosed : ((s.write entry).2.flush S).2.writer.closed = false := by
      rw [((s.write entry).2.flush_writer S).1, write_of_canWrite hlive]
      exact ((Session.canWrite_iff _).mp hlive).1
    exact ⟨_, (h.balanced.write entry).flush S, hworld.symm, ⟨hsink', .inr ⟨hchannel', hclosed⟩⟩, hfits, hstays⟩
  · have hrefuses : ∃ e, a.append s.world entry = (.error e, a, s.world) := by
      rcases hchannel with ⟨hnone, -⟩ | ⟨hopen, hclosed⟩
      · exact ⟨_, append_of_closed hnone s.world entry⟩
      · exact append_of_poisoned hopen hclosed (by simpa [Writer.canWrite, hclosed] using hlive) s.world entry
    obtain ⟨e, hanswer⟩ := hrefuses
    have hsame : l.enter ⟨a, request, .error e⟩ = l := by
      simp [Ledger.enter, hentry, h.uses.canWrite_eq, hlive, Except.isOk, Except.toBool]
    rw [hanswer, hsame]
    exact ⟨s, h⟩

/-- A close flushes and lets go of the channel, which flushes again. -/
theorem close (h : Settled S recipient byte l (some a) world s) :
    ∃ t, Settled S recipient byte l (some (a.close world).2.1) (a.close world).2.2 t ∧ t.writer.closed = true := by
  obtain ⟨hsink, hchannel⟩ := id h.uses
  obtain rfl := h.world_eq
  have hafter : (a.close s.world).2.1 = { a with channel := none } := close_channel a s.world
  rcases hchannel with ⟨hnone, hclosed⟩ | ⟨hopen, hclosed⟩
  · have hanswer : a.close s.world = (.ok (), a, s.world) := by rw [Appender.close, hnone]
    rw [hanswer]
    exact ⟨s, h, hclosed⟩
  · have hflushed : (s.flush S).2.writer.closed = false := (s.flush_writer S).1.trans hclosed
    have hshut := (s.flush S).2.close_of_open S hflushed
    have hworld : (a.close s.world).2.2 = ((s.flush S).2.close S).2.world := by rw [close_session hsink hopen]
    have hbalanced := (h.balanced.flush S).flush S
    have hstill : ((s.flush S).2.flush S).2.writer.closed = false := ((s.flush S).2.flush_writer S).1.trans hflushed
    refine ⟨(((s.flush S).2.flush S).2).shut S, ⟨hbalanced.shut S hstill, ?_, ?_, ?_, ?_⟩, rfl⟩
    · rw [hworld, hshut]
    · rw [hafter]
      exact ⟨hsink, .inl ⟨rfl, rfl⟩⟩
    · exact ((h.fits.flush h.balanced).flush (h.balanced.flush S)).shut S
    · intro hcan
      simp [Writer.canWrite, Session.shut] at hcan

/-- Whatever is asked of the appender enters the ledger as it was answered. -/
theorem perform (h : Settled S recipient byte l (some a) world s) (request : Request) :
    ∃ t, Settled S recipient byte (l.enter ⟨a, request, (a.perform world request).1⟩) (a.perform world request).2.1
      (a.perform world request).2.2 t := by
  cases request with
  | append entry => exact h.append rfl
  | appendLine line => exact h.append rfl
  | close =>
    obtain ⟨t, ht, -⟩ := h.close
    exact ⟨t, ht⟩
  | drop =>
    obtain ⟨t, ht, hclosed⟩ := h.close
    exact ⟨t, { ht with uses := hclosed }⟩

/-- A new appender has written nothing. -/
theorem start (S : Sink σ) (path : String) (recipient : Rsa.PublicKey) (inner : σ) (entropy : Entropy) :
    Settled S recipient entropy.byte {} (some { path, sink := S.journaled, channel := some (.encrypting { recipient }) })
      { sink := { inner }, entropy } (.start recipient inner entropy) where
  balanced := .start recipient inner entropy
  world_eq := rfl
  uses := ⟨rfl, .inr ⟨rfl, rfl⟩⟩
  fits := .kept rfl rfl
  live _ := ⟨rfl, rfl⟩

end Settled

/-! ## Clients on a sink that may fail -/

/-- A client asks for something, or someone else changes the sink. -/
inductive Turn (σ : Type) where
  | ask (request : Request)
  | change (f : σ → σ)

namespace Client

variable {c : Client (Journal σ)}

def turn (c : Client (Journal σ)) : Turn σ → Client (Journal σ)
  | .ask request => c.ask request
  | .change f => { c with world := { c.world with sink := { c.world.sink with inner := f c.world.sink.inner } } }

def run (c : Client (Journal σ)) (turns : List (Turn σ)) : Client (Journal σ) := turns.foldl turn c

theorem ask_append {c : Client σ} {a : Appender σ} (ha : c.appender = some a) (entry : Bytes) :
    c.ask (.append entry) =
      { appender := some (a.append c.world entry).2.1
        world := (a.append c.world entry).2.2
        exchanges := c.exchanges ++ [⟨a, .append entry, (a.append c.world entry).1⟩] } := by
  rw [ask, ha]
  rfl

/-- Whatever the user does next, the ledger tells what became of the entries. -/
theorem settled_turn (h : Settled S recipient byte c.ledger c.appender c.world s) (x : Turn σ) :
    ∃ t, Settled S recipient byte (c.turn x).ledger (c.turn x).appender (c.turn x).world t := by
  cases x with
  | ask request =>
    rw [turn, ask]
    cases ha : c.appender with
    | none =>
      dsimp only
      exact ⟨s, h⟩
    | some a =>
      rw [ha] at h
      obtain ⟨t, ht⟩ := h.perform request
      refine ⟨t, ?_⟩
      rw [ledger, List.foldl_append, ← ledger]
      exact ht
  | change f =>
    have hworld : (s.change f).world = (c.turn (.change f)).world := by rw [Session.change, turn, h.world_eq]
    refine ⟨s.change f, { h.balanced with }, hworld, h.uses, ?_, h.live⟩
    cases h.fits with
    | kept hsegments hheld => exact .kept hsegments hheld
    | framed hsegments hfilled hempty hwhole => exact .framed hsegments hfilled hempty hwhole

/-- Whatever the user does, the ledger tells what became of the entries. -/
theorem settled_run (h : Settled S recipient byte c.ledger c.appender c.world s) (turns : List (Turn σ)) :
    ∃ t, Settled S recipient byte (c.run turns).ledger (c.run turns).appender (c.run turns).world t := by
  induction turns generalizing c s with
  | nil => exact ⟨s, h⟩
  | cons x turns ih =>
    obtain ⟨t, ht⟩ := settled_turn h x
    exact ih ht

/-- Whether what is appended is still written somewhere. -/
def canWrite (c : Client σ) : Bool := c.appender.any Appender.canWrite

/-- While the client can write, the sink holds the frames that the ledger tells of, and what is kept is in the writer. Later it
may hold one more frame, of what was kept, or a part of it. -/
theorem exists_received (h : Settled S recipient byte c.ledger c.appender c.world s) :
    ∃ last encodings tail, List.Forall₂ (Sealed recipient byte) (c.ledger.frames ++ last) encodings ∧
      c.world.sink.received = encodings.flatten ++ tail ∧
      (last = [] ∨ last = [c.ledger.kept] ∧ c.ledger.kept ≠ [] ∧ c.canWrite = false) ∧
      (tail = [] ∨ last = [] ∧ Torn recipient byte c.ledger.kept tail ∧ c.canWrite = false) := by
  have hcan : c.canWrite = true → s.writer.canWrite := by
    intro hcan
    rw [canWrite, Option.any_eq_true] at hcan
    obtain ⟨a, ha, hcan⟩ := hcan
    have huses := h.uses
    rw [ha] at huses
    rwa [← huses.canWrite_eq]
  have hreceived : c.world.sink.received = s.received := by rw [Session.received, h.world_eq]
  rw [hreceived]
  cases h.fits with
  | kept hsegments hheld =>
    obtain ⟨encodings, tail, hsealed, heq, htail⟩ := h.balanced.received
    rw [hsegments] at hsealed
    rw [hheld] at htail
    refine ⟨[], encodings, tail, by rwa [List.append_nil], heq, .inl rfl, ?_⟩
    rcases htail with hnone | ⟨hpoisoned, htorn⟩
    · exact .inl hnone
    · refine .inr ⟨rfl, htorn, ?_⟩
      rw [← Bool.not_eq_true]
      intro hwrites
      exact absurd (((Session.canWrite_iff _).mp (hcan hwrites)).2.symm.trans hpoisoned) Bool.false_ne_true
  | framed hsegments hfilled hempty hwhole =>
    obtain ⟨encodings, hsealed, heq⟩ := hwhole
    rw [hsegments] at hsealed
    refine ⟨[c.ledger.kept], encodings, [], hsealed, by rw [heq, List.append_nil], .inr ⟨rfl, hfilled, ?_⟩, .inl rfl⟩
    rw [← Bool.not_eq_true]
    intro hwrites
    exact hfilled ((h.live (hcan hwrites)).2.symm.trans hempty)

/-- What is kept waits in the writer. -/
theorem buffer_eq_kept (h : Settled S recipient byte c.ledger c.appender c.world s) {a : Appender (Journal σ)} {w : Writer}
    (ha : c.appender = some a) (hchannel : a.channel = some (.encrypting w)) (hlive : w.canWrite) :
    w.buffer = c.ledger.kept := by
  have huses := h.uses
  rw [ha] at huses
  obtain ⟨-, ⟨hnone, -⟩ | ⟨hopen, -⟩⟩ := huses
  · rw [hchannel] at hnone
    cases hnone
  · rw [hchannel] at hopen
    cases hopen
    exact (h.live hlive).2

end Client

/-- However the sink of a new appender fails, and whatever is asked, what the sink holds can be told from the answers, up to a
last frame: for every append that was answered well a frame of its entry and, in front of it, of the entries that were taken and
refused since the one before, unless all of these are empty. What was taken and refused after the last of them is in the writer as
long as that can write; after that it is in one last frame, in a part of one, or lost. Nothing that was taken is doubled or
reordered, and if no append was refused, there is one frame of every entry that is not empty. -/
theorem run_ledger (S : Sink σ) (path : String) (recipient : Rsa.PublicKey) (inner : σ) (entropy : Entropy)
    (turns : List (Turn σ)) :
    ∃ a opened, onSink S.journaled path (Hook.encrypting recipient) { sink := { inner }, entropy } = (.ok a, opened) ∧
      let c := (Client.mk (some a) opened []).run turns
      (∃ last encodings tail, List.Forall₂ (Sealed recipient entropy.byte) (c.ledger.frames ++ last) encodings ∧
        c.world.sink.received = encodings.flatten ++ tail ∧
        (last = [] ∨ last = [c.ledger.kept] ∧ c.ledger.kept ≠ [] ∧ c.canWrite = false) ∧
        (tail = [] ∨ last = [] ∧ Torn recipient entropy.byte c.ledger.kept tail ∧ c.canWrite = false)) ∧
      (∀ b w, c.appender = some b → b.channel = some (.encrypting w) → w.canWrite → w.buffer = c.ledger.kept) ∧
      c.ledger.frames.flatten ++ c.ledger.kept = c.exchanges.flatMap Exchange.taken ∧
      ((∀ x ∈ c.exchanges, x.request.entry?.isSome → x.answer.isOk) → c.ledger = { frames := c.added.filter (· ≠ []) }) := by
  refine ⟨_, _, rfl, ?_⟩
  intro c
  have hstart := Settled.start S path recipient inner entropy
  obtain ⟨s, hsettled⟩ := Client.settled_run (c := Client.mk (some _) _ []) hstart turns
  exact ⟨Client.exists_received hsettled, fun _ _ => Client.buffer_eq_kept hsettled, c.ledger_flatten, Client.ledger_of_isOk⟩

/-- An append is refused, the sink is changed, and the same append is tried again and succeeds: the frame holds the entry twice. -/
theorem Client.append_again {c : Client (Journal σ)} (ha : c.appender = some a) (hworld : c.world = s.world)
    (hsink : a.sink = S.journaled) (hchannel : a.channel = some (.encrypting s.writer)) (hlive : s.writer.canWrite)
    {entry : Bytes} (hentry : entry ≠ []) (hfull : ∀ frame, (S.writeAll s.world.sink.inner frame).1 = 0) {f : σ → σ}
    (hflushable : ∀ t : Session σ, t.writer = { s.writer with buffer := s.writer.buffer ++ entry ++ entry } →
      (∃ inner, t.world.sink.inner = f inner) → t.Flushable S) :
    let d := c.run [.ask (.append entry), .change f, .ask (.append entry)]
    (∃ x y, d.exchanges = c.exchanges ++ [x, y] ∧ x.request = .append entry ∧ x.answer.isOk = false ∧
      y.request = .append entry ∧ y.answer.isOk = true) ∧
    ∃ frame, Sealed s.writer.recipient s.world.entropy.byte (s.writer.buffer ++ entry ++ entry) frame ∧
      d.world.sink.received = s.received ++ frame := by
  obtain ⟨hrefused, t, hwaited, hafter, hsink', hchannel'⟩ := append_refused hsink hchannel hlive hentry hfull
  simp only [run, List.foldl_cons, List.foldl_nil, turn]
  rw [ask_append ha, hworld, hafter]
  generalize a.append s.world entry = outcome at hrefused hsink' hchannel' ⊢
  obtain ⟨answer, b, after⟩ := outcome
  have hwriter : (t.change f).writer = { s.writer with buffer := s.writer.buffer ++ entry } := hwaited.writer
  have hstill : (t.change f).writer.canWrite := by rw [hwriter]; exact hlive
  have hwritten := waited_write hstill hentry
  have hready : ((t.change f).write entry).2.Flushable S := by
    refine hflushable _ ?_ ⟨t.world.sink.inner, rfl⟩
    rw [hwritten.2.writer, hwriter]
  obtain ⟨haccepted, frame, hsealed, hreceived⟩ :=
    append_accepted (s := t.change f) hsink' hchannel' hstill hentry hready
  rw [ask_append rfl]
  refine ⟨⟨_, _, List.append_assoc _ _ _, rfl, hrefused, rfl, haccepted⟩, frame, ?_, ?_⟩
  · rw [hwriter] at hsealed
    have hbyte : (t.change f).world.entropy.byte = s.world.entropy.byte := hwaited.byte
    rwa [hbyte] at hsealed
  · rw [← hwaited.received]
    exact hreceived

/-- The same frames open to one payload. -/
theorem Sample.flatten_eq {byte : Nat → UInt8} {payloads others encodings frames : List Bytes}
    (hsealed : List.Forall₂ (Sealed Sample.key.toPublicKey byte) payloads encodings)
    (hothers : List.Forall₂ (Sealed Sample.key.toPublicKey byte) others frames) (heq : encodings.flatten = frames.flatten)
    (hpayloads : ∀ p ∈ payloads, p.length + Gcm.tagSize ≤ 100) (hlengths : ∀ p ∈ others, p.length + Gcm.tagSize ≤ 100) :
    payloads.flatten = others.flatten := by
  obtain ⟨shortcut, hsound⟩ := Rsa.PrivateKey.sound_of_ofText Sample.ofText_text
  have hsize := Sample.size_key.le
  have hopens := Log.gives_decrypt_sealed hsound Sample.prime_of_mem hsealed hsize hpayloads
  have hopens' := Log.gives_decrypt_sealed hsound Sample.prime_of_mem hothers hsize hlengths
  rw [← heq] at hopens'
  exact Except.ok.inj ((congrArg Prod.fst (hopens.after 0)).symm.trans (congrArg Prod.fst (hopens'.after 0)))

/-- A sink takes no byte, an append fails, the sink is given room, and the same append is tried again: one of the two succeeded,
and the frame that is on the sink holds the entry twice. -/
theorem run_logs_twice :
    let inner : Script := { budget := some 0 }
    let key := Sample.key.toPublicKey
    ∃ a opened, onSink Script.sink.journaled "log" (Hook.encrypting key) { sink := { inner }, entropy := .cycle [7] } =
        (.ok a, opened) ∧
      let c := (Client.mk (some a) opened []).run [.ask (.append [1]), .change fun _ => {}, .ask (.append [1])]
      c.exchanges.map (·.answer.isOk) = [false, true] ∧ c.added = [[1]] ∧
      Sealed key (Entropy.cycle [7]).byte [1, 1] c.world.sink.received ∧
      ¬∃ encodings, List.Forall₂ (Sealed key (Entropy.cycle [7]).byte) (c.added.filter (· ≠ [])) encodings ∧
        c.world.sink.received = encodings.flatten := by
  intro inner key
  have hflushable (t : Session Script) (hwriter : t.writer = { recipient := key, buffer := [1, 1] })
      (hinner : ∃ old : Script, t.world.sink.inner = (fun _ => {}) old) : t.Flushable Script.sink := by
    obtain ⟨frame, entropy, hseal⟩ := t.writer.sealBuffer_succeeds (by rw [hwriter]; exact Sample.fits_key)
      (by rw [hwriter]; exact Sample.size_key_lt)
      (by rw [hwriter]; decide) t.world.entropy
    obtain ⟨old, hroom⟩ := hinner
    refine ⟨frame, congrArg Prod.fst hseal, ?_⟩
    rw [hroom, Script.writeAll_unplanned]
    exact ⟨rfl, rfl⟩
  let a : Appender (Journal Script) := ⟨"log", Script.sink.journaled, some (.encrypting { recipient := key }), 0⟩
  let s : Session Script := .start key inner (.cycle [7])
  have hagain := Client.append_again (a := a) (c := ⟨some a, s.world, []⟩) (s := s) rfl rfl rfl rfl rfl (List.cons_ne_nil 1 [])
    (fun frame => Script.writeAll_full rfl frame) hflushable
  refine ⟨a, s.world, rfl, ?_⟩
  dsimp only at hagain ⊢
  generalize Client.run _ _ = c at hagain ⊢
  obtain ⟨⟨x, y, hexchanges, hx, hrefused, hy, haccepted⟩, frame, hsealed, hreceived⟩ := hagain
  obtain rfl : c.world.sink.received = frame := hreceived
  rw [List.nil_append] at hexchanges
  have hadded : c.added = [[1]] := by
    simp [Client.added, hexchanges, Exchange.added, hrefused, haccepted, hy, Request.entry?]
  refine ⟨by simp [hexchanges, hrefused, haccepted], hadded, hsealed, ?_⟩
  rintro ⟨encodings, hencodings, hheld⟩
  rw [hadded] at hencodings
  rw [← List.append_nil c.world.sink.received] at hheld
  have htwice := Sample.flatten_eq hencodings (.cons hsealed .nil) hheld.symm (by decide) (by decide)
  exact absurd htwice (by decide)

end EnvelopeLog.Appender
