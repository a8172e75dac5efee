import EnvelopeLog.Log
import EnvelopeLog.Proofs.Envelope

/-!
# What opening a log finds

A log opens frame by frame. Frames of sealings within the limit open one after the other and leave the rest to be opened
(`gives_decrypt_layouts`), the first frame over the limit and every torn frame are faults of frames, and a log that opens at all is
made of the frames of sealings and of nothing else (`eq_layouts_of_decrypt`).
-/

namespace EnvelopeLog

/-! ## One step -/

namespace Log

open Source (Gives after)

variable {k : Rsa.PrivateKey} {limit n : Nat} {b : Bytes} {e : Option IoFault}

/-- Decrypting takes one frame off, opens it, and goes on with the rest. -/
theorem decrypt_eq (k : Rsa.PrivateKey) (limit : Nat) (s : Source) :
    decrypt k limit s = match (Frame.read KeyMaterial.nonceSize limit).run s with
      | (.error error, s') => (.error error, s')
      | (.ok none, s') => (.ok [], s')
      | (.ok (some f), s') =>
        match openFrame k f with
        | .error fault => (.error (.library fault), s')
        | .ok payload => ((decrypt k limit s').1.map (payload ++ ·), (decrypt k limit s').2) := by
  rw [decrypt]
  split <;> rename_i heq <;> rw [heq]
  rename_i f s'
  dsimp only
  cases openFrame k f with
  | error fault => rfl
  | ok payload => rcases decrypt k limit s' with ⟨error | rest, s''⟩ <;> rfl

/-- What the reader of frames refuses, the log does not open. -/
theorem gives_decrypt_error {error : Error}
    (h : Gives (Frame.read KeyMaterial.nonceSize limit).run b e (.error error) n) :
    Gives (decrypt k limit) b e (.error error) n := by
  refine h.last fun s s' hrun => ?_
  rw [decrypt_eq, hrun]

/-- A log without bytes has no payload. -/
theorem gives_decrypt_end : Gives (decrypt k limit) [] none (.ok []) 0 := by
  refine (Frame.gives_end KeyMaterial.nonceSize limit none).last fun s s' hrun => ?_
  rw [decrypt_eq, hrun]
  rfl

variable {f : Frame}

/-- A frame that does not open decides. -/
theorem gives_decrypt_refused (hw : f.Within KeyMaterial.nonceSize limit) (he : f.Encodable) {fault : Fault}
    (hopen : openFrame k f = .error fault) (rest : Bytes) (e : Option IoFault) :
    Gives (decrypt k limit) (f.layout ++ rest) e (.error (.library fault)) f.size := by
  refine (Frame.gives_layout hw he rest e).last fun s s' hrun => ?_
  rw [decrypt_eq, hrun]
  dsimp only
  rw [hopen]

/-- A frame that opens is followed by the rest of the log. -/
theorem gives_decrypt_opened (hw : f.Within KeyMaterial.nonceSize limit) (he : f.Encodable) {payload rest : Bytes}
    (hopen : openFrame k f = .ok payload) {answer : Except Error Bytes}
    (hrest : Gives (decrypt k limit) rest e answer n) :
    Gives (decrypt k limit) (f.layout ++ rest) e (answer.map (payload ++ ·)) (f.size + n) := by
  refine (Frame.gives_layout hw he rest e).seq f.layout_length hrest fun s s' s'' hrun hdecrypt => ?_
  rw [decrypt_eq, hrun]
  dsimp only
  rw [hopen, hdecrypt]

/-- A log that opens begins with a frame that opens, if it does not end at once. -/
theorem layout_of_decrypt {payload : Bytes} (h : (decrypt k limit (after n b)).1 = .ok payload) :
    (b = [] ∧ payload = []) ∨
      ∃ f first rest others, f.Within KeyMaterial.nonceSize limit ∧ f.Encodable ∧ openFrame k f = .ok first ∧
        b = f.layout ++ rest ∧ (decrypt k limit (after (n + f.size) rest)).1 = .ok others ∧
        payload = first ++ others := by
  rw [decrypt_eq] at h
  rcases Frame.exists_reading KeyMaterial.nonceSize limit b with rfl | ⟨f, rest, hw, he, rfl⟩ | ⟨fault, m, hbad⟩
  · rw [Frame.read_end] at h
    cases h
    exact .inl ⟨rfl, rfl⟩
  · rw [Frame.read_layout hw he] at h
    dsimp only at h
    cases hopen : openFrame k f with
    | error fault =>
      rw [hopen] at h
      cases h
    | ok first =>
      rw [hopen] at h
      cases hothers : (decrypt k limit (after (n + f.size) rest)).1 with
      | error error =>
        rw [hothers] at h
        cases h
      | ok others =>
        rw [hothers] at h
        cases h
        exact .inr ⟨f, first, rest, others, hw, he, hopen, rfl, hothers, rfl⟩
  · rw [Frame.read_malformed hbad] at h
    cases h

end Log

/-! ## Frames of sealings -/

namespace Sealing

/-- Whether a reader with a limit accepts the frame of a sealing for a recipient. -/
def Admitted (recipient : Rsa.PublicKey) (limit : Nat) (x : Sealing) : Prop :=
  recipient.size ≤ limit ∧ x.payload.length + Gcm.tagSize ≤ limit

instance (recipient : Rsa.PublicKey) (limit : Nat) (x : Sealing) : Decidable (x.Admitted recipient limit) :=
  inferInstanceAs (Decidable (_ ∧ _))

/-- A sealed frame is within the limit exactly if the limit admits the sealing. -/
theorem within_frame_iff {recipient : Rsa.PublicKey} {limit : Nat} {x : Sealing} :
    (x.frame recipient).Within KeyMaterial.nonceSize limit ↔ x.Admitted recipient limit := by
  constructor
  · rintro ⟨-, hkey, htext⟩
    exact ⟨by simpa using hkey, by simpa using htext⟩
  · rintro ⟨hkey, htext⟩
    exact ⟨by simp, by simpa using hkey, by simpa using htext⟩

/-- The bytes of the frames of sealings, one after the other. -/
def layouts (recipient : Rsa.PublicKey) (xs : List Sealing) : Bytes :=
  xs.flatMap fun x => (x.frame recipient).layout

/-- The payloads of sealings, one after the other. -/
def payloads (xs : List Sealing) : Bytes := xs.flatMap Sealing.payload

end Sealing

namespace Log

open Source (Gives after)

variable {k : Rsa.PrivateKey} {s : Rsa.Shortcut} {limit : Nat}

/-- Frames of sealings within the limit open one after the other. -/
theorem gives_decrypt_layouts (h : k.Sound s) (hprime : ∀ p ∈ k.primes, p.Prime) (hroom : k.Fits KeyMaterial.keySize)
    (xs : List Sealing) (he : ∀ x ∈ xs, (x.frame k.toPublicKey).Encodable)
    (hadmitted : ∀ x ∈ xs, x.Admitted k.toPublicKey limit) {rest : Bytes} {e : Option IoFault}
    {answer : Except Error Bytes} {n : Nat} (hrest : Gives (decrypt k limit) rest e answer n) :
    Gives (decrypt k limit) (Sealing.layouts k.toPublicKey xs ++ rest) e (answer.map (Sealing.payloads xs ++ ·))
      ((Sealing.layouts k.toPublicKey xs).length + n) := by
  induction xs with
  | nil =>
    have hsame : answer.map (Sealing.payloads [] ++ ·) = answer := by cases answer <;> rfl
    rw [hsame, Sealing.layouts, List.flatMap_nil, List.nil_append, List.length_nil, Nat.zero_add]
    exact hrest
  | cons x xs ih =>
    have hopen := (openFrame_eq_ok_iff h hprime).mpr ⟨hroom, x, rfl, rfl⟩
    have hw := Sealing.within_frame_iff.mpr (hadmitted x List.mem_cons_self)
    have hlater := ih (fun y hy => he y (List.mem_cons_of_mem x hy)) (fun y hy => hadmitted y (List.mem_cons_of_mem x hy))
    have hgives := gives_decrypt_opened hw (he x List.mem_cons_self) hopen hlater
    have hjoined : (answer.map (Sealing.payloads xs ++ ·)).map (x.payload ++ ·) =
        answer.map (Sealing.payloads (x :: xs) ++ ·) := by
      cases answer with
      | error _ => rfl
      | ok p => simp [Except.map, Sealing.payloads]
    rw [hjoined, ← List.append_assoc, ← Frame.layout_length, ← Nat.add_assoc, ← List.length_append] at hgives
    exact hgives

/-- The payloads that were sealed are given one behind the other, and everything is consumed. -/
theorem gives_decrypt_sealings (h : k.Sound s) (hprime : ∀ p ∈ k.primes, p.Prime) (hroom : k.Fits KeyMaterial.keySize)
    (xs : List Sealing) (he : ∀ x ∈ xs, (x.frame k.toPublicKey).Encodable)
    (hadmitted : ∀ x ∈ xs, x.Admitted k.toPublicKey limit) :
    Gives (decrypt k limit) (Sealing.layouts k.toPublicKey xs) none (.ok (Sealing.payloads xs))
      (Sealing.layouts k.toPublicKey xs).length := by
  have hgives := gives_decrypt_layouts h hprime hroom xs he hadmitted gives_decrypt_end
  have hanswer : (Except.ok [] : Except Error Bytes).map (Sealing.payloads xs ++ ·) = .ok (Sealing.payloads xs) := by
    rw [Except.map, List.append_nil]
  rwa [hanswer, List.append_nil] at hgives

/-- A log whose frames are all made of sealings within the limit opens to their payloads. -/
theorem decrypt_layouts (h : k.Sound s) (hprime : ∀ p ∈ k.primes, p.Prime) (hroom : k.Fits KeyMaterial.keySize)
    (xs : List Sealing) (he : ∀ x ∈ xs, (x.frame k.toPublicKey).Encodable)
    (hadmitted : ∀ x ∈ xs, x.Admitted k.toPublicKey limit) :
    decryptBytes k limit (Sealing.layouts k.toPublicKey xs) = .ok (Sealing.payloads xs) :=
  congrArg Prod.fst ((gives_decrypt_sealings h hprime hroom xs he hadmitted).after 0)

/-- A log that opens is made of the frames of sealings, and of nothing else. -/
theorem eq_layouts_of_decrypt (h : k.Sound s) {n : Nat} {b payload : Bytes}
    (hopen : (decrypt k limit (after n b)).1 = .ok payload) :
    ∃ xs : List Sealing, b = Sealing.layouts k.toPublicKey xs ∧ payload = Sealing.payloads xs ∧
      ∀ x ∈ xs, k.Fits KeyMaterial.keySize ∧ (x.frame k.toPublicKey).Encodable ∧
        x.Admitted k.toPublicKey limit := by
  induction hlen : b.length using Nat.strong_induction_on generalizing n b payload with
  | _ m ih =>
    rcases layout_of_decrypt hopen with ⟨rfl, rfl⟩ | ⟨f, first, rest, others, hw, he, hf, rfl, hothers, rfl⟩
    · exact ⟨[], rfl, rfl, by simp⟩
    · obtain ⟨hroom, x, rfl, rfl⟩ := eq_frame_of_openFrame h hf
      have hshort : rest.length < m := by
        rw [← hlen, List.length_append, Frame.layout_length, Frame.size, Frame.lengthSize]
        omega
      obtain ⟨xs, rfl, rfl, hxs⟩ := ih rest.length hshort hothers rfl
      refine ⟨x :: xs, by simp [Sealing.layouts], by simp [Sealing.payloads], fun y hy => ?_⟩
      rcases List.mem_cons.mp hy with rfl | hy
      · exact ⟨hroom, he, Sealing.within_frame_iff.mp hw⟩
      · exact hxs y hy

end Log

end EnvelopeLog
