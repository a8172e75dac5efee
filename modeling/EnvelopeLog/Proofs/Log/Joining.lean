import EnvelopeLog.Proofs.Delivery

/-!
# Logs one after the other

A log that opens ends where a frame ends, so what stands behind it is opened as if nothing stood before it, and the payloads
are joined (`decryptBytes_append_of_ok`). A frame that does not open and a length over the limit are found before the bytes end,
so what stands behind them changes nothing (`decryptBytes_append_of_final`). Bytes can be opened, or not, for faults of frames,
of wrapped keys and of payloads only (`decryptBytes_refusal`).
-/

namespace EnvelopeLog

/-! ## Induction over the frames of a log -/

/-- What holds of no bytes at all and of malformed bytes, and of a frame with more bytes behind it if it holds of those, holds of
all bytes. -/
theorem Frame.reading_induction (nonceLength limit : Nat) {P : Bytes → Prop} (ended : P [])
    (frame : ∀ (f : Frame) (rest : Bytes), f.Within nonceLength limit → f.Encodable → P rest → P (f.layout ++ rest))
    (malformed : ∀ b fault n, Malformed nonceLength limit b fault n → P b) (b : Bytes) : P b := by
  induction hlength : b.length using Nat.strong_induction_on generalizing b with
  | _ m ih =>
    rcases exists_reading nonceLength limit b with rfl | ⟨f, rest, hw, he, rfl⟩ | ⟨fault, n, hbad⟩
    · exact ended
    · have hpos := List.length_pos_iff.mpr f.layout_ne_nil
      rw [List.length_append] at hlength
      exact frame f rest hw he (ih rest.length (by omega) rest rfl)
    · exact malformed b fault n hbad

namespace Log

variable {k : Rsa.PrivateKey} {limit n : Nat} {a b payload : Bytes}

/-! ## What opening a byte string answers -/

/-- Every source that delivers the bytes opens to what they open to. -/
theorem decrypt_of_delivers {s : Source} (h : s.Delivers b none) : (decrypt k limit s).1 = decryptBytes k limit b := by
  obtain ⟨answer, n, hgives, -⟩ := follows_decrypt k limit b
  rw [(hgives.apply h).1]
  exact (congrArg Prod.fst (hgives.after 0)).symm

/-- A log without bytes has an empty payload. -/
theorem decryptBytes_nil (k : Rsa.PrivateKey) (limit : Nat) : decryptBytes k limit [] = .ok [] :=
  congrArg Prod.fst (gives_decrypt_end.after 0)

/-- The first frame decides, or what stands behind it. -/
theorem decryptBytes_layout {f : Frame} (hw : f.Within KeyMaterial.nonceSize limit) (he : f.Encodable) (rest : Bytes) :
    decryptBytes k limit (f.layout ++ rest) =
      match openFrame k f with
      | .error fault => .error (.library fault)
      | .ok first => (decryptBytes k limit rest).map (first ++ ·) := by
  cases hopen : openFrame k f with
  | error fault => exact congrArg Prod.fst ((gives_decrypt_refused hw he hopen rest none).after 0)
  | ok first =>
    obtain ⟨answer, n, hgives, -⟩ := follows_decrypt k limit rest
    have hrest : decryptBytes k limit rest = answer := congrArg Prod.fst (hgives.after 0)
    rw [hrest]
    exact congrArg Prod.fst ((gives_decrypt_opened hw he hopen hgives).after 0)

/-- A log that begins with a frame is decrypted exactly if the frame opens and the rest is decrypted. -/
theorem decryptBytes_layout_eq_ok_iff {f : Frame} (hw : f.Within KeyMaterial.nonceSize limit) (he : f.Encodable)
    {rest : Bytes} :
    decryptBytes k limit (f.layout ++ rest) = .ok payload ↔
      ∃ first others, openFrame k f = .ok first ∧ decryptBytes k limit rest = .ok others ∧ payload = first ++ others := by
  rw [decryptBytes_layout hw he]
  cases openFrame k f with
  | error fault => simp
  | ok first => cases decryptBytes k limit rest <;> simp [Except.map, eq_comm]

/-- A log that begins with a frame is refused exactly if the frame does not open, or else the rest is refused. -/
theorem decryptBytes_layout_eq_error_iff {f : Frame} (hw : f.Within KeyMaterial.nonceSize limit) (he : f.Encodable)
    {rest : Bytes} {e : Error} :
    decryptBytes k limit (f.layout ++ rest) = .error e ↔
      (∃ fault, openFrame k f = .error fault ∧ e = .library fault) ∨
        ∃ first, openFrame k f = .ok first ∧ decryptBytes k limit rest = .error e := by
  rw [decryptBytes_layout hw he]
  cases openFrame k f with
  | error fault => simp [eq_comm]
  | ok first => cases decryptBytes k limit rest <;> simp [Except.map]

/-- A log that begins with something bad is refused for that. -/
theorem decryptBytes_malformed {fault : FrameFault} (h : Frame.Malformed KeyMaterial.nonceSize limit b fault n) :
    decryptBytes k limit b = .error (.library (.framing (.cause fault))) :=
  congrArg Prod.fst ((gives_decrypt_error (Frame.gives_malformed h none)).after 0)

/-! ## Refusals -/

/-- Why bytes do not open: they are no frames, a wrapped key is not for the reader, or a payload is not authentic. -/
inductive Refusal : Error → Prop where
  | framing (fault : FrameFault) : Refusal (.library (.framing (.cause fault)))
  | keyMismatch (reason : Reason UnwrapFault) : Refusal (.library (.keyMismatch reason))
  | payloadAuthentication : Refusal (.library .payloadAuthentication)

/-- The refusals that do not wait for the end of the bytes: of a frame that is all there, and of a length over the limit. -/
inductive Final : Error → Prop where
  | overLimit (field : FrameField) (length limit : Nat) :
    Final (.library (.framing (.cause (.overLimit field length limit))))
  | keyMismatch (reason : Reason UnwrapFault) : Final (.library (.keyMismatch reason))
  | payloadAuthentication : Final (.library .payloadAuthentication)

/-- A frame does not open because of its wrapped key or because of its payload. -/
theorem refusal_of_openFrame {f : Frame} {fault : Fault} (h : openFrame k f = .error fault) :
    Final (.library fault) ∧ Refusal (.library fault) := by
  unfold openFrame at h
  split at h
  · cases h
    exact ⟨.keyMismatch _, .keyMismatch _⟩
  · split at h
    · cases h
      exact ⟨.keyMismatch _, .keyMismatch _⟩
    · dsimp only at h
      split at h <;> cases h
      exact ⟨.payloadAuthentication, .payloadAuthentication⟩

/-- Bytes do not open for one of three reasons only. -/
theorem decryptBytes_refusal {e : Error} (h : decryptBytes k limit b = .error e) : Refusal e := by
  induction b using Frame.reading_induction KeyMaterial.nonceSize limit with
  | ended =>
    rw [decryptBytes_nil] at h
    cases h
  | frame f rest hw he ih =>
    rcases (decryptBytes_layout_eq_error_iff hw he).mp h with ⟨fault, hopen, rfl⟩ | ⟨first, -, hrest⟩
    · exact (refusal_of_openFrame hopen).2
    · exact ih hrest
  | malformed b fault n hbad =>
    rw [decryptBytes_malformed hbad] at h
    cases h
    exact .framing fault

/-! ## Joining -/

/-- Behind a log that opens, more bytes open as they do alone. -/
theorem decryptBytes_append_of_ok (h : decryptBytes k limit a = .ok payload) (b : Bytes) :
    decryptBytes k limit (a ++ b) = (decryptBytes k limit b).map (payload ++ ·) := by
  induction a using Frame.reading_induction KeyMaterial.nonceSize limit generalizing payload with
  | ended =>
    rw [decryptBytes_nil] at h
    cases h
    rw [List.nil_append]
    cases decryptBytes k limit b <;> rfl
  | frame f rest hw he ih =>
    obtain ⟨first, others, hopen, hrest, rfl⟩ := (decryptBytes_layout_eq_ok_iff hw he).mp h
    rw [List.append_assoc, decryptBytes_layout hw he, hopen]
    dsimp only
    rw [ih hrest]
    cases decryptBytes k limit b with
    | error e => rfl
    | ok y => rw [Except.map, Except.map, Except.map, List.append_assoc]
  | malformed a fault n hbad =>
    rw [decryptBytes_malformed hbad] at h
    cases h

/-- What is refused before the bytes end is refused whatever comes after them. -/
theorem decryptBytes_append_of_final {e : Error} (h : decryptBytes k limit a = .error e) (hfinal : Final e) (b : Bytes) :
    decryptBytes k limit (a ++ b) = .error e := by
  induction a using Frame.reading_induction KeyMaterial.nonceSize limit with
  | ended =>
    rw [decryptBytes_nil] at h
    cases h
  | frame f rest hw he ih =>
    rw [List.append_assoc]
    refine (decryptBytes_layout_eq_error_iff hw he).mpr ?_
    rcases (decryptBytes_layout_eq_error_iff hw he).mp h with hfirst | ⟨first, hopen, hrest⟩
    · exact .inl hfirst
    · exact .inr ⟨first, hopen, ih hrest⟩
  | malformed a fault n hbad =>
    rw [decryptBytes_malformed hbad] at h
    cases h
    have htorn : fault.isTorn = false := by
      cases hfinal
      rfl
    exact decryptBytes_malformed (hbad.append htorn b)

/-- Opening byte strings put one after the other: behind one that opens the other decides, and the payloads are joined; one that
is refused for a frame that is all there, or for a length over the limit, is refused in the same way whatever stands behind it.
However bytes are delivered that end without a failure, what they open to follows from them alone, and they are refused for
faults of frames, of wrapped keys and of payloads only. -/
theorem decryptBytes_append (k : Rsa.PrivateKey) (limit : Nat) (a b : Bytes) :
    (∀ x, decryptBytes k limit a = .ok x →
      (∀ y, decryptBytes k limit b = .ok y → decryptBytes k limit (a ++ b) = .ok (x ++ y)) ∧
      (∀ e, decryptBytes k limit b = .error e → decryptBytes k limit (a ++ b) = .error e)) ∧
    (∀ e, decryptBytes k limit a = .error e → Final e → decryptBytes k limit (a ++ b) = .error e) ∧
    (∀ s : Source, s.mostPerRead ≠ some 0 → s.failure = none → s.unread = a →
      (decrypt k limit s).1 = decryptBytes k limit a ∧ ∀ e, (decrypt k limit s).1 = .error e → Refusal e) := by
  refine ⟨?_, ?_, ?_⟩
  · intro x hx
    constructor
    · intro y hy
      rw [decryptBytes_append_of_ok hx, hy]
      rfl
    · intro e he
      rw [decryptBytes_append_of_ok hx, he]
      rfl
  · intro e he hfinal
    exact decryptBytes_append_of_final he hfinal b
  · rintro s hmost hclear rfl
    have hsame : (decrypt k limit s).1 = decryptBytes k limit s.unread :=
      decrypt_of_delivers (.ending hmost rfl (by simp [hclear]))
    refine ⟨hsame, ?_⟩
    intro e he
    exact decryptBytes_refusal (hsame.symm.trans he)

end Log

end EnvelopeLog
