import EnvelopeLog.Source
import Mathlib.Data.List.Infix

/-!
# What a source delivers

A source that makes progress delivers some bytes and then ends or fails (`exists_delivers`). What collecting answers and how
far it moves on follows from these bytes and that ending (`Delivers.collect`): neither the size of the reads nor the
interruptions nor the requests of the loop count.
-/

namespace EnvelopeLog.Source

/-! ## The size of a read -/

theorem foldl_min_le_of_mem {x : Nat} {l : List Nat} (h : x ∈ l) (a : Nat) : l.foldl min a ≤ x := by
  induction l generalizing a with
  | nil => cases h
  | cons y l ih =>
    rcases List.mem_cons.mp h with rfl | h
    · exact Nat.le_trans (foldl_min_le _ l) (Nat.min_le_right a x)
    · exact ih h (min a y)

theorem lt_foldl_min {n a : Nat} {l : List Nat} (ha : n < a) (hl : ∀ x ∈ l, n < x) : n < l.foldl min a := by
  induction l generalizing a with
  | nil => exact ha
  | cons y l ih =>
    obtain ⟨hy, hl⟩ := List.forall_mem_cons.mp hl
    exact ih (Nat.lt_min.mpr ⟨ha, hy⟩) hl

/-- A read that asks for something may return something. -/
theorem allowance_pos {s : Source} {wanted : Nat} (hmost : s.mostPerRead ≠ some 0) (hwanted : 0 < wanted) :
    0 < s.allowance wanted := by
  unfold allowance
  refine lt_foldl_min ?_ ?_
  · split
    · rename_i most hm
      have : most ≠ 0 := fun h => hmost (h ▸ hm)
      omega
    · exact hwanted
  · intro x hx
    obtain ⟨stop, hstop, rfl⟩ := List.mem_map.mp hx
    have := of_decide_eq_true (List.mem_filter.mp hstop).2
    omega

/-- A read stops short before a failure. -/
theorem allowance_le_failure {s : Source} {wanted position : Nat} {fault : IoFault}
    (hfailure : s.failure = some (position, fault)) (hahead : s.position < position) :
    s.allowance wanted ≤ position - s.position := by
  unfold allowance
  refine foldl_min_le_of_mem (List.mem_map.mpr ⟨position, ?_, rfl⟩) _
  rw [List.mem_filter, hfailure]
  exact ⟨by simp, by simpa using hahead⟩

/-! ## Moving on -/

/-- What is left of a source when `n` bytes were read: the same data from there on, and no new interruption. -/
structure Moved (s : Source) (n : Nat) (s' : Source) : Prop where
  unread : s'.unread = s.unread.drop n
  position : s'.position = s.position + n
  failure : s'.failure = s.failure
  mostPerRead : s'.mostPerRead = s.mostPerRead
  interrupts : s'.interrupts.Sublist s.interrupts

theorem Moved.refl (s : Source) : s.Moved 0 s := ⟨rfl, rfl, rfl, rfl, List.Sublist.refl _⟩

theorem Moved.trans {s s' s'' : Source} {n m : Nat} (h : s.Moved n s') (h' : s'.Moved m s'') : s.Moved (n + m) s'' where
  unread := by rw [h'.unread, h.unread, List.drop_drop]
  position := by rw [h'.position, h.position, Nat.add_assoc]
  failure := h'.failure.trans h.failure
  mostPerRead := h'.mostPerRead.trans h.mostPerRead
  interrupts := h'.interrupts.trans h.interrupts

/-! ## Bytes and what comes after them -/

/-- The bytes that a source which makes progress has before its failure, or before its end if no failure comes before that;
the fault of a read past the bytes is given, if it is not the end. -/
inductive Delivers (s : Source) (b : Bytes) : Option IoFault → Prop where
  | ending (most : s.mostPerRead ≠ some 0) (unread : s.unread = b)
      (clear : ∀ position fault, s.failure = some (position, fault) →
        position < s.position ∨ s.position + b.length < position) : Delivers s b none
  | failing {fault : IoFault} (most : s.mostPerRead ≠ some 0) (unread : b <+: s.unread)
      (failure : s.failure = some (s.position + b.length, fault)) : Delivers s b (some fault)

namespace Delivers

variable {s s' t : Source} {b : Bytes} {e : Option IoFault}

theorem most (h : s.Delivers b e) : s.mostPerRead ≠ some 0 := by
  cases h <;> assumption

/-- The rest is delivered when the first bytes were read. -/
theorem moved {n : Nat} (h : s.Delivers b e) (hm : s.Moved n s') (hn : n ≤ b.length) : s'.Delivers (b.drop n) e := by
  have hmost : s'.mostPerRead ≠ some 0 := hm.mostPerRead ▸ h.most
  cases h with
  | ending _ hunread hclear =>
    refine .ending hmost (by rw [hm.unread, hunread]) fun position fault hfailure => ?_
    rw [hm.failure] at hfailure
    rw [hm.position, List.length_drop]
    have := hclear position fault hfailure
    omega
  | failing _ hunread hfailure =>
    refine .failing hmost ?_ ?_
    · rw [hm.unread]
      exact List.IsPrefix.drop hunread n
    · rw [hm.failure, hm.position, hfailure, List.length_drop]
      congr 2
      omega

end Delivers

/-- A source over the same data, whatever the manner of its delivery. -/
structure Alike (s t : Source) : Prop where
  unread : t.unread = s.unread
  position : t.position = s.position
  failure : t.failure = s.failure

namespace Alike

variable {s s' t t' : Source}

/-- Sources over the same data deliver the same. -/
theorem delivers {b : Bytes} {e : Option IoFault} (h : s.Alike t) (hs : s.Delivers b e) (ht : t.mostPerRead ≠ some 0) :
    t.Delivers b e := by
  cases hs with
  | ending _ hunread hclear =>
    refine .ending ht (h.unread.trans hunread) ?_
    rw [h.failure, h.position]
    exact hclear
  | failing _ hunread hfailure =>
    refine .failing ht (h.unread ▸ hunread) ?_
    rw [h.failure, h.position]
    exact hfailure

/-- Sources over the same data are still such when as many bytes of each were read. -/
theorem moved {n : Nat} (h : s.Alike t) (hs : s.Moved n s') (ht : t.Moved n t') : s'.Alike t' where
  unread := by rw [hs.unread, ht.unread, h.unread]
  position := by rw [hs.position, ht.position, h.position]
  failure := by rw [hs.failure, ht.failure, h.failure]

end Alike

/-- A source that fails within its bytes or right after them delivers the bytes before the failure. -/
theorem delivers_of_failure {s : Source} {position : Nat} {fault : IoFault} (h : s.mostPerRead ≠ some 0)
    (hfailure : s.failure = some (position, fault)) (hfrom : s.position ≤ position)
    (hto : position ≤ s.position + s.unread.length) :
    s.Delivers (s.unread.take (position - s.position)) (some fault) := by
  refine .failing h (List.take_prefix _ _) ?_
  rw [hfailure, List.length_take, Nat.min_eq_left (by omega), Nat.add_sub_cancel' hfrom]

/-- A source that makes progress delivers some bytes and then ends or fails. -/
theorem exists_delivers {s : Source} (h : s.mostPerRead ≠ some 0) : ∃ b e, s.Delivers b e := by
  by_cases hmet : ∃ position fault, s.failure = some (position, fault) ∧
      s.position ≤ position ∧ position ≤ s.position + s.unread.length
  · obtain ⟨position, fault, hfailure, hfrom, hto⟩ := hmet
    exact ⟨_, _, delivers_of_failure h hfailure hfrom hto⟩
  · refine ⟨s.unread, none, .ending h rfl fun position fault hfailure => ?_⟩
    by_contra hnot
    exact hmet ⟨position, fault, hfailure, by omega, by omega⟩

/-! ## One read -/

/-- An interrupted read moves on by nothing. -/
theorem moved_of_read_interrupted {s s' : Source} {wanted : Nat} (h : s.read wanted = (.interrupted, s')) :
    s.Moved 0 s' := by
  unfold read at h
  split at h
  · cases h
    exact ⟨rfl, rfl, rfl, rfl, List.erase_sublist⟩
  · dsimp only at h
    split at h
    · split at h <;> cases h
    · cases h

/-- A read that is not interrupted meets the failure, or it returns what it may. -/
theorem read_of_not_mem {s : Source} (h : s.position ∉ s.interrupts) (wanted : Nat) :
    (∃ fault, s.failure = some (s.position, fault) ∧ s.read wanted = (.failed fault, s)) ∨
      (∀ fault, s.failure ≠ some (s.position, fault)) ∧
        ∃ s', s.read wanted = (.bytes (s.unread.take (s.allowance wanted)), s') ∧
          s.Moved (s.unread.take (s.allowance wanted)).length s' := by
  unfold read
  rw [if_neg h]
  dsimp only
  split
  · rename_i position fault hfailure
    by_cases hmet : position = s.position
    · subst hmet
      exact .inl ⟨fault, hfailure, by rw [if_pos rfl]⟩
    · rw [if_neg hmet]
      refine .inr ⟨fun other hother => ?_, _, rfl, rfl, rfl, rfl, rfl, List.Sublist.refl _⟩
      rw [hfailure] at hother
      cases hother
      exact hmet rfl
  · rename_i hfailure
    refine .inr ⟨fun other hother => ?_, _, rfl, rfl, rfl, rfl, rfl, List.Sublist.refl _⟩
    rw [hfailure] at hother
    cases hother

namespace Delivers

variable {s s' : Source} {b c : Bytes} {e : Option IoFault} {wanted : Nat}

/-- Where bytes are read, no interruption is pending. -/
theorem not_mem_of_read_bytes (h : s.read wanted = (.bytes c, s')) : s.position ∉ s.interrupts := by
  intro hmem
  rw [read, if_pos hmem] at h
  cases h

/-- Where reading fails for good, no interruption is pending. -/
theorem not_mem_of_read_failed {fault : IoFault} (h : s.read wanted = (.failed fault, s')) :
    s.position ∉ s.interrupts := by
  intro hmem
  rw [read, if_pos hmem] at h
  cases h

/-- A read may return no more than is there before the failure. -/
theorem take_allowance (h : s.Delivers b e) (hfree : ∀ fault, s.failure ≠ some (s.position, fault)) (wanted : Nat) :
    s.unread.take (s.allowance wanted) = b.take (s.allowance wanted) := by
  cases h with
  | ending _ hunread => rw [hunread]
  | failing _ hunread hfailure =>
    have hahead : s.position < s.position + b.length := by
      by_contra hnot
      have hzero : s.position + b.length = s.position := by omega
      rw [hzero] at hfailure
      exact hfree _ hfailure
    have hle : s.allowance wanted ≤ s.position + b.length - s.position := allowance_le_failure hfailure hahead
    obtain ⟨more, hmore⟩ := hunread
    rw [← hmore, List.take_append_of_le_length (by omega)]

/-- A read returns the first bytes, and none only at the end. -/
theorem read_bytes (h : s.Delivers b e) (hwanted : 0 < wanted) (hr : s.read wanted = (.bytes c, s')) :
    c = b.take c.length ∧ c.length ≤ b.length ∧ s.Moved c.length s' ∧ (c = [] → b = [] ∧ e = none) := by
  rcases read_of_not_mem (not_mem_of_read_bytes hr) wanted with
    ⟨fault, -, hfailed⟩ | ⟨hfree, s₁, hread, hmoved⟩
  · rw [hr] at hfailed
    cases hfailed
  · rw [hr, Prod.mk.injEq, ReadReply.bytes.injEq] at hread
    obtain ⟨hc, rfl⟩ := hread
    rw [← hc] at hmoved
    rw [h.take_allowance hfree] at hc
    have htake : c = b.take c.length := by rw [hc, List.length_take, ← List.take_eq_take_min]
    refine ⟨htake, by rw [hc]; exact List.length_take_le' _ _, hmoved, fun hnil => ?_⟩
    have hb : b = [] := by
      have hpos := allowance_pos h.most hwanted
      rw [hnil, eq_comm, List.take_eq_nil_iff] at hc
      exact hc.resolve_left (by omega)
    subst hb
    cases h with
    | ending => exact ⟨rfl, rfl⟩
    | failing _ _ hfailure => exact absurd hfailure (hfree _)

/-- A read fails only past the last byte, with the fault that stands there. -/
theorem read_failed {fault : IoFault} (h : s.Delivers b e) (hr : s.read wanted = (.failed fault, s')) :
    b = [] ∧ e = some fault ∧ s' = s := by
  rcases read_of_not_mem (not_mem_of_read_failed hr) wanted with
    ⟨fault', hfailure, hfailed⟩ | ⟨-, s₁, hread, -⟩
  · rw [hr] at hfailed
    cases hfailed
    cases h with
    | ending _ _ hclear =>
      have := hclear _ _ hfailure
      omega
    | failing _ _ hfailure' =>
      rw [hfailure, Option.some.injEq, Prod.mk.injEq] at hfailure'
      obtain ⟨hlength, rfl⟩ := hfailure'
      exact ⟨List.eq_nil_of_length_eq_zero (by omega), rfl, rfl⟩
  · rw [hr] at hread
    cases hread

end Delivers

/-! ## Collecting -/

/-- What collecting answers: the bytes wanted, or all there are before the end; before a failure there must be enough. -/
def collected (b : Bytes) (wanted : Nat) : Option IoFault → Except IoFault Bytes
  | none => .ok (b.take wanted)
  | some fault => if wanted ≤ b.length then .ok (b.take wanted) else .error fault

theorem collected_zero (b : Bytes) (e : Option IoFault) : collected b 0 e = .ok [] := by
  cases e <;> simp [collected]

/-- What is collected is the first bytes of it and what is collected after them. -/
theorem collected_drop {b : Bytes} {n wanted : Nat} (hn : n ≤ b.length) (hwanted : n ≤ wanted) (e : Option IoFault) :
    collected b wanted e = (collected (b.drop n) (wanted - n) e).map (b.take n ++ ·) := by
  have htake : b.take wanted = b.take n ++ (b.drop n).take (wanted - n) := by
    rw [← List.take_add, Nat.add_sub_cancel' hwanted]
  cases e with
  | none => rw [collected, collected, htake]; rfl
  | some fault =>
    rw [collected, collected, htake, List.length_drop]
    by_cases henough : wanted ≤ b.length
    · rw [if_pos henough, if_pos (by omega)]; rfl
    · rw [if_neg henough, if_neg (by omega)]; rfl

/-- A read and the collecting of what is then missing move on together. -/
theorem Moved.collecting {s s' s'' : Source} {b : Bytes} {n wanted : Nat} (h : s.Moved n s') (hn : n ≤ b.length)
    (hwanted : n ≤ wanted) (hrest : s'.Moved (min (wanted - n) (b.drop n).length) s'') :
    s.Moved (min wanted b.length) s'' := by
  have hmin : n + min (wanted - n) (b.drop n).length = min wanted b.length := by
    rw [List.length_drop]
    omega
  exact hmin ▸ h.trans hrest

/-- Collecting answers what the bytes and the ending say, and moves on to the end of what was wanted or of the bytes. -/
theorem Delivers.collect {s : Source} {b : Bytes} {e : Option IoFault} (h : s.Delivers b e) (r : Requests) (wanted : Nat) :
    ∃ s', s.collect r wanted = (collected b wanted e, s') ∧ s.Moved (min wanted b.length) s' := by
  fun_induction Source.collect r s wanted generalizing b with
  | case1 s =>
    rw [collected_zero, Nat.zero_min]
    exact ⟨s, rfl, .refl s⟩
  | case2 s wanted hwanted s₁ hr =>
    obtain ⟨-, -, hmoved, hend⟩ := h.read_bytes (r.pos _ (by omega)) hr
    obtain ⟨rfl, rfl⟩ := hend rfl
    exact ⟨s₁, by simp [collected], by simpa using hmoved⟩
  | case3 s wanted hwanted x xs s₁ hr more s₂ hm ih =>
    obtain ⟨htake, hn, hmoved, -⟩ := h.read_bytes (r.pos _ (by omega)) hr
    have hle := Nat.le_trans (Source.read_bytes hr).1 (r.le wanted)
    obtain ⟨s₃, hcollect, hrest⟩ := ih (h.moved hmoved hn)
    rw [hm, Prod.mk.injEq] at hcollect
    obtain ⟨hmore, rfl⟩ := hcollect
    exact ⟨s₂, by rw [collected_drop hn hle, ← hmore, ← htake]; rfl, hmoved.collecting hn hle hrest⟩
  | case4 s wanted hwanted x xs s₁ hr fault s₂ hm ih =>
    obtain ⟨-, hn, hmoved, -⟩ := h.read_bytes (r.pos _ (by omega)) hr
    have hle := Nat.le_trans (Source.read_bytes hr).1 (r.le wanted)
    obtain ⟨s₃, hcollect, hrest⟩ := ih (h.moved hmoved hn)
    rw [hm, Prod.mk.injEq] at hcollect
    obtain ⟨hmore, rfl⟩ := hcollect
    exact ⟨s₂, by rw [collected_drop hn hle, ← hmore]; rfl, hmoved.collecting hn hle hrest⟩
  | case5 s wanted hwanted s₁ hr ih =>
    have hmoved := moved_of_read_interrupted hr
    obtain ⟨s₂, hcollect, hrest⟩ := ih (h.moved hmoved (Nat.zero_le _))
    exact ⟨s₂, hcollect, by simpa using hmoved.trans hrest⟩
  | case6 s wanted hwanted fault s₁ hr =>
    obtain ⟨rfl, rfl, rfl⟩ := h.read_failed hr
    rw [collected, if_neg (by simpa using hwanted)]
    exact ⟨s₁, rfl, by simpa using Moved.refl s₁⟩

/-! ## Uses that do not depend on the manner of delivery -/

/-- Every source that delivers the bytes and then ends or fails as told gives the same answer and moves on by `n` bytes. -/
structure Gives {α : Type} (use : Source → α × Source) (b : Bytes) (e : Option IoFault) (answer : α) (n : Nat) : Prop where
  le : n ≤ b.length
  run : ∀ s : Source, s.Delivers b e → ∃ s', use s = (answer, s') ∧ s.Moved n s'

namespace Gives

variable {α β γ : Type} {first : Source → α × Source} {second : Source → β × Source} {use : Source → γ × Source}
  {b c : Bytes} {e : Option IoFault} {x : α} {y : β} {answer : γ} {n m : Nat}

/-- What a use gives for some bytes and an end, it gives for every source that delivers them. -/
theorem apply {s : Source} (h : Gives use b e answer n) (hs : s.Delivers b e) :
    (use s).1 = answer ∧ s.Moved n (use s).2 := by
  obtain ⟨s', huse, hmoved⟩ := h.run s hs
  rw [huse]
  exact ⟨rfl, hmoved⟩

/-- A use that ends where another one does. -/
theorem last (h : Gives first b e x n) (huse : ∀ s s', first s = (x, s') → use s = (answer, s')) :
    Gives use b e answer n := by
  refine ⟨h.le, fun s hs => ?_⟩
  obtain ⟨s', hfirst, hmoved⟩ := h.run s hs
  exact ⟨s', huse s s' hfirst, hmoved⟩

/-- A use that goes on where another one stopped. -/
theorem seq (h : Gives first (c ++ b) e x n) (hlength : c.length = n) (hrest : Gives second b e y m)
    (huse : ∀ s s' s'', first s = (x, s') → second s' = (y, s'') → use s = (answer, s'')) :
    Gives use (c ++ b) e answer (n + m) := by
  subst hlength
  refine ⟨?_, fun s hs => ?_⟩
  · rw [List.length_append]
    exact Nat.add_le_add_left hrest.le _
  · obtain ⟨s', hfirst, hmoved⟩ := h.run s hs
    have hleft := hs.moved hmoved h.le
    rw [List.drop_left] at hleft
    obtain ⟨s'', hsecond, hmoved'⟩ := hrest.run s' hleft
    exact ⟨s'', huse s s' s'' hfirst hsecond, hmoved.trans hmoved'⟩

end Gives

/-- Collecting gives the same for every way of asking. -/
theorem gives_collect (r : Requests) (b : Bytes) (e : Option IoFault) (wanted : Nat) :
    Gives (fun s => s.collect r wanted) b e (collected b wanted e) (min wanted b.length) :=
  ⟨Nat.min_le_right _ _, fun _ h => h.collect r wanted⟩

/-! ## Delivery without interruption -/

/-- The source that delivers the rest of a byte string without interruption, `n` bytes having been read. -/
def after (n : Nat) (b : Bytes) : Source := { unread := b, position := n }

/-- A source in memory delivers what is left of it and does not fail. -/
theorem after_delivers (n : Nat) (b : Bytes) : (after n b).Delivers b none := .ending nofun rfl nofun

/-- Moving on in memory leads to the source with less of it left. -/
theorem Moved.eq_after {n m : Nat} {b : Bytes} {s : Source} (h : (after n b).Moved m s) : s = after (n + m) (b.drop m) := by
  obtain ⟨hunread, hposition, hfailure, hmost, hinterrupts⟩ := h
  cases s
  simp only [after, List.sublist_nil] at *
  subst hunread hposition hfailure hmost hinterrupts
  rfl

/-- A use of a source in memory gives its answer and leaves the rest. -/
theorem Gives.after {α : Type} {use : Source → α × Source} {b : Bytes} {answer : α} {n : Nat}
    (h : Gives use b none answer n) (m : Nat) : use (after m b) = (answer, after (m + n) (b.drop n)) := by
  obtain ⟨s', huse, hmoved⟩ := h.run _ (after_delivers m b)
  rw [huse, hmoved.eq_after]

end EnvelopeLog.Source
