import EnvelopeLog.Proofs.KeyBlob.Export

/-!
# Blobs in any arrangement

The text of a blob has a member for each number that is there and none for one that is missing. Whoever puts the members in another
order, spells them with other escapes, or adds members of other names, has a text of the same blob (`parse_rearranged`): what is
looked up in members of different names does not depend on their order.
-/

namespace EnvelopeLog.KeyBlob

/-- The numbers that a blob may lack, by the names of their members. -/
def optionalFields (b : KeyBlob) : List (String × Option String) :=
  [("P", b.p), ("Q", b.q), ("DP", b.dp), ("DQ", b.dq), ("InverseQ", b.inverseQ), ("D", b.d)]

/-- A blob has private parts exactly if one of its optional fields is there. -/
theorem hasPrivateParts_eq (b : KeyBlob) : b.hasPrivateParts = b.optionalFields.any (·.2.isSome) := by
  simp only [hasPrivateParts, optionalFields, List.any_cons, List.any_nil, Bool.or_false]
  ac_rfl

/-- A blob has the mandatory members, and of the others those whose numbers are there. -/
theorem members_present (b : KeyBlob) :
    b.members.map Prod.fst = ["Modulus", "Exponent"] ++ (b.optionalFields.filter (·.2.isSome)).map Prod.fst := by
  have hpart (name : String) (value : Option String) :
      (optional name value).map Prod.fst = ([(name, value)].filter (·.2.isSome)).map Prod.fst := by
    cases value <;> rfl
  simp only [members, List.map_append, hpart, List.append_assoc]
  simp only [← List.map_append, ← List.filter_append]
  rfl

/-- A blob without private parts has no optional member. -/
theorem members_of_public {b : KeyBlob} (h : b.hasPrivateParts = false) :
    b.members.map Prod.fst = ["Modulus", "Exponent"] := by
  rw [hasPrivateParts_eq, List.any_eq_false] at h
  rw [members_present, List.filter_eq_nil_iff.mpr h]
  rfl

/-- In another order the members are those of the same blob. -/
theorem ofMembers_perm {members : Json.Members} {b : KeyBlob} (h : members.Perm b.members) : ofMembers members = b := by
  have hnodup := ((h.map Prod.fst).nodup_iff).mpr (fits_members b).nodup
  have htext (name : String) : text? members name = text? b.members name := by
    rw [text?, Json.lookup_perm h hnodup, text?]
  conv_rhs => rw [← ofMembers_members b]
  simp only [ofMembers, htext]

/-- The text of a blob holds the blob. It has a member for each number that is there and none for one that is missing, so that of a
blob without private parts has the modulus and the exponent only; and every text that holds these members, in whatever order, with
whatever escapes, and with members of other names among them, holds the blob. -/
theorem parse_rearranged (b : KeyBlob) :
    parse b.render = .ok b ∧
      (∀ known, b.members.map Prod.fst ⊆ known → Json.Holds known b.members b.render.toList) ∧
      b.members.map Prod.fst = ["Modulus", "Exponent"] ++ (b.optionalFields.filter (·.2.isSome)).map Prod.fst ∧
      (b.hasPrivateParts = false → b.members.map Prod.fst = ["Modulus", "Exponent"]) ∧
      ∀ members text, members.Perm b.members → Json.Holds names members text.toList → parse text = .ok b := by
  refine ⟨parse_render b, fun known hknown => ?_, members_present b, members_of_public, ?_⟩
  · exact Json.holds_pretty fun m hm => hknown (List.mem_map_of_mem hm)
  intro members text hperm hholds
  have hparse := parse_ofList (Json.readRecord_of_holds hholds ((fits_members b).perm hperm.symm))
  rwa [String.ofList_toList, ofMembers_perm hperm] at hparse

/-- Members in another order than they are written in, with blanks, with an escape and with a member of another name. -/
def rearrangedText : String :=
  "\x7b \"D\":\"\",\"use\":[\x7b\x7d,null],\"Exponent\" :\"AQAB\",\n\"Modulus\": \"\\u00e9\" \x7d"

/-- An arrangement that no printer would choose holds the blob too. -/
theorem parse_rearranged_sample :
    parse rearrangedText = .ok { modulus := "é", exponent := "AQAB", d := some "" } := by
  have hblank {c : Char} (hc : Json.isBlank c) : Json.Blank [c] := List.forall_mem_singleton.mpr hc
  have hobject : Json.Form .value ['\x7b', '\x7d'] := .bracket (b := .object) (.close Json.blank_nil)
  have hnull : Json.Form .value ['n', 'u', 'l', 'l'] := .word (by simp)
  have hlist := Json.Form.bracket (b := .list) (.entry Json.blank_nil Json.blank_nil .list Json.blank_nil hobject
    (.entry Json.blank_nil Json.blank_nil .list Json.blank_nil hnull (.close Json.blank_nil)))
  have hd := Json.Entry.known (Json.spells_printed "D".toList) (show "D" ∈ names by decide) Json.blank_nil Json.blank_nil
    (.text (s := "") .nil)
  have huse := Json.Entry.unknown (Json.spells_printed "use".toList) (show "use" ∉ names by decide) Json.blank_nil
    Json.blank_nil hlist
  have hexponent := Json.Entry.known (Json.spells_printed "Exponent".toList) (show "Exponent" ∈ names by decide)
    (hblank (c := ' ') rfl) Json.blank_nil (.text (s := "AQAB") (Json.spells_printed "AQAB".toList))
  have hmodulus := Json.Entry.known (Json.spells_printed "Modulus".toList) (show "Modulus" ∈ names by decide)
    Json.blank_nil (hblank (c := ' ') rfl) (.text (s := "é") (.number (Json.hex_printed (n := 0xe9) (by decide)) rfl rfl .nil))
  have hholds := Json.Holds.object Json.blank_nil (.entry Json.blank_nil (hblank (c := ' ') rfl) hd
    (.entry Json.blank_nil Json.blank_nil huse (.entry Json.blank_nil Json.blank_nil hexponent
      (.entry Json.blank_nil (hblank (c := '\n') rfl) hmodulus (.close (hblank (c := ' ') rfl)))))) Json.blank_nil
  exact (parse_rearranged { modulus := "é", exponent := "AQAB", d := some "" }).2.2.2.2 _ _ (by decide) hholds

end EnvelopeLog.KeyBlob
