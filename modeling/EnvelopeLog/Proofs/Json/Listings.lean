import EnvelopeLog.Proofs.Json.Numbers

/-!
# What is read of an object

An object is a list of members, each a name and a value as it is written, with blanks wherever they may stand (`IsObject`). If all
fields of a schema hold natural numbers, what is read of an object has for each field what the object has under its name: nothing if
there is no such member, and the number if there is one and the field takes its value (`readRecord_given`). If it is neither for some
field, nothing is read; else a record is (`exists_readRecord`). The order of the members and members of other names make no
difference.
-/

namespace EnvelopeLog.Json

/-- What is left of an object, from the first member on or behind another one: the names of the members in it, and how their values
are written. -/
inductive Listing : Bool → List (String × List Char) → List Char → Prop
  | close {first : Bool} {gap : List Char} (blank : Blank gap) : Listing first [] (gap ++ ['\x7d'])
  | entry {first : Bool} {name : String} {entries : List (String × List Char)}
      {gap before key between space value rest : List Char} (blank : Blank gap) (blankBefore : Blank before)
      (spelled : Spells key name.toList) (blankBetween : Blank between) (blankAfter : Blank space)
      (form : Form .value value) (listing : Listing false entries rest) :
      Listing first ((name, value) :: entries)
        (gap ++ (separator first ++ (before ++ ('"' :: (key ++ '"' :: (between ++ ':' :: (space ++ (value ++ rest))))))))

/-- Whether a text is an object with the given members. -/
inductive IsObject (entries : List (String × List Char)) : List Char → Prop
  | object {gap body tail : List Char} (blank : Blank gap) (listing : Listing true entries body)
      (blankAfter : Blank tail) : IsObject entries (gap ++ '\x7b' :: (body ++ tail))

/-- The values that an object has under a name. -/
def values (entries : List (String × List Char)) (name : String) : List (List Char) :=
  (entries.filter fun e => e.1 == name).map Prod.snd

/-- What a field has in a record whose object has the given values under its name. -/
inductive Kind.Given (kind : Kind) : List (List Char) → Option Datum → Prop
  | absent : Given kind [] none
  | once {d : Datum} {value : List Char} (takes : kind.Takes d) (written : Written d value) : Given kind [value] (some d)

/-- Whether all fields of a schema hold natural numbers. -/
def Schema.Numeric (schema : Schema) : Prop := ∀ field ∈ schema.fields, ∃ range bound, field.kind = .natural range bound

/-- The field of a name, if a schema has one. -/
def Schema.field? (schema : Schema) (name : String) : Option Field := schema.fields.find? fun f => f.name == name

section

variable {schema : Schema} {members done more : Members} {entries : List (String × List Char)} {first : Bool}
  {name other : String} {value text rest after : List Char} {field : Field}

@[simp] theorem values_cons_self : values ((name, value) :: entries) name = value :: values entries name := by
  simp [values]

theorem values_cons_of_ne (h : other ≠ name) : values ((other, value) :: entries) name = values entries name := by
  simp [values, h]

theorem Schema.name_of_field? (h : schema.field? name = some field) : field.name = name := by
  rw [Schema.field?] at h
  have hname := List.find?_some h
  exact beq_iff_eq.mp hname

theorem Schema.mem_of_field? (h : schema.field? name = some field) : field ∈ schema.fields := List.mem_of_find?_eq_some h

/-- What follows a member ends its value. -/
theorem Listing.ends (h : Listing false entries text) (rest : List Char) : Ends (text ++ rest) := by
  cases h with
  | close blank =>
    rw [List.append_assoc]
    exact ends_of_blank blank (ends_cons (.inr (.inr rfl)) rest)
  | entry blank =>
    rw [List.append_assoc]
    exact ends_of_blank blank (ends_cons (.inl rfl) _)

/-! ## One member -/

/-- A member is skipped if its name is not that of a field, and otherwise read as the value of the field, if it is the first one. -/
theorem readMember_eq {between : List Char} (hbetween : Blank between) (text : List Char) :
    readMember schema done name (between ++ ':' :: text) =
      match schema.field? name with
      | none =>
        match skipValue text with
        | .error e => .error e
        | .ok rest => .ok (done, rest)
      | some field =>
        if (done.lookup name).isSome then
          .error { problem := .duplicateField name, rest := settle (between ++ ':' :: text), ahead := 0 }
        else
          match readDatum field.kind text with
          | .error e => .error e
          | .ok (d, rest) => .ok (done ++ [(name, d)], rest) := by
  rw [readMember, readColon_of_blank hbetween]
  rfl

section

variable {between space : List Char} (hbetween : Blank between) (hspace : Blank space) (hvalue : Form .value value)
  (hrest : Ends rest)

include hbetween hspace hvalue hrest in
/-- What is added by a member is the value of a field that takes it. -/
theorem readMember_eq_ok (hnumeric : schema.Numeric)
    (h : readMember schema done name (between ++ ':' :: (space ++ (value ++ rest))) = .ok (more, after)) :
    after = rest ∧ (schema.field? name = none ∧ more = done ∨
      ∃ field d, schema.field? name = some field ∧ done.lookup name = none ∧ field.kind.Takes d ∧ Written d value ∧
        more = done ++ [(name, d)]) := by
  rw [readMember_eq hbetween] at h
  split at h
  · rename_i hunknown
    rw [skipValue_of_form hvalue hspace hrest] at h
    cases h
    exact ⟨rfl, .inl ⟨hunknown, rfl⟩⟩
  · rename_i field hfield
    split at h
    · cases h
    rename_i hnew
    split at h
    · cases h
    rename_i d left hread
    cases h
    obtain ⟨range, bound, hkind⟩ := hnumeric field (Schema.mem_of_field? hfield)
    rw [hkind] at hread
    obtain ⟨htakes, hwritten, hafter⟩ := readDatum_natural hspace hvalue hrest hread
    rw [Bool.not_eq_true, Option.isSome_eq_false_iff, Option.isNone_iff_eq_none] at hnew
    exact ⟨hafter, .inr ⟨field, d, hfield, hnew, hkind ▸ htakes, hwritten, rfl⟩⟩

include hbetween hspace hvalue hrest in

/-- A member that is no field is skipped. -/
theorem readMember_unknown (hunknown : schema.field? name = none) :
    readMember schema done name (between ++ ':' :: (space ++ (value ++ rest))) = .ok (done, rest) := by
  rw [readMember_eq hbetween, hunknown]
  dsimp only
  rw [skipValue_of_form hvalue hspace hrest]

include hbetween hspace hrest in

/-- A field that is new and holds what it takes is added. -/
theorem readMember_known (hfield : schema.field? name = some field) (hnew : done.lookup name = none) {d : Datum}
    (htakes : field.kind.Takes d) (hwritten : Written d value) :
    readMember schema done name (between ++ ':' :: (space ++ (value ++ rest))) = .ok (done ++ [(name, d)], rest) := by
  rw [readMember_eq hbetween, hfield]
  simp [hnew, readDatum_of_blank hspace, readDatum_of_written htakes hwritten hrest]

end

/-! ## All members -/

theorem lookup_append_self (h : done.lookup name = none) (d : Datum) : (done ++ [(name, d)]).lookup name = some d := by
  rw [List.lookup_append, h]
  simp

theorem lookup_append_of_ne (h : name ≠ other) (d : Datum) : (done ++ [(other, d)]).lookup name = done.lookup name := by
  rw [List.lookup_append]
  simp [List.lookup_cons, beq_false_of_ne h]

/-- The name of the next member is read, whatever its value is. -/
theorem Listing.readMembers_entry {gap before key : List Char} (hgap : Blank gap) (hbefore : Blank before)
    (hspelled : Spells key name.toList) (text : List Char) :
    readMembers schema done first (gap ++ (separator first ++ (before ++ ('"' :: (key ++ '"' :: text))))) =
      match readMember schema done name text with
      | .error e => .error e
      | .ok (more, rest) => readMembers schema more false rest := by
  have hmembers : readMembers schema done first _ = _ :=
    readMembers_of_key (nextKey_of_entry hgap hbefore) (readText_of_spells hspelled text)
  rw [String.ofList_toList] at hmembers
  exact hmembers

/-- What is read of the members that are left is what those have that were read before, and for each field for which these have none
what the members that are left have under its name. -/
theorem Listing.given (hnumeric : schema.Numeric) (h : Listing first entries text)
    (hread : readMembers schema done first (text ++ rest) = .ok (members, after)) :
    after = rest ∧ ∀ name field, schema.field? name = some field →
      values entries name = [] ∧ members.lookup name = done.lookup name ∨
        done.lookup name = none ∧ field.kind.Given (values entries name) (members.lookup name) := by
  induction h generalizing done with
  | close blank =>
    rw [List.append_assoc, List.singleton_append, readMembers_close blank, closeObject] at hread
    split at hread
    · cases hread
    · cases hread
      exact ⟨rfl, fun _ _ _ => .inl ⟨rfl, rfl⟩⟩
  | @entry first name entries gap before key between space value tail blank blankBefore spelled blankBetween blankAfter form
      listing ih =>
    simp only [List.append_assoc, List.cons_append] at hread
    rw [Listing.readMembers_entry blank blankBefore spelled] at hread
    split at hread
    · cases hread
    rename_i more left hmember
    obtain ⟨rfl, hmore⟩ := readMember_eq_ok blankBetween blankAfter form (listing.ends rest) hnumeric hmember
    obtain ⟨hafter, hgiven⟩ := ih hread
    refine ⟨hafter, fun other field hfield => ?_⟩
    rcases hmore with ⟨hunknown, rfl⟩ | ⟨known, d, hknown, hnew, htakes, hwritten, rfl⟩
    · have hne : name ≠ other := by
        rintro rfl
        rw [hunknown] at hfield
        cases hfield
      rw [values_cons_of_ne hne]
      exact hgiven other field hfield
    · by_cases hname : name = other
      · subst hname
        rw [hknown] at hfield
        cases hfield
        have hlast := hgiven name field hknown
        rw [lookup_append_self hnew] at hlast
        rcases hlast with ⟨hnone, hlookup⟩ | ⟨hnone, -⟩
        · rw [values_cons_self, hnone, hlookup]
          exact .inr ⟨hnew, .once htakes hwritten⟩
        · cases hnone
      · have hlast := hgiven other field hfield
        rw [lookup_append_of_ne (Ne.symm hname)] at hlast
        rwa [values_cons_of_ne hname]

/-- Members are read to the end if each field has at most one, with a value that it takes. -/
theorem Listing.exists_members (h : Listing first entries text)
    (hgiven : ∀ name field, schema.field? name = some field →
      values entries name = [] ∨ done.lookup name = none ∧ ∃ d, field.kind.Given (values entries name) (some d)) :
    ∃ members, readMembers schema done first (text ++ rest) = closeObject schema members rest := by
  induction h generalizing done with
  | close blank => exact ⟨done, by rw [List.append_assoc, List.singleton_append, readMembers_close blank]⟩
  | @entry first name entries gap before key between space value tail blank blankBefore spelled blankBetween blankAfter form
      listing ih =>
    simp only [List.append_assoc, List.cons_append]
    rw [Listing.readMembers_entry blank blankBefore spelled]
    cases hname : schema.field? name with
    | none =>
      rw [readMember_unknown blankBetween blankAfter form (listing.ends rest) hname]
      refine ih fun other field hfield => ?_
      have hne : name ≠ other := by
        rintro rfl
        rw [hname] at hfield
        cases hfield
      have hother := hgiven other field hfield
      rwa [values_cons_of_ne hne] at hother
    | some field =>
      have hfirst := hgiven name field hname
      rw [values_cons_self] at hfirst
      rcases hfirst with hnone | ⟨hnew, d, hvalue⟩
      · cases hnone
      generalize hvalues : values entries name = later at hvalue
      cases hvalue with
      | once takes written =>
        rw [readMember_known blankBetween blankAfter (listing.ends rest) hname hnew takes written]
        refine ih fun other field' hfield => ?_
        by_cases hother : name = other
        · subst hother
          exact .inl hvalues
        · have hlater := hgiven other field' hfield
          rw [values_cons_of_ne hother] at hlater
          rwa [lookup_append_of_ne (Ne.symm hother)]

/-! ## Records -/

/-- What is read of an object has for each field what the object has under its name. -/
theorem readRecord_given (hnumeric : schema.Numeric) (h : IsObject entries text)
    (hread : readRecord schema text = .ok members) (hfield : schema.field? name = some field) :
    field.kind.Given (values entries name) (members.lookup name) := by
  cases h with
  | @object gap body tail blank listing blankAfter =>
    rw [readRecord, skipBlanks_of_blank blank, skipBlanks_cons (by decide)] at hread
    split at hread
    · cases hread
    rename_i members' left hmembers
    have hgiven := (listing.given hnumeric hmembers).2 name field hfield
    split at hread
    · cases hread
      rcases hgiven with ⟨hnone, hlookup⟩ | ⟨-, hgiven⟩
      · rw [hnone, hlookup]
        exact .absent
      · exact hgiven
    · cases hread

/-- If each field has at most one member in an object, with a value that it takes, and none is mandatory, a record is read. -/
theorem exists_readRecord (hoptional : ∀ field ∈ schema.fields, field.mandatory = false) (h : IsObject entries text)
    (hgiven : ∀ name field, schema.field? name = some field → ∃ d, field.kind.Given (values entries name) d) :
    ∃ members, readRecord schema text = .ok members := by
  cases h with
  | @object gap body tail blank listing blankAfter =>
    obtain ⟨members, hmembers⟩ : ∃ members, readMembers schema [] true (body ++ tail) = closeObject schema members tail := by
      refine listing.exists_members fun name field hfield => ?_
      obtain ⟨d, hd⟩ := hgiven name field hfield
      generalize values entries name = found at hd
      cases hd with
      | absent => exact .inl rfl
      | once takes written => exact .inr ⟨rfl, _, .once takes written⟩
    have hcomplete : ∀ f ∈ schema.fields, f.mandatory → (members.lookup f.name).isSome := by
      intro f hf hmandatory
      rw [hoptional f hf] at hmandatory
      cases hmandatory
    have hend : skipBlanks tail = [] := by
      rw [← List.append_nil tail, skipBlanks_of_blank blankAfter]
      rfl
    refine ⟨members, ?_⟩
    rw [readRecord, skipBlanks_of_blank blank, skipBlanks_cons (by decide)]
    simp only [hmembers, closeObject_of_complete hcomplete, hend]

end

end EnvelopeLog.Json
