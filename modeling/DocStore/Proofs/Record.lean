import Mathlib.Data.List.Nodup
import DocStore.Proofs.Fields
import DocStore.Proofs.Json.WellFormed
import DocStore.Record
/-!
# The layout of a record

A record as it is laid out, seen through look-ups: its id, the caller's fields and the reserved
ones. Both layouts hold the same entries, so nothing that looks fields up tells them apart.

* `get?_assemble`, `id?_assemble`, `userFields_assemble`: what is found in a new record.
* `get?_reservedLast`, `reservedLast_perm`: moving the reserved fields to the end changes no look-up
  and only the order of the fields.
* `forall_append`, `forall_set`, `forall_eraseIdx`: what holds of all records of a list, after one of
  them changes.
-/

namespace DocStore.Record

-- ---------------------------------------------------------------------------
-- The caller's fields
-- ---------------------------------------------------------------------------

/-- Among the caller's fields, a name that is not reserved is found as in the record. -/
theorem get?_userFields {name : String} (h : isReserved name = false) (r : Record) :
    Fields.get? (userFields r) name = Fields.get? r name :=
  Fields.get?_filter_of_pos (p := fun name => !isReserved name) (by rw [h]; rfl) r

/-- No reserved name is found among the caller's fields. -/
theorem get?_userFields_reserved {name : String} (h : isReserved name = true) (r : Record) :
    Fields.get? (userFields r) name = none :=
  Fields.get?_filter_of_neg (p := fun name => !isReserved name) (by rw [h]; rfl) r

/-- Leaving the reserved fields out repeats no name. -/
theorem distinct_userFields {r : Record} (h : Fields.Distinct r) :
    Fields.Distinct (userFields r) :=
  Fields.distinct_filter h _

/-- The caller's fields of a JSON object are one. -/
theorem wellFormed_userFields {r : Record} (h : Json.WellFormed (.object r)) :
    Json.WellFormed (.object (userFields r)) := by
  rw [Json.wellFormed_object] at h ⊢
  exact ⟨distinct_userFields h.1, fun e he => h.2 e (List.mem_filter.mp he).1⟩

theorem userFields_append (a b : Record) : userFields (a ++ b) = userFields a ++ userFields b :=
  List.filter_append ..

/-- Leaving the reserved fields out a second time changes nothing. -/
theorem userFields_userFields (r : Record) : userFields (userFields r) = userFields r := by
  rw [userFields, userFields, List.filter_filter]
  simp only [Bool.and_self]

/-- Without reserved fields, all fields are the caller's. -/
theorem userFields_of_not_reserved {r : Record} (h : ∀ e ∈ r, isReserved e.1 = false) :
    userFields r = r := by
  rw [userFields, List.filter_eq_self]
  intro e he
  rw [h e he]
  rfl

theorem not_reserved_of_mem_userFields {r : Record} {e : String × Json} (h : e ∈ userFields r) :
    isReserved e.1 = false := by
  have := (List.mem_filter.mp h).2
  rwa [Bool.not_eq_true'] at this

/-- A reserved field is none of the caller's. -/
theorem userFields_optionalField {name : String} (h : isReserved name = true) (v : Option Json) :
    userFields (optionalField name v) = [] := by
  cases v with
  | none => rfl
  | some v => simp [optionalField, userFields, h]

/-- A field that may be absent is found under its name as far as it is there. -/
theorem get?_optionalField_self (name : String) (v : Option Json) :
    Fields.get? (optionalField name v) name = v := by
  cases v with
  | none => rfl
  | some v => exact Fields.get?_cons_self ..

theorem get?_optionalField_of_ne {name other : String} (h : name ≠ other) (v : Option Json) :
    Fields.get? (optionalField other v) name = none := by
  cases v with
  | none => rfl
  | some v => exact Fields.get?_cons_of_ne h ..

/-- A field that may be absent has its own name and value. -/
theorem mem_optionalField {name : String} {v : Option Json} {e : String × Json}
    (h : e ∈ optionalField name v) : e.1 = name ∧ v = some e.2 := by
  cases v with
  | none => simp [optionalField] at h
  | some v =>
    rw [optionalField, List.mem_singleton] at h
    rw [h]
    exact ⟨rfl, rfl⟩

/-- A record with an id has it as a string in its id field. -/
theorem get?_of_id? {r : Record} {id : String} (h : id? r = some id) :
    Fields.get? r idField = some (.string id) := by
  rw [id?, Option.bind_eq_some_iff] at h
  obtain ⟨v, hv, hid⟩ := h
  cases v with
  | string s => rw [hv, Option.some.inj hid]
  | _ => cases hid

/-- Reserved fields beside a caller's fields. -/
theorem distinct_userFields_append {r reserved : Record} (h : Fields.Distinct r)
    (hd : Fields.Distinct reserved) (hreserved : ∀ e ∈ reserved, isReserved e.1 = true) :
    Fields.Distinct (userFields r ++ reserved) := by
  unfold Fields.Distinct Fields.names
  rw [List.map_append, List.nodup_append]
  refine ⟨distinct_userFields h, hd, ?_⟩
  intro a ha b hb heq
  obtain ⟨e, he, rfl⟩ := List.mem_map.mp ha
  obtain ⟨f, hf, rfl⟩ := List.mem_map.mp hb
  -- one name on both sides would be reserved and not reserved
  have huser := not_reserved_of_mem_userFields he
  rw [heq, hreserved f hf] at huser
  exact absurd huser (by decide)

-- ---------------------------------------------------------------------------
-- New and merged records
-- ---------------------------------------------------------------------------

section Assemble

variable (id : String) (fields : Record) (created updated : Option Json)

/-- **A record holds the caller's fields that it was laid out from**, whatever id and times it was
given. -/
theorem userFields_assemble :
    userFields (assemble id fields created updated) = userFields fields := by
  have hid : userFields [(idField, .string id)] = [] := rfl
  rw [assemble, List.append_assoc, List.cons_append, ← List.singleton_append, userFields_append,
    userFields_append, userFields_append, hid, userFields_userFields,
    userFields_optionalField rfl, userFields_optionalField rfl]
  simp

/-- The id that a record was given is found in it, whatever the caller's fields hold under that
name. -/
theorem get?_assemble_id :
    Fields.get? (assemble id fields created updated) idField = some (.string id) := by
  rw [assemble, List.append_assoc, List.cons_append, Fields.get?_cons_self]

/-- The id that a record was given is the record's id. -/
theorem id?_assemble : id? (assemble id fields created updated) = some id := by
  rw [id?, get?_assemble_id]
  rfl

/-- Under every other name that is not reserved, what the caller gave is found. -/
theorem get?_assemble {name : String} (h : isReserved name = false) :
    Fields.get? (assemble id fields created updated) name = Fields.get? fields name := by
  rw [← get?_userFields h, userFields_assemble, get?_userFields h]

/-- Reserved fields among those that a record is laid out from do not count. -/
theorem assemble_userFields :
    assemble id (userFields fields) created updated = assemble id fields created updated := by
  rw [assemble, assemble, userFields_userFields]

/-- The time of creation is the one that was given, if any was. -/
theorem get?_assemble_created :
    Fields.get? (assemble id fields created updated) createdField = created := by
  have hne : createdField ≠ idField := by decide
  have hother : createdField ≠ updatedField := by decide
  -- neither the id before it nor the caller's fields can hide it
  rw [assemble, List.append_assoc, List.cons_append, Fields.get?_cons_of_ne hne,
    Fields.get?_append, Fields.get?_append, get?_userFields_reserved rfl,
    get?_optionalField_self, get?_optionalField_of_ne hother, Option.none_or, Option.or_none]

/-- The time of the last change is the one that was given, if any was. -/
theorem get?_assemble_updated :
    Fields.get? (assemble id fields created updated) updatedField = updated := by
  have hne : updatedField ≠ idField := by decide
  have hother : updatedField ≠ createdField := by decide
  rw [assemble, List.append_assoc, List.cons_append, Fields.get?_cons_of_ne hne,
    Fields.get?_append, Fields.get?_append, get?_userFields_reserved rfl,
    get?_optionalField_of_ne hother, get?_optionalField_self, Option.none_or, Option.none_or]

variable {id fields created updated}

/-- A record is made of the caller's fields and the reserved ones, in another order. -/
theorem assemble_perm :
    (assemble id fields created updated).Perm (userFields fields ++
      ((idField, .string id) :: (optionalField createdField created ++
        optionalField updatedField updated))) := by
  rw [assemble, List.append_assoc, List.cons_append]
  exact List.perm_middle.symm

/-- No name is repeated, since the reserved ones are not among the caller's. -/
theorem distinct_assemble (h : Fields.Distinct fields) :
    Fields.Distinct (assemble id fields created updated) := by
  have hreserved : ∀ e ∈ (idField, .string id) :: (optionalField createdField created ++
      optionalField updatedField updated), isReserved e.1 = true := by
    intro e he
    rcases List.mem_cons.mp he with rfl | he
    · rfl
    · rcases List.mem_append.mp he with he | he
      · rw [(mem_optionalField he).1]
        rfl
      · rw [(mem_optionalField he).1]
        rfl
  unfold Fields.Distinct
  rw [Fields.names, (assemble_perm.map Prod.fst).nodup_iff]
  refine distinct_userFields_append h ?_ hreserved
  cases created <;> cases updated <;>
    simp [Fields.Distinct, Fields.names, optionalField, idField, createdField, updatedField]

/-- A record that is laid out from JSON values is one. -/
theorem wellFormed_assemble (h : Json.WellFormed (.object fields))
    (hcreated : ∀ v, created = some v → v.WellFormed)
    (hupdated : ∀ v, updated = some v → v.WellFormed) :
    Json.WellFormed (.object (assemble id fields created updated)) := by
  rw [Json.wellFormed_object] at h ⊢
  refine ⟨distinct_assemble h.1, ?_⟩
  intro e he
  rcases List.mem_append.mp (assemble_perm.mem_iff.mp he) with he | he
  · exact h.2 e (List.mem_filter.mp he).1
  · rcases List.mem_cons.mp he with rfl | he
    · trivial
    · rcases List.mem_append.mp he with he | he
      · exact hcreated _ (mem_optionalField he).2
      · exact hupdated _ (mem_optionalField he).2

end Assemble

-- ---------------------------------------------------------------------------
-- Reserved fields at the end
-- ---------------------------------------------------------------------------

/-- The fields of some names, in the order of the names. -/
theorem get?_flatMap_optionalField (r : Record) (names : List String) (name : String) :
    Fields.get? (names.flatMap fun name => optionalField name (Fields.get? r name)) name =
      if name ∈ names then Fields.get? r name else none := by
  induction names with
  | nil => rfl
  | cons n rest ih =>
    rw [List.flatMap_cons, Fields.get?_append, ih]
    by_cases hn : name = n
    · subst hn
      rw [get?_optionalField_self, if_pos List.mem_cons_self]
      split <;> simp
    · rw [get?_optionalField_of_ne hn, Option.none_or]
      simp only [List.mem_cons, hn, false_or]

/-- Such a field has one of the names, and is in the record. -/
theorem mem_flatMap_optionalField {r : Record} {names : List String} {e : String × Json}
    (h : e ∈ names.flatMap fun name => optionalField name (Fields.get? r name)) :
    e.1 ∈ names ∧ e ∈ r := by
  obtain ⟨name, hname, he⟩ := List.mem_flatMap.mp h
  obtain ⟨heq, hget⟩ := mem_optionalField he
  have hmem := Fields.mem_of_get? hget
  rw [← heq] at hmem hname
  exact ⟨hname, hmem⟩

/-- Distinct names make fields of distinct names. -/
theorem distinct_flatMap_optionalField (r : Record) {names : List String} (h : names.Nodup) :
    Fields.Distinct (names.flatMap fun name => optionalField name (Fields.get? r name)) := by
  induction names with
  | nil => exact Fields.distinct_nil
  | cons n rest ih =>
    rw [List.nodup_cons] at h
    rw [List.flatMap_cons]
    cases hn : Fields.get? r n with
    | none => exact ih h.2
    | some v =>
      have hnew : n ∉ Fields.names
          (rest.flatMap fun name => optionalField name (Fields.get? r name)) := by
        intro hmem
        obtain ⟨e, he, rfl⟩ := List.mem_map.mp hmem
        exact h.1 (mem_flatMap_optionalField he).1
      exact List.nodup_cons.mpr ⟨hnew, ih h.2⟩

/-- Moving the reserved fields to the end leaves the caller's as they stand. -/
theorem userFields_reservedLast (r : Record) : userFields (reservedLast r) = userFields r := by
  have hreserved : userFields (reservedFields.flatMap fun name =>
      optionalField name (Fields.get? r name)) = [] := by
    rw [userFields, List.filter_eq_nil_iff]
    intro e he
    simp [isReserved, (mem_flatMap_optionalField he).1]
  rw [reservedLast, userFields_append, userFields_userFields, hreserved, List.append_nil]

/-- **Moving the reserved fields to the end changes no look-up.** -/
theorem get?_reservedLast (r : Record) (name : String) :
    Fields.get? (reservedLast r) name = Fields.get? r name := by
  rw [reservedLast, Fields.get?_append, get?_flatMap_optionalField]
  cases h : isReserved name with
  | true =>
    -- a reserved name is looked up behind the caller's fields, any other among them
    rw [get?_userFields_reserved h, Option.none_or, if_pos (by simpa [isReserved] using h)]
  | false =>
    rw [get?_userFields h, if_neg (by simpa [isReserved] using h), Option.or_none]

theorem id?_reservedLast (r : Record) : id? (reservedLast r) = id? r := by
  rw [id?, get?_reservedLast, id?]

/-- Moving the reserved fields to the end repeats no name. -/
theorem distinct_reservedLast {r : Record} (h : Fields.Distinct r) :
    Fields.Distinct (reservedLast r) := by
  refine distinct_userFields_append h (distinct_flatMap_optionalField r (by decide)) ?_
  intro e he
  simp [isReserved, (mem_flatMap_optionalField he).1]

/-- **Moving the reserved fields to the end only reorders them.** -/
theorem reservedLast_perm {r : Record} (h : Fields.Distinct r) : (reservedLast r).Perm r := by
  have hlast := distinct_reservedLast h
  refine (List.perm_ext_iff_of_nodup (List.Nodup.of_map _ hlast) (List.Nodup.of_map _ h)).mpr ?_
  -- both have distinct names, so it is enough that look-ups agree
  rintro ⟨name, v⟩
  rw [Fields.mem_iff_get? hlast, Fields.mem_iff_get? h, get?_reservedLast]

/-- Moving the reserved fields to the end leaves a JSON object one. -/
theorem wellFormed_reservedLast {r : Record} (h : Json.WellFormed (.object r)) :
    Json.WellFormed (.object (reservedLast r)) := by
  rw [Json.wellFormed_object] at h ⊢
  refine ⟨distinct_reservedLast h.1, ?_⟩
  intro e he
  exact h.2 e ((reservedLast_perm h.1).mem_iff.mp he)

-- ---------------------------------------------------------------------------
-- What holds of all records
-- ---------------------------------------------------------------------------

section Lists

variable {P : Record → Prop} {records : List Record} {r : Record}

theorem forall_append (h : ∀ s ∈ records, P s) (hr : P r) : ∀ s ∈ records ++ [r], P s :=
  List.forall_mem_append.mpr ⟨h, List.forall_mem_singleton.mpr hr⟩

theorem forall_set (h : ∀ s ∈ records, P s) (hr : P r) (i : Nat) :
    ∀ s ∈ records.set i r, P s := by
  intro s hs
  rcases List.mem_or_eq_of_mem_set hs with hs | rfl
  · exact h s hs
  · exact hr

theorem forall_eraseIdx (h : ∀ s ∈ records, P s) (i : Nat) : ∀ s ∈ records.eraseIdx i, P s :=
  fun s hs => h s ((List.eraseIdx_sublist records i).subset hs)

end Lists

end DocStore.Record
