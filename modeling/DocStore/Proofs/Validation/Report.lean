import Mathlib.Data.List.Range
import DocStore.Proofs.Validation.Scan
/-!
# The report on a stored collection

A write leaves the record that it replaces out of the records it compares with, by its id; the scan
leaves out the record it looks at, by its place. Here both are one loop over the declared fields,
which asks of each stored record whether it is the record under check. The scan then says of each
record what validating its own fields beside all others would say.

* `checkInTurn_eq`: the loop, and what it compares with.
* `besides_id`, `besides_place`: what is left of the records for a write and for the scan.
* `fieldMessages_eq_validate`: the scan of one record is a validation.
* `checkIntegrity_report`: which records are reported, and what is said of them.
-/

namespace DocStore.Validation

variable {schema : Schema} {records existing : List Record}

-- ---------------------------------------------------------------------------
-- One loop for writes and scans
-- ---------------------------------------------------------------------------

/-- Whether a stored record that is not the one under check holds the same value in this field. -/
def collidesExcept (isSelf : Nat → Record → Bool) (existing : List Record) (name : String)
    (value : Json) : Bool :=
  existing.zipIdx.any fun (other, place) =>
    !isSelf place other &&
      match Fields.get? other name with
      | some v => Json.sameValue v value
      | none => false

/-- Checks the fields in turn and adds to the broken rules and unique values found so far. A
reference without an id ends the check; a missing value or an unsupported type ends that of its
field. -/
def checkInTurn (record : Record) (isSelf : Nat → Record → Bool) (existing : List Record) :
    Fields FieldSpec → List Violation → List Json → Except StoreError (List Violation)
  | [], found, _ => .ok found
  | (name, spec) :: rest, found, seen =>
    match Fields.get? record name with
    | none =>
      checkInTurn record isSelf existing rest
        (if spec.required then found ++ [.required name] else found) seen
    | some value =>
      if spec.reference && !isReference value then .error (.invalidReference name value)
      else
        match spec.type.kind? with
        | none =>
          checkInTurn record isSelf existing rest
            (found ++ [.unsupportedType name spec.type.name]) seen
        | some expected =>
          let found :=
            if value.kind = expected then found else found ++ [.wrongType name expected value.kind]
          if spec.unique then
            let repeated := seen.any fun v => Json.sameValue v value
            checkInTurn record isSelf existing rest
              (if repeated || collidesExcept isSelf existing name value then
                found ++ [.notUnique name value] else found)
              (seen ++ [value])
          else checkInTurn record isSelf existing rest found seen

/-- The stored records that are not the one under check. -/
def besides (isSelf : Nat → Record → Bool) (existing : List Record) : List Record :=
  (existing.zipIdx.filter fun (other, place) => !isSelf place other).map Prod.fst

/-- A value collides with the records that are not the one under check. -/
theorem collidesExcept_eq (isSelf : Nat → Record → Bool) (existing : List Record) (name : String)
    (value : Json) :
    collidesExcept isSelf existing name value = collides (besides isSelf existing) name value := by
  rw [collidesExcept, collides, besides, List.any_map, List.any_filter]
  rfl

/-- What is found first stands first. -/
theorem map_append_map_append {α : Type} (x : Except StoreError (List α)) (front back : List α) :
    ((x.map fun vs => back ++ vs).map fun vs => front ++ vs) =
      x.map fun vs => (front ++ back) ++ vs := by
  cases x with
  | error e => rfl
  | ok vs => exact congrArg Except.ok (List.append_assoc front back vs).symm

/-- **The loop finds what the check finds** beside the records that are not the one under check. -/
theorem checkInTurn_eq (record : Record) (isSelf : Nat → Record → Bool) (existing : List Record)
    (fields : Fields FieldSpec) (found : List Violation) (seen : List Json) :
    checkInTurn record isSelf existing fields found seen =
      (checkFrom record (besides isSelf existing) seen fields).map fun vs => found ++ vs := by
  -- over the fields, for anything that was found and seen before them
  induction fields generalizing found seen with
  | nil => simp [checkInTurn, checkFrom, Except.map]
  | cons e rest ih =>
    obtain ⟨name, spec⟩ := e
    rw [checkInTurn, checkFrom]
    cases Fields.get? record name with
    | none =>
      dsimp only
      rw [ih, map_append_map_append]
      split
      · rfl
      · rw [List.append_nil]
    | some value =>
      dsimp only
      split
      · rfl
      · rw [isCompared, typeViolations]
        cases spec.type.kind? with
        | none =>
          simp only [Option.isSome_none, Bool.and_false, Bool.false_eq_true, if_false]
          rw [ih, map_append_map_append]
        | some expected =>
          simp only [Option.isSome_some, Bool.and_true, ih, collidesExcept_eq]
          split
          · rw [map_append_map_append]
            congr 2
            funext vs
            split <;> split <;> simp
          · rw [map_append_map_append]
            congr 2
            funext vs
            split <;> simp

/-- A write leaves out the record of its own id. -/
theorem besides_id (selfId : Option String) (existing : List Record) :
    besides (fun _ other => selfId.isSome && Record.id? other == selfId) existing =
      othersThan selfId existing := by
  have hfilter : ∀ p : Record → Bool,
      (existing.zipIdx.filter fun e => p e.1).map Prod.fst = existing.filter p := by
    intro p
    calc (existing.zipIdx.filter fun e => p e.1).map Prod.fst
        = (existing.zipIdx.map Prod.fst).filter p := List.filter_map.symm
      _ = existing.filter p := by rw [List.zipIdx_map_fst]
  cases selfId with
  | none =>
    rw [besides, othersThan]
    exact (hfilter fun _ => true).trans (List.filter_true existing)
  | some id =>
    rw [besides, othersThan]
    exact hfilter fun other => !(true && Record.id? other == some id)

/-- The scan leaves out the record at its own place. -/
theorem besides_place (i : Nat) (records : List Record) :
    besides (fun place _ => place == i) records = records.eraseIdx i := by
  rw [besides]
  -- over the records, for places that are counted from anywhere
  suffices h : ∀ n, ((records.zipIdx n).filter fun e => !(e.2 == n + i)).map Prod.fst =
      records.eraseIdx i by
    simpa using h 0
  induction records generalizing i with
  | nil => exact fun _ => rfl
  | cons r rest ih =>
    intro n
    rw [List.zipIdx_cons]
    cases i with
    | zero =>
      have hall : ((rest.zipIdx (n + 1)).filter fun e => !(e.2 == n + 0)) = rest.zipIdx (n + 1) := by
        rw [List.filter_eq_self]
        intro e he
        have hle := List.le_snd_of_mem_zipIdx he
        simp only [Nat.add_zero, Bool.not_eq_true', beq_eq_false_iff_ne]
        omega
      rw [List.filter_cons_of_neg (by simp), hall, List.zipIdx_map_fst, List.eraseIdx_cons_zero]
    | succ i =>
      have hstep := ih i (n + 1)
      rw [show n + 1 + i = n + (i + 1) by omega] at hstep
      have hkeep : (!(n == n + (i + 1))) = true := by
        simp only [Bool.not_eq_true', beq_eq_false_iff_ne]
        omega
      rw [List.filter_cons, if_pos hkeep, List.map_cons, hstep, List.eraseIdx_cons_succ]

/-- **Checking a record is the loop** that leaves out the record under check. -/
theorem checkRecord_eq {record : Record} {selfId : Option String}
    {isSelf : Nat → Record → Bool} {rest : List Record}
    (h : besides isSelf existing = othersThan selfId rest) :
    checkRecord schema record rest selfId =
      checkInTurn record isSelf existing schema.fields [] [] := by
  rw [checkInTurn_eq, h, checkRecord, checkFields]
  cases checkFrom record (othersThan selfId rest) [] schema.fields with
  | error e => rfl
  | ok vs => rfl

-- ---------------------------------------------------------------------------
-- One record
-- ---------------------------------------------------------------------------

/-- The messages of a refusal. -/
def refusal {α : Type} : Except StoreError α → List String
  | .ok _ => []
  | .error e => e.messages

/-- **The scan of a record's own fields is a validation** beside all other records. -/
theorem fieldMessages_eq_validate (schema : Schema) (records : List Record) (i : Nat) (r : Record) :
    fieldMessages schema records i r =
      refusal (validate schema (.object (Record.userFields r)) (records.eraseIdx i) none) := by
  rw [fieldMessages_eq, validate_object, othersThan, scanned]
  cases invalidReference? (sanitizeFields schema (Record.userFields r)) schema.fields with
  | some e => rfl
  | none =>
    cases rules (sanitizeFields schema (Record.userFields r)) (records.eraseIdx i) []
      schema.fields with
    | nil => rfl
    | cons x more => rfl

/-- Every refusal says something. -/
theorem refusal_validate_ne_nil {raw : Json} {selfId : Option String} :
    refusal (validate schema raw existing selfId) ≠ [] ↔
      ∃ e, validate schema raw existing selfId = .error e := by
  cases raw with
  | object input =>
    rw [validate_object]
    cases hinvalid : invalidReference? (sanitizeFields schema input) schema.fields with
    | some e => exact iff_of_true (messages_of_invalidReference? hinvalid) ⟨e, rfl⟩
    | none =>
      cases rules (sanitizeFields schema input) (othersThan selfId existing) [] schema.fields with
      | nil => simp [refusal]
      | cons x more => exact iff_of_true (List.cons_ne_nil _ _) ⟨_, rfl⟩
  | _ => exact iff_of_true (List.cons_ne_nil _ _) ⟨_, rfl⟩

/-- An id is there twice if another record has it. -/
theorem one_lt_copies_iff {i : Nat} {r : Record} {id : String} (hr : records[i]? = some r)
    (hid : Record.id? r = some id) :
    1 < (records.countP fun other => Record.id? other == some id) ↔
      ∃ j other, j ≠ i ∧ records[j]? = some other ∧ Record.id? other = some id := by
  obtain ⟨hlt, rfl⟩ := List.getElem?_eq_some_iff.mp hr
  have hperm := List.getElem_cons_eraseIdx_perm hlt
  rw [← hperm.countP_eq, List.countP_cons_of_pos (by rw [hid]; exact beq_self_eq_true _),
    Nat.lt_add_left_iff_pos, List.countP_pos_iff]
  simp only [List.mem_eraseIdx_iff_getElem?, beq_iff_eq]
  constructor
  · rintro ⟨other, ⟨j, hji, hj⟩, hother⟩
    exact ⟨j, other, hji, hj, hother⟩
  · rintro ⟨j, other, hji, hj, hother⟩
    exact ⟨other, ⟨j, hji, hj⟩, hother⟩

/-- The scan complains of an id that is missing, or that another record has. -/
theorem idMessages_ne_nil {i : Nat} {r : Record} (hr : records[i]? = some r) :
    idMessages records r ≠ [] ↔ Record.id? r = none ∨ ∃ id, Record.id? r = some id ∧
      ∃ j other, j ≠ i ∧ records[j]? = some other ∧ Record.id? other = some id := by
  rw [idMessages]
  cases hid : Record.id? r with
  | none => simp
  | some id =>
    dsimp only
    simp only [reduceCtorEq, false_or, Option.some.injEq, exists_eq_left']
    rw [← one_lt_copies_iff hr hid]
    split
    · rename_i hcopies
      exact iff_of_true (List.cons_ne_nil _ _) hcopies
    · rename_i hcopies
      exact iff_of_false (fun h => h rfl) hcopies

theorem unexpectedFields_ne_nil {r : Record} : unexpectedFields schema r ≠ [] ↔
    ∃ name ∈ Fields.names r, Record.isReserved name = false ∧ schema.declares name = false := by
  rw [unexpectedFields, ne_eq, List.map_eq_nil_iff, List.filter_eq_nil_iff]
  simp

-- ---------------------------------------------------------------------------
-- The report
-- ---------------------------------------------------------------------------

/-- Issues stand in the order of their records. -/
theorem pairwise_index_checkIntegrity (schema : Schema) (records : List Record) :
    ((checkIntegrity schema records).map Issue.index).Pairwise (· < ·) := by
  have hplaces : (records.zipIdx.map Prod.snd).Pairwise (· < ·) := by
    rw [List.zipIdx_map_snd]
    exact List.pairwise_lt_range'
  rw [List.pairwise_map] at hplaces ⊢
  refine hplaces.filterMap _ ?_
  intro e e' hlt issue hissue issue' hissue'
  dsimp only at hissue hissue'
  split at hissue
  · cases hissue
  · split at hissue'
    · cases hissue'
    · rw [← Option.some.inj hissue, ← Option.some.inj hissue']
      exact hlt

/-- **What the scan reports.** Issues stand in the order of their records, at most one for each. A
record is reported exactly if it has no id, shares its id with another record, has a field that is
neither declared nor reserved, or if its own fields are refused when they are validated beside all
other records. What is said of it is said of its id first, then of each unexpected field in turn,
and then word for word what that validation says. Writes and scans check in one loop; that a write
knows the record itself by its id and the scan by its place comes to leaving that record out. -/
theorem checkIntegrity_report (schema : Schema) (records : List Record) :
    ((checkIntegrity schema records).map Issue.index).Pairwise (· < ·) ∧
    (∀ i, (∃ issue ∈ checkIntegrity schema records, issue.index = i) ↔
      ∃ r, records[i]? = some r ∧
        ((Record.id? r = none ∨ ∃ id, Record.id? r = some id ∧
            ∃ j other, j ≠ i ∧ records[j]? = some other ∧ Record.id? other = some id) ∨
          (∃ name ∈ Fields.names r,
            Record.isReserved name = false ∧ schema.declares name = false) ∨
          ∃ e, validate schema (.object (Record.userFields r)) (records.eraseIdx i) none =
            .error e)) ∧
    (∀ issue ∈ checkIntegrity schema records, ∃ r, records[issue.index]? = some r ∧
      issue.id = Record.id? r ∧
      ∃ ofId, issue.messages = ofId ++
          ((Fields.names r).filter fun name =>
            !Record.isReserved name && !schema.declares name).map
              (fun name => "unexpected field '" ++ name ++ "'") ++
          refusal (validate schema (.object (Record.userFields r))
            (records.eraseIdx issue.index) none) ∧
        match Record.id? r with
        | none => ofId = ["_id is missing"]
        | some id =>
          let copies := records.countP fun other => Record.id? other == some id
          ofId = if copies > 1 then
            ["_id " ++ id ++ " appears " ++ toString copies ++ " times"] else []) ∧
    ∀ record,
      (∀ existing selfId, checkRecord schema record existing selfId =
        checkInTurn record (fun _ other => selfId.isSome && Record.id? other == selfId) existing
          schema.fields [] []) ∧
      ∀ i, checkRecord schema record (records.eraseIdx i) none =
        checkInTurn record (fun place _ => place == i) records schema.fields [] [] := by
  refine ⟨pairwise_index_checkIntegrity schema records, ?_, ?_, ?_⟩
  · intro i
    -- an issue stands for a record with messages, at the place of the record
    have hissue : (∃ issue ∈ checkIntegrity schema records, issue.index = i) ↔
        ∃ r, records[i]? = some r ∧ recordMessages schema records i r ≠ [] := by
      simp only [mem_checkIntegrity]
      constructor
      · rintro ⟨_, ⟨i, r, hr, hmessages, rfl⟩, rfl⟩
        exact ⟨r, hr, hmessages⟩
      · rintro ⟨r, hr, hmessages⟩
        exact ⟨_, ⟨i, r, hr, hmessages, rfl⟩, rfl⟩
    rw [hissue]
    refine exists_congr fun r => and_congr_right fun hr => ?_
    rw [← idMessages_ne_nil hr, ← unexpectedFields_ne_nil, ← refusal_validate_ne_nil,
      ← fieldMessages_eq_validate, recordMessages]
    simp only [ne_eq, List.append_eq_nil_iff, not_and_or, or_assoc]
  · intro issue hissue
    obtain ⟨i, r, hr, -, rfl⟩ := mem_checkIntegrity.mp hissue
    refine ⟨r, hr, rfl, idMessages records r, ?_, ?_⟩
    · rw [← fieldMessages_eq_validate]
      rfl
    · rw [idMessages]
      cases Record.id? r with
      | none => rfl
      | some id => rfl
  · intro record
    exact ⟨fun existing selfId => checkRecord_eq (besides_id selfId existing),
      fun i => checkRecord_eq (besides_place i records)⟩

end DocStore.Validation
