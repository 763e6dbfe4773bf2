import DocStore.Proofs.Collection.Run
/-!
# Which records an update is compared with

An update tells the record it replaces from the others by its id: the id the record has, or, if it
has none that is a string, one that is taken from the supply for it. So a record without an id is
compared with itself, and a record whose id occurs twice is not compared with its double. Where each
record has an id of its own, these are the records at all other places.

* `refuses_merged`: why a merge is refused, in terms of the merged record.
* `update_comparesById`: the same for both operations that merge.
-/

namespace DocStore.Collection

/-- Whether an operation is refused for a reason of this kind. -/
def Refuses {α : Type} (answer : Except StoreError α) (P : StoreError → Prop) : Prop :=
  ∃ e, answer = .error e ∧ P e

/-- A reference field without an id. -/
def IsInvalidReference (e : StoreError) : Prop := ∃ name value, e = .invalidReference name value

/-- The uniqueness message of a field, perhaps among others. -/
def NamesNotUnique (name : String) (e : StoreError) : Prop :=
  ∃ violations value, e = .validation violations ∧ Violation.notUnique name value ∈ violations

/-- The caller's fields after a merge, as they are checked. -/
def mergedChecked (schema : Schema) (existing patch : Record) : Record :=
  Validation.sanitizeFields schema (mergedFields existing patch)

-- ---------------------------------------------------------------------------
-- Merging
-- ---------------------------------------------------------------------------

section Merging

variable {schema : Schema} {now : Json} {records : List Record} {existing patch : Record}
  {ids : IdSupply}

theorem refuses_error {α : Type} {e : StoreError} {P : StoreError → Prop} :
    Refuses (.error e : Except StoreError α) P ↔ P e := by
  simp [Refuses]

theorem not_refuses_ok {α : Type} {a : α} {P : StoreError → Prop} :
    ¬ Refuses (.ok a : Except StoreError α) P := by
  simp [Refuses]

/-- What is answered in the end does not matter to a refusal. -/
theorem refuses_map {α β : Type} {answer : Except StoreError α} {f : α → β}
    {P : StoreError → Prop} : Refuses (answer.map f) P ↔ Refuses answer P := by
  cases answer with
  | error e => rw [Except.map, refuses_error, refuses_error]
  | ok a => exact iff_of_false not_refuses_ok not_refuses_ok

/-- A merge is refused where the check of the merged fields is. -/
theorem refuses_merged_iff {P : StoreError → Prop} :
    Refuses (merged schema now records existing patch ids).1 P ↔
      Refuses (Validation.validate schema (.object (mergedFields existing patch)) records
        (some (keptId existing ids).1)) P := by
  rw [merged]
  dsimp only
  cases Validation.validate schema (.object (mergedFields existing patch)) records
      (some (keptId existing ids).1) with
  | error e => exact refuses_error.trans refuses_error.symm
  | ok fields => exact iff_of_false not_refuses_ok not_refuses_ok

/-- The first complaint about references is one. -/
theorem isInvalidReference_of_some {record : Record} {fields : Fields FieldSpec} {e : StoreError}
    (h : Validation.invalidReference? record fields = some e) : IsInvalidReference e := by
  obtain ⟨d, -, hd⟩ := List.exists_of_findSome?_eq_some h
  obtain ⟨v, -, rfl⟩ := Option.map_eq_some_iff.mp hd
  exact ⟨d.1, v, rfl⟩

theorem not_isInvalidReference_validation {violations : List Violation} :
    ¬ IsInvalidReference (.validation violations) := by
  rintro ⟨name, value, h⟩
  cases h

/-- A list of complaints names a field where one of them does. -/
theorem refuses_violations {violations : List Violation} {s : Record} {name : String} :
    Refuses (match violations with
        | [] => .ok s
        | violations => .error (.validation violations)) (NamesNotUnique name) ↔
      ∃ value, Violation.notUnique name value ∈ violations := by
  cases violations with
  | nil => exact iff_of_false not_refuses_ok (by simp)
  | cons x more =>
    rw [refuses_error]
    constructor
    · rintro ⟨violations, value, heq, hmem⟩
      rw [StoreError.validation.inj heq]
      exact ⟨value, hmem⟩
    · rintro ⟨value, hmem⟩
      exact ⟨_, value, rfl, hmem⟩

/-- **Why a merge is refused.** -/
theorem refuses_merged (schema : Schema) (now : Json) (records : List Record)
    (existing patch : Record) (ids : IdSupply) :
    (Refuses (merged schema now records existing patch ids).1 IsInvalidReference ↔
      ∃ name spec v, (name, spec) ∈ schema.fields ∧ spec.reference = true ∧
        Fields.get? (mergedChecked schema existing patch) name = some v ∧
          Validation.isReference v = false) ∧
    (¬ Refuses (merged schema now records existing patch ids).1 IsInvalidReference →
      ∀ name, Refuses (merged schema now records existing patch ids).1 (NamesNotUnique name) ↔
        Validation.Repeats schema (mergedChecked schema existing patch)
          (fun r => r ∈ records ∧ Record.id? r ≠ some (keptId existing ids).1) name) := by
  simp only [refuses_merged_iff]
  rw [← Validation.invalidReference?_isSome, Validation.validate_object, mergedChecked]
  simp only [← Validation.mem_othersThan]
  -- references come first: what is refused for one is not compared at all
  cases hinvalid : Validation.invalidReference?
      (Validation.sanitizeFields schema (mergedFields existing patch)) schema.fields with
  | some e =>
    have he := isInvalidReference_of_some hinvalid
    exact ⟨⟨fun _ => rfl, fun _ => ⟨e, rfl, he⟩⟩, fun hnot => absurd ⟨e, rfl, he⟩ hnot⟩
  | none =>
    dsimp only
    constructor
    · constructor
      · rintro ⟨e, he, hreference⟩
        split at he
        · simp at he
        · rw [← Except.error.inj he] at hreference
          exact absurd hreference not_isInvalidReference_validation
      · intro hsome
        simp at hsome
    · intro _ name
      exact refuses_violations.trans Validation.exists_notUnique_mem_rules

end Merging

-- ---------------------------------------------------------------------------
-- Operations that merge
-- ---------------------------------------------------------------------------

/-- A write is refused for the reason of its step, unless it is the file that cannot be written. -/
theorem refuses_writing {α : Type} {c : Collection} {w : World} {records : List Record}
    (hload : (c.load w).answer = .ok records)
    (f : List Record → IdSupply → Except StoreError (Change α) × IdSupply)
    {P : StoreError → Prop} (hfile : ¬ P .file) :
    Refuses (c.writing w f).answer P ↔ Refuses (f records (c.idSupply w)).1 P := by
  rw [writing]
  dsimp only
  rw [hload, idSupply_load]
  dsimp only
  cases hstep : f records (c.idSupply w) with
  | mk result ids =>
    dsimp only
    cases result with
    | error e => exact refuses_error.trans refuses_error.symm
    | ok change =>
      -- a decision that succeeds can only fail to be written
      refine iff_of_false ?_ not_refuses_ok
      rintro ⟨e, he, hP⟩
      cases change with
      | keep a => cases he
      | replace records' a =>
        dsimp only [commit] at he
        split at he
        · cases he
          exact hfile hP
        · cases he

/-- What an operation that merges a patch into the record at a place is refused for. -/
structure ComparesById {α : Type} (schema : Schema) (records : List Record) (ids : IdSupply)
    (i : Nat) (existing patch : Record) (answer : Except StoreError α) : Prop where
  found : records[i]? = some existing
  reference : Refuses answer IsInvalidReference ↔
    ∃ name spec v, (name, spec) ∈ schema.fields ∧ spec.reference = true ∧
      Fields.get? (mergedChecked schema existing patch) name = some v ∧
        Validation.isReference v = false
  /-- The merged record is compared with those whose id is not the one it keeps or is given. -/
  byId : ¬ Refuses answer IsInvalidReference → ∀ name,
    Refuses answer (NamesNotUnique name) ↔
      Validation.Repeats schema (mergedChecked schema existing patch)
        (fun r => r ∈ records ∧ Record.id? r ≠ some (keptId existing ids).1) name
  /-- Where no other record has that id and this one has it, those are the other places. -/
  byPlace : ¬ Refuses answer IsInvalidReference →
    (∀ j r, records[j]? = some r → (Record.id? r = some (keptId existing ids).1 ↔ j = i)) →
      ∀ name, Refuses answer (NamesNotUnique name) ↔
        Validation.Repeats schema (mergedChecked schema existing patch)
          (fun r => ∃ j, j ≠ i ∧ records[j]? = some r) name

/-- An operation that is refused as a merge is compares as a merge does. -/
theorem comparesById_of_refuses {α : Type} {schema : Schema} (now : Json) {records : List Record}
    {ids : IdSupply} {i : Nat} {existing patch : Record} {answer : Except StoreError α}
    (hfound : records[i]? = some existing)
    (h : ∀ {P : StoreError → Prop}, ¬ P .file →
      (Refuses answer P ↔ Refuses (merged schema now records existing patch ids).1 P)) :
    ComparesById schema records ids i existing patch answer := by
  have hreference : ¬ IsInvalidReference .file := by
    rintro ⟨name, value, heq⟩
    cases heq
  have hunique : ∀ name, ¬ NamesNotUnique name .file := by
    rintro name ⟨violations, value, heq, -⟩
    cases heq
  have hmerged := refuses_merged schema now records existing patch ids
  rw [← h hreference] at hmerged
  simp only [← h (hunique _)] at hmerged
  refine ⟨hfound, hmerged.1, hmerged.2, ?_⟩
  intro hnot hown name
  -- if one place holds the id and no other, not to have the id is to be at another place
  have hsame : (fun r => r ∈ records ∧ Record.id? r ≠ some (keptId existing ids).1) =
      fun r => ∃ j, j ≠ i ∧ records[j]? = some r := by
    funext r
    rw [eq_iff_iff]
    constructor
    · rintro ⟨hr, hid⟩
      obtain ⟨j, hj⟩ := List.getElem?_of_mem hr
      exact ⟨j, fun heq => hid ((hown j r hj).mpr heq), hj⟩
    · rintro ⟨j, hji, hj⟩
      exact ⟨List.mem_of_getElem? hj, fun hid => hji ((hown j r hj).mp hid)⟩
  rw [← hsame]
  exact hmerged.2 hnot name

/-- A step that stores what a merge makes fails as the merge does. -/
theorem fst_storing {α : Type} (m : Except StoreError Record × IdSupply) (f : Record → Change α) :
    Prod.fst (match m with
      | (.error e, ids) => (Except.error e, ids)
      | (.ok r, ids) => (Except.ok (f r), ids)) = m.1.map f := by
  obtain ⟨result, ids⟩ := m
  cases result with
  | error e => rfl
  | ok r => rfl

/-- What an update by id decides is what merging decides. -/
theorem updateStep_fst {schema : Schema} {now : Json} {records : List Record} {ids : IdSupply}
    {id : String} {patch : Record} {i : Nat}
    (hi : (records.findIdx? fun r => Record.id? r == some id) = some i) :
    (updateStep schema now id patch records ids).1 =
      (merged schema now records (records.getD i []) patch ids).1.map
        fun r => .replace (records.set i r) (some r) := by
  rw [updateStep, hi]
  exact fst_storing _ _

/-- What an upsert decides at a match is what merging decides, with reserved fields last. -/
theorem upsertStep_fst {schema : Schema} {now : Json} {records : List Record} {ids : IdSupply}
    {query patch : Record} {i : Nat}
    (hi : (records.findIdx? fun r => Record.matchesQuery r query) = some i) :
    (upsertStep schema now query patch records ids).1 =
      (merged schema now records (records.getD i []) patch ids).1.map
        fun r => .replace (records.set i (Record.reservedLast r)) (Record.reservedLast r) := by
  rw [upsertStep, hi]
  exact fst_storing _ fun r =>
    .replace (records.set i (Record.reservedLast r)) (Record.reservedLast r)

/-- **Which records an update is compared with**, for the record that is found by a filter and for
the one that is found by its id. -/
theorem update_comparesById {c : Collection} {w : World} {records : List Record}
    (hload : (c.load w).answer = .ok records) :
    (∀ filter update query patch i, queryOf filter = .ok query → patchOf update = .ok patch →
      (records.findIdx? fun r => Record.matchesQuery r query) = some i →
        ComparesById c.schema records (c.idSupply w) i (records.getD i []) patch
          (c.upsert w filter update).answer) ∧
    (∀ id update patch i, patchOf update = .ok patch →
      (records.findIdx? fun r => Record.id? r == some id) = some i →
        ComparesById c.schema records (c.idSupply w) i (records.getD i []) patch
          (c.update w id update).answer) := by
  constructor
  · intro filter update query patch i hquery hpatch hi
    refine comparesById_of_refuses w.now (getElem?_of_findIdx? hi) ?_
    intro P hfile
    rw [upsert, hquery]
    dsimp only
    rw [hpatch]
    dsimp only
    refine (refuses_writing hload (upsertStep c.schema w.now query patch) hfile).trans ?_
    rw [upsertStep_fst hi, refuses_map]
  · intro id update patch i hpatch hi
    refine comparesById_of_refuses w.now (getElem?_of_findIdx? hi) ?_
    intro P hfile
    rw [Collection.update, hpatch]
    dsimp only
    refine (refuses_writing hload (updateStep c.schema w.now id patch) hfile).trans ?_
    rw [updateStep_fst hi, refuses_map]

namespace Sample

/-- A file with one record, which has no id. -/
def legacy : World :=
  { world with files :=
      ⟨[(["home"], .directory), (["home", "mail.json"], .text "[\x7b\"email\":\"a\"\x7d]")],
        ["home"]⟩ }

end Sample

/-- The only record of a collection, refused as a double of itself because it has no id. -/
theorem upsert_refuses_only_record :
    Refuses (Sample.collection.upsert Sample.legacy (.object [("email", .string "a")])
      (.object [])).answer (NamesNotUnique "email") := by
  have hload : (Sample.collection.load Sample.legacy).answer = .ok [[("email", .string "a")]] := rfl
  have h := (update_comparesById hload).1 (.object [("email", .string "a")]) (.object []) _ _ 0
    rfl rfl rfl
  have hreference : ¬ Refuses (Sample.collection.upsert Sample.legacy
      (.object [("email", .string "a")]) (.object [])).answer IsInvalidReference := by
    rw [h.reference]
    rintro ⟨name, spec, v, hmem, href, -⟩
    obtain ⟨rfl, rfl⟩ := Prod.mk.inj (List.mem_singleton.mp hmem)
    exact absurd href (by decide)
  rw [h.byId hreference]
  -- the record that is found is among those it is compared with
  refine ⟨[], _, [], .string "a", rfl, rfl, rfl, Or.inr ⟨[("email", .string "a")], ⟨?_, ?_⟩, ?_⟩⟩
  · exact List.mem_singleton_self _
  · exact fun hid => by cases hid
  · exact ⟨.string "a", rfl, rfl⟩

end DocStore.Collection
