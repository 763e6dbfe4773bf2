import DocStore.Proofs.Schema.Codec
import DocStore.Proofs.Validation.Verdict
/-!
# Validating by a schema that was written and read

Two things about a schema are read otherwise than they stand: a default of null, and an unsupported
type of a supported name. A value is answered otherwise where its sanitized record shows one of
them, unless a reference that is no id ends both checks before.

* `sanitizeFields_readBack`: a value that is null goes, and all others stay.
* `rules_readBack`: where nothing is read otherwise the same rules are broken.
* `validate_readBack_iff`: which values are answered alike.
* `validate_reread`: which schemas answer all values alike.
-/

namespace DocStore.Validation

/-- Nothing in this record is read otherwise: no value is null, and each value is in a field of the
type that its name stands for. -/
def ReadsAlike (schema : Schema) (record : Record) : Prop :=
  ∀ name spec, (name, spec) ∈ schema.fields → ∀ v, Fields.get? record name = some v →
    v ≠ .null ∧ FieldType.ofName spec.type.name = spec.type

variable {schema : Schema} {input record : Record} {existing others : List Record}
  {selfId : Option String} {name : String} {spec : FieldSpec} {v : Json}

theorem not_isNull_iff : (!v.isNull) = true ↔ v ≠ .null := by
  cases v <;> simp [Json.isNull]

-- ---------------------------------------------------------------------------
-- Sanitized records
-- ---------------------------------------------------------------------------

/-- A value that is null is left out, whether it was given or is the default. -/
theorem sanitizedValue_readBack (input : Record) (name : String) (spec : FieldSpec) :
    sanitizedValue input name spec.readBack =
      (sanitizedValue input name spec).filter fun v => !v.isNull := by
  rw [sanitizedValue, sanitizedValue]
  cases Fields.get? input name with
  | none => rfl
  | some v =>
    cases hnull : v.isNull with
    | true => simp [hnull, FieldSpec.readBack]
    | false => simp [hnull, Option.filter_some]

/-- **A value that is null goes**, and all others stay. -/
theorem sanitizeFields_readBack (schema : Schema) (input : Record) :
    sanitizeFields schema.readBack input =
      (sanitizeFields schema input).filter fun e => !e.2.isNull := by
  rw [sanitizeFields, sanitizeFields, Schema.fields_readBack, List.filterMap_map,
    List.filter_filterMap]
  refine List.filterMap_congr ?_
  rintro ⟨name, spec⟩ -
  dsimp only [Function.comp_apply]
  rw [sanitizedValue_readBack]
  cases sanitizedValue input name spec with
  | none => rfl
  | some v =>
    rw [Option.filter_some, Option.map_some, Option.filter_some]
    split
    · rfl
    · rfl

/-- A field is as it was, unless it is null. -/
theorem get?_sanitizeFields_readBack (schema : Schema) (input : Record) (name : String) :
    Fields.get? (sanitizeFields schema.readBack input) name =
      (Fields.get? (sanitizeFields schema input) name).filter fun v => !v.isNull := by
  rw [get?_sanitizeFields, get?_sanitizeFields, Schema.get?_readBack]
  cases schema.get? name with
  | none => rfl
  | some spec => exact sanitizedValue_readBack input name spec

/-- A record that reads alike is sanitized to the same fields. -/
theorem ReadsAlike.sanitizeFields_eq (h : ReadsAlike schema (sanitizeFields schema input)) :
    sanitizeFields schema.readBack input = sanitizeFields schema input := by
  rw [sanitizeFields_readBack, List.filter_eq_self]
  intro e he
  have hdistinct : Fields.Distinct (sanitizeFields schema input) :=
    (names_sanitizeFields schema input).nodup schema.distinct
  have hget : Fields.get? (sanitizeFields schema input) e.1 = some e.2 :=
    (Fields.mem_iff_get? hdistinct).mp he
  obtain ⟨d, hd, hname⟩ := List.mem_map.mp
    ((names_sanitizeFields schema input).subset (Fields.mem_names_of_get? hget))
  rw [← hname] at hget
  exact not_isNull_iff.mpr (h d.1 d.2 hd e.2 hget).1

-- ---------------------------------------------------------------------------
-- References
-- ---------------------------------------------------------------------------

/-- A reference dangles after the reading if it did before and is not null. -/
theorem dangling_readBack : Dangling (sanitizeFields schema.readBack input) name spec.readBack v ↔
    Dangling (sanitizeFields schema input) name spec v ∧ v ≠ .null := by
  rw [Dangling, Dangling, get?_sanitizeFields_readBack, Option.filter_eq_some_iff, not_isNull_iff]
  have href : spec.readBack.reference = spec.reference := rfl
  rw [href]
  tauto

/-- A reference that is no id is still the first one, if it is not null. -/
theorem FirstDangling.readBack (h : FirstDangling schema (sanitizeFields schema input) name v)
    (hv : v ≠ .null) :
    FirstDangling schema.readBack (sanitizeFields schema.readBack input) name v := by
  obtain ⟨before, spec, after, hfields, hdangling, hbefore⟩ := h
  refine ⟨before.map fun e => (e.1, e.2.readBack), spec.readBack,
    after.map fun e => (e.1, e.2.readBack), ?_, dangling_readBack.mpr ⟨hdangling, hv⟩, ?_⟩
  · rw [Schema.fields_readBack, hfields, List.map_append, List.map_cons]
  · rw [List.forall_mem_map]
    intro e he w hw
    exact hbefore e he w (dangling_readBack.mp hw).1

-- ---------------------------------------------------------------------------
-- Broken rules
-- ---------------------------------------------------------------------------

/-- A field of a type that is read alike breaks the same rules. -/
theorem brokenRules_readBack {seen : List Json}
    (h : ∀ v, Fields.get? record name = some v → FieldType.ofName spec.type.name = spec.type) :
    brokenRules record others seen name spec.readBack =
      brokenRules record others seen name spec := by
  unfold brokenRules
  cases hv : Fields.get? record name with
  | none => rfl
  | some v =>
    have htype : spec.readBack.type = spec.type := h v hv
    have hunique : spec.readBack.unique = spec.unique := rfl
    unfold typeViolations isCompared
    rw [htype, hunique]

/-- Its value is compared with the same ones. -/
theorem comparedValue_readBack
    (h : ∀ v, Fields.get? record name = some v → FieldType.ofName spec.type.name = spec.type) :
    comparedValue record name spec.readBack = comparedValue record name spec := by
  unfold comparedValue
  cases hv : Fields.get? record name with
  | none => simp
  | some v =>
    have htype : spec.readBack.type = spec.type := h v hv
    have hunique : spec.readBack.unique = spec.unique := rfl
    unfold isCompared
    rw [htype, hunique]

/-- **Fields of the types that their names stand for break the same rules.** -/
theorem rules_readBack {seen : List Json} {fields : Fields FieldSpec}
    (h : ∀ e ∈ fields, ∀ v, Fields.get? record e.1 = some v →
      FieldType.ofName e.2.type.name = e.2.type) :
    rules record others seen (fields.map fun e => (e.1, e.2.readBack)) =
      rules record others seen fields := by
  -- over the fields, for any unique values that were seen before them
  induction fields generalizing seen with
  | nil => rfl
  | cons e rest ih =>
    obtain ⟨name, spec⟩ := e
    have hname := h (name, spec) List.mem_cons_self
    rw [List.map_cons, rules, rules, brokenRules_readBack hname, comparedValue_readBack hname,
      ih fun e he => h e (List.mem_cons_of_mem _ he)]

/-- **A record that reads alike is answered alike.** -/
theorem ReadsAlike.validate_eq (h : ReadsAlike schema (sanitizeFields schema input)) :
    validate schema.readBack (.object input) existing selfId =
      validate schema (.object input) existing selfId := by
  have hreference : invalidReference? (sanitizeFields schema input) schema.readBack.fields =
      invalidReference? (sanitizeFields schema input) schema.fields := by
    rw [invalidReference?, invalidReference?, Schema.fields_readBack, List.findSome?_map]
    rfl
  have hrules : rules (sanitizeFields schema input) (othersThan selfId existing) []
      schema.readBack.fields =
        rules (sanitizeFields schema input) (othersThan selfId existing) [] schema.fields :=
    rules_readBack fun e he v hv => (h e.1 e.2 he v hv).2
  rw [validate_object, validate_object, h.sanitizeFields_eq, hreference, hrules]

-- ---------------------------------------------------------------------------
-- Answers that differ
-- ---------------------------------------------------------------------------

/-- What is said of the type of this field. -/
def TellsType (name : String) (x : Violation) : Prop :=
  (∃ expected actual, x = .wrongType name expected actual) ∨ ∃ type, x = .unsupportedType name type

/-- What is complained of for its type is told of the field's type. -/
theorem tellsType_of_mem_typeViolations {x : Violation} (h : x ∈ typeViolations name spec v) :
    TellsType name x := by
  unfold typeViolations at h
  split at h
  · split at h
    · cases h
    · exact .inl ⟨_, _, List.mem_singleton.mp h⟩
  · exact .inr ⟨_, List.mem_singleton.mp h⟩

/-- A complaint about a type is about one field. -/
theorem TellsType.name_eq {x : Violation} {other : String} (h : TellsType name x)
    (h' : TellsType other x) : name = other := by
  rcases h with ⟨_, _, rfl⟩ | ⟨_, rfl⟩
  · rcases h' with ⟨_, _, heq⟩ | ⟨_, heq⟩
    · exact (Violation.wrongType.inj heq).1
    · cases heq
  · rcases h' with ⟨_, _, heq⟩ | ⟨_, heq⟩
    · cases heq
    · exact (Violation.unsupportedType.inj heq).1

/-- What is said of a type is said of the value of that field. -/
theorem mem_rules_type {seen : List Json} {fields : Fields FieldSpec} {x : Violation}
    (hx : TellsType name x) : x ∈ rules record others seen fields ↔
      ∃ spec v, (name, spec) ∈ fields ∧ Fields.get? record name = some v ∧
        x ∈ typeViolations name spec v := by
  rw [mem_rules]
  constructor
  · rintro ⟨before, field, spec, after, rfl, hbroken⟩
    rw [brokenRules] at hbroken
    cases hv : Fields.get? record field with
    | none =>
      rw [hv] at hbroken
      dsimp only at hbroken
      split at hbroken
      · rw [List.mem_singleton.mp hbroken] at hx
        simp [TellsType] at hx
      · cases hbroken
    | some v =>
      rw [hv] at hbroken
      rcases List.mem_append.mp hbroken with htype | hunique
      · obtain rfl := hx.name_eq (tellsType_of_mem_typeViolations htype)
        exact ⟨spec, v, by simp, hv, htype⟩
      · -- a complaint about doubles tells nothing of a type
        split at hunique
        · rw [List.mem_singleton.mp hunique] at hx
          simp [TellsType] at hx
        · cases hunique
  · rintro ⟨spec, v, hmem, hv, htype⟩
    obtain ⟨before, after, rfl⟩ := List.append_of_mem hmem
    refine ⟨before, name, spec, after, rfl, ?_⟩
    rw [brokenRules, hv]
    exact List.mem_append_left _ htype

/-- The same answer means the same reference or the same rules. -/
theorem eq_of_validate_eq {other : Schema}
    (h : validate other (.object input) existing selfId =
      validate schema (.object input) existing selfId) :
    invalidReference? (sanitizeFields other input) other.fields =
        invalidReference? (sanitizeFields schema input) schema.fields ∧
      (invalidReference? (sanitizeFields schema input) schema.fields = none →
        rules (sanitizeFields other input) (othersThan selfId existing) [] other.fields =
          rules (sanitizeFields schema input) (othersThan selfId existing) [] schema.fields) := by
  rw [validate_object, validate_object] at h
  cases hother : invalidReference? (sanitizeFields other input) other.fields with
  | some e =>
    obtain ⟨name, v, rfl⟩ := eq_of_invalidReference? hother
    rw [hother] at h
    cases hschema : invalidReference? (sanitizeFields schema input) schema.fields with
    | some e =>
      rw [hschema] at h
      -- the answers are one error, so both complain of one reference
      exact ⟨congrArg some (Except.error.inj h), fun hnone => absurd hnone (Option.some_ne_none _)⟩
    | none =>
      rw [hschema] at h
      dsimp only at h
      split at h <;> cases h
  | none =>
    rw [hother] at h
    cases hschema : invalidReference? (sanitizeFields schema input) schema.fields with
    | some e =>
      obtain ⟨name, v, rfl⟩ := eq_of_invalidReference? hschema
      rw [hschema] at h
      dsimp only at h
      split at h <;> cases h
    | none =>
      rw [hschema] at h
      dsimp only at h
      refine ⟨rfl, fun _ => ?_⟩
      split at h
      · split at h
        · simp [*]
        · cases h
      · split at h
        · cases h
        · simpa using h

/-- A field that is read under a name is the one that was written under it. -/
theorem mem_fields_readBack {spec' : FieldSpec} (h : (name, spec) ∈ schema.fields)
    (h' : (name, spec') ∈ schema.readBack.fields) : spec' = spec.readBack := by
  have hget := Schema.get?_of_mem h'
  rw [Schema.get?_readBack, Schema.get?_of_mem h] at hget
  exact (Option.some.inj hget).symm

/-- What is said of a type that its name does not stand for is not said after the reading. -/
theorem typeViolations_of_ne (h : FieldType.ofName spec.type.name ≠ spec.type) :
    ∃ type, .unsupportedType name type ∈ typeViolations name spec v ∧
      .unsupportedType name type ∉ typeViolations name spec.readBack v := by
  obtain ⟨type, expected, htype, hkind⟩ := FieldType.kind?_of_ofName_ne h
  refine ⟨type, ?_, ?_⟩
  · rw [typeViolations, htype]
    exact List.mem_singleton_self _
  · -- what is read is a type with values, so it is not called unsupported
    have hread : spec.readBack.type.kind? = some expected := by
      rw [← hkind]
      exact congrArg (fun t : FieldType => (FieldType.ofName t.name).kind?) htype
    rw [typeViolations, hread]
    dsimp only
    split
    · exact List.not_mem_nil
    · simp

/-- **A record that does not read alike is answered otherwise**, unless a reference that is no id
ends both checks. -/
theorem readsAlike_of_validate_eq
    (h : validate schema.readBack (.object input) existing selfId =
      validate schema (.object input) existing selfId)
    (hnone : ∀ name v, FirstDangling schema (sanitizeFields schema input) name v → v = .null) :
    ReadsAlike schema (sanitizeFields schema input) := by
  obtain ⟨hreference, hrules⟩ := eq_of_validate_eq h
  -- no null dangles after the reading, so that no reference ends the checks
  have hvalid : invalidReference? (sanitizeFields schema input) schema.fields = none := by
    cases hinvalid : invalidReference? (sanitizeFields schema input) schema.fields with
    | none => rfl
    | some e =>
      obtain ⟨name, v, rfl⟩ := eq_of_invalidReference? hinvalid
      rw [hinvalid, ← firstDangling_iff] at hreference
      obtain ⟨before, spec, after, -, ⟨-, hv, -⟩, -⟩ := hreference
      rw [hnone name v (firstDangling_iff.mpr hinvalid), get?_sanitizeFields_readBack] at hv
      exact absurd (Option.filter_eq_some_iff.mp hv).2 (by decide)
  have hsame := hrules hvalid
  intro name spec hmem v hv
  -- what is said of the value's type is said after the reading too
  have hsaid : ∀ x ∈ typeViolations name spec v,
      v ≠ .null ∧ x ∈ typeViolations name spec.readBack v := by
    intro x hx
    have htells := tellsType_of_mem_typeViolations hx
    have hrule : x ∈ rules (sanitizeFields schema input) (othersThan selfId existing) []
        schema.fields := (mem_rules_type htells).mpr ⟨spec, v, hmem, hv, hx⟩
    rw [← hsame] at hrule
    obtain ⟨spec', w, hmem', hw, hx'⟩ := (mem_rules_type htells).mp hrule
    obtain rfl := mem_fields_readBack hmem hmem'
    rw [get?_sanitizeFields_readBack, hv, Option.filter_eq_some_iff] at hw
    obtain rfl := Option.some.inj hw.1
    exact ⟨not_isNull_iff.mp hw.2, hx'⟩
  constructor
  · rintro rfl
    -- no type has null among its values, so a null is complained of
    have hsome : typeViolations name spec .null ≠ [] := by
      unfold typeViolations
      obtain ⟨type, required, default?, unique, reference⟩ := spec
      cases type <;> simp [FieldType.kind?, Json.kind]
    obtain ⟨x, hx⟩ := List.exists_mem_of_ne_nil _ hsome
    exact (hsaid x hx).1 rfl
  · by_contra hne
    obtain ⟨type, hbuilt, hread⟩ := typeViolations_of_ne hne
    exact hread (hsaid _ hbuilt).2

-- ---------------------------------------------------------------------------
-- All values
-- ---------------------------------------------------------------------------

/-- **Which values are answered alike.** -/
theorem validate_readBack_iff (schema : Schema) (raw : Json) (existing : List Record)
    (selfId : Option String) :
    validate schema.readBack raw existing selfId = validate schema raw existing selfId ↔
      ∀ input, raw = .object input → ReadsAlike schema (sanitizeFields schema input) ∨
        ∃ name v, FirstDangling schema (sanitizeFields schema input) name v ∧ v ≠ .null := by
  cases raw with
  | object input =>
    simp only [Json.object.injEq, forall_eq']
    constructor
    · intro h
      by_cases hsome : ∃ name v, FirstDangling schema (sanitizeFields schema input) name v ∧
          v ≠ .null
      · exact .inr hsome
      · exact .inl (readsAlike_of_validate_eq h fun name v hfirst =>
          not_not.mp fun hv => hsome ⟨name, v, hfirst, hv⟩)
    · rintro (h | ⟨name, v, hfirst, hv⟩)
      · exact h.validate_eq
      · -- both end at the same reference, whatever is read otherwise behind it
        rw [validate_object, validate_object, firstDangling_iff.mp hfirst,
          firstDangling_iff.mp (hfirst.readBack hv)]
  | _ => simp [validate, sanitize, Json.asObject?, bind, Except.bind]

/-- A text that is an id. -/
def idText : Json := .string (String.ofList (List.replicate idLength 'x'))

/-- An id for each declared field whose name passes. -/
def idsFor (schema : Schema) (given : String → Bool) : Record :=
  schema.fields.filterMap fun e =>
    (if given e.1 then some idText else none).map fun v => (e.1, v)

/-- The record has an id for each declared field whose name passes. -/
theorem get?_idsFor {given : String → Bool} (h : (name, spec) ∈ schema.fields) :
    Fields.get? (idsFor schema given) name = if given name then some idText else none := by
  have hget := Fields.get?_filterMap schema.distinct
    (fun n _ => if given n then some idText else none) name
  rw [idsFor, hget, (Fields.mem_iff_get? schema.distinct).mp h, Option.bind_some]

theorem isReference_idText : isReference idText = true := by
  rw [idText, isReference, String.length_ofList, List.length_replicate]
  exact beq_self_eq_true idLength

/-- A field that is given an id has it in the sanitized record, and any other has its default. -/
theorem get?_sanitizeFields_idsFor {given : String → Bool} (h : (name, spec) ∈ schema.fields) :
    Fields.get? (sanitizeFields schema (idsFor schema given)) name =
      if given name then some idText else spec.default? := by
  rw [get?_sanitizeFields, Schema.get?_of_mem h, Option.bind_some, sanitizedValue, get?_idsFor h]
  cases given name with
  | true => rfl
  | false => rfl

/-- Of fields that are given ids, only the default of another one dangles. -/
theorem FirstDangling.of_idsFor {given : String → Bool}
    (h : FirstDangling schema (sanitizeFields schema (idsFor schema given)) name v) :
    ∃ spec, (name, spec) ∈ schema.fields ∧ given name = false ∧ spec.default? = some v := by
  obtain ⟨before, spec, after, hfields, ⟨-, hv, hbad⟩, -⟩ := h
  have hmem : (name, spec) ∈ schema.fields := by
    rw [hfields]
    exact List.mem_append_right _ List.mem_cons_self
  rw [get?_sanitizeFields_idsFor hmem] at hv
  split at hv
  · rw [← isReference_iff, ← Option.some.inj hv] at hbad
    exact absurd isReference_idText hbad
  · rename_i hgiven
    exact ⟨spec, hmem, Bool.eq_false_iff.mpr hgiven, hv⟩

/-- A null in a sanitized record is a default. -/
theorem default?_of_sanitizedValue (h : sanitizedValue input name spec = some .null) :
    spec.default? = some .null := by
  unfold sanitizedValue at h
  split at h
  · split at h
    · exact h
    · rename_i v _ hnull
      rw [Option.some.inj h] at hnull
      exact absurd rfl hnull
  · exact h

-- ---------------------------------------------------------------------------
-- Rereading
-- ---------------------------------------------------------------------------

/-- **When a schema answers all values alike after it was written and read.** The written form is
read, as a value and as text. A value is answered alike exactly if its sanitized record shows no
null and no type that its name does not stand for, or if a reference that is given and no id ends the
checks before. So the schema that is read answers all values alike exactly if no default is null and
no unsupported type has the name of a supported one. -/
theorem validate_reread (schema : Schema) :
    ∃ reread, Schema.decode (Schema.encode schema) = .ok reread ∧
      (schema.WellFormed →
        (∀ e ∈ schema.fields, ∀ v, e.2.default? = some v → v.depth + 3 ≤ Json.maxDepth) →
          Json.read? (Schema.encode schema).compact = some (Schema.encode schema)) ∧
      (∀ raw existing selfId,
        validate reread raw existing selfId = validate schema raw existing selfId ↔
          ∀ input, raw = .object input → ReadsAlike schema (sanitizeFields schema input) ∨
            ∃ name v, FirstDangling schema (sanitizeFields schema input) name v ∧ v ≠ .null) ∧
      ((∀ raw existing selfId,
        validate reread raw existing selfId = validate schema raw existing selfId) ↔
          ∀ name spec, (name, spec) ∈ schema.fields → spec.default? ≠ some .null ∧
            FieldType.ofName spec.type.name = spec.type) := by
  refine ⟨schema.readBack, Schema.decode_encode schema, Schema.read?_compact_encode,
    validate_readBack_iff schema, ?_, ?_⟩
  · intro h name spec hmem
    -- the field is left out, or given an id, and all others are given one
    have hanswers : ∀ given : String → Bool,
        ReadsAlike schema (sanitizeFields schema (idsFor schema given)) ∨
          ∃ name v, FirstDangling schema (sanitizeFields schema (idsFor schema given)) name v ∧
            v ≠ .null := fun given =>
      (validate_readBack_iff schema _ [] none).mp (h (.object (idsFor schema given)) [] none) _ rfl
    constructor
    · intro hnull
      have hvalue : Fields.get? (sanitizeFields schema (idsFor schema (· != name))) name =
          some .null := by
        rw [get?_sanitizeFields_idsFor hmem, bne_self_eq_false]
        exact hnull
      rcases hanswers (· != name) with halike | ⟨other, v, hfirst, hv⟩
      · exact (halike name spec hmem .null hvalue).1 rfl
      · obtain ⟨spec', hmem', hname, hdefault⟩ := hfirst.of_idsFor
        obtain rfl : other = name := bne_eq_false_iff_eq.mp hname
        have hsame := (Schema.get?_of_mem hmem').symm.trans (Schema.get?_of_mem hmem)
        rw [Option.some.inj hsame, hnull] at hdefault
        exact hv (Option.some.inj hdefault).symm
    · rcases hanswers fun _ => true with halike | ⟨other, v, hfirst, -⟩
      · exact (halike name spec hmem idText (get?_sanitizeFields_idsFor hmem)).2
      · obtain ⟨-, -, hfalse, -⟩ := hfirst.of_idsFor
        cases hfalse
  · intro h raw existing selfId
    rw [validate_readBack_iff]
    rintro input -
    refine .inl fun name spec hmem v hv => ⟨?_, (h name spec hmem).2⟩
    rintro rfl
    rw [get?_sanitizeFields, Schema.get?_of_mem hmem] at hv
    exact (h name spec hmem).1 (default?_of_sanitizedValue hv)

/-- A text whose default is null. -/
def Sample.nullDefault : Schema :=
  (Schema.empty false).add "a" ⟨.string, false, some .null, false, false⟩

/-- An empty record is refused by a schema with a default of null, and accepted by the schema that is
read where that one was written. -/
theorem validate_reread_nullDefault :
    ∃ reread, Schema.decode (Schema.encode Sample.nullDefault) = .ok reread ∧
      validate reread (.object []) [] none = .ok [] ∧
      validate Sample.nullDefault (.object []) [] none =
        .error (.validation [.wrongType "a" .string .null]) ∧
      ¬ ∀ raw existing selfId, validate reread raw existing selfId =
        validate Sample.nullDefault raw existing selfId := by
  obtain ⟨reread, hdecode, -, -, hall⟩ := validate_reread Sample.nullDefault
  refine ⟨reread, hdecode, ?_, rfl, ?_⟩
  · rw [Schema.decode_encode] at hdecode
    rw [← Except.ok.inj hdecode]
    rfl
  · rw [hall]
    intro h
    exact (h "a" _ List.mem_cons_self).1 rfl

end DocStore.Validation
