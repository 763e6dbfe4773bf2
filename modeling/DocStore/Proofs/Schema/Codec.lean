import DocStore.Proofs.Json.RoundTrip
import DocStore.Proofs.Validation.Sanitize
import DocStore.Schema.Codec
/-!
# Schemas written and read

What a schema is read as where it was written. Its form says as much as the schema does, apart from
two things: a default of null is written like any other default and read as none, and an unsupported
type is read as the type that its name stands for.

* `decode_encode`: the schema that is read.
* `read?_compact_encode`: the written form can be given as text.
-/

namespace DocStore

/-- The declaration that is read where this one was written. -/
def FieldSpec.readBack (spec : FieldSpec) : FieldSpec :=
  { spec with type := FieldType.ofName spec.type.name
              default? := spec.default?.filter fun v => !v.isNull }

/-- A name that stands for no supported type stands for the unsupported one of that name. -/
theorem FieldType.ofName_of_kind? {name : String} (h : (ofName name).kind? = none) :
    ofName name = .unsupported name := by
  unfold ofName at h ⊢
  split_ifs at h ⊢ <;> first | rfl | cases h

/-- A type that its name does not stand for is an unsupported one of a supported name. -/
theorem FieldType.kind?_of_ofName_ne {type : FieldType} (h : ofName type.name ≠ type) :
    ∃ name expected, type = .unsupported name ∧ (ofName name).kind? = some expected := by
  cases type with
  | unsupported name =>
    cases hkind : (ofName name).kind? with
    | some expected => exact ⟨name, expected, rfl, hkind⟩
    | none => exact absurd (ofName_of_kind? hkind) h
  | _ => exact absurd rfl h

namespace Schema

/-- The schema that is read where this one was written. -/
def readBack (s : Schema) : Schema where
  fields := s.fields.map fun e => (e.1, e.2.readBack)
  timestamps := s.timestamps
  distinct := by
    rw [Fields.Distinct, Fields.names_map]
    exact s.distinct

theorem fields_readBack (s : Schema) :
    s.readBack.fields = s.fields.map fun e => (e.1, e.2.readBack) := rfl

theorem get?_readBack (s : Schema) (name : String) :
    s.readBack.get? name = (s.get? name).map FieldSpec.readBack :=
  Fields.get?_map s.fields FieldSpec.readBack name

/-- Schemas of the same fields and timestamps are the same. -/
theorem eq_of_fields {a b : Schema} (hfields : a.fields = b.fields)
    (htimestamps : a.timestamps = b.timestamps) : a = b := by
  obtain ⟨_, _, _⟩ := a
  obtain ⟨_, _, _⟩ := b
  obtain rfl := hfields
  obtain rfl := htimestamps
  rfl

-- ---------------------------------------------------------------------------
-- Values
-- ---------------------------------------------------------------------------

/-- A declaration is read where it was written. -/
theorem decodeField_encodeField (spec : FieldSpec) :
    decodeField (encodeField spec) = some spec.readBack := by
  obtain ⟨type, required, default?, unique, reference⟩ := spec
  cases default? with
  | none => rfl
  | some v => rfl

/-- Described fields are declared in turn. -/
theorem addAll_encodeField (s : Schema) (fields : Fields FieldSpec) :
    ∃ t, addAll s (fields.map fun e => (e.1, encodeField e.2)) = .ok t ∧
      t.fields = Fields.merge s.fields (fields.map fun e => (e.1, e.2.readBack)) ∧
      t.timestamps = s.timestamps := by
  -- over the fields, for any that were declared before them
  induction fields generalizing s with
  | nil => exact ⟨s, rfl, rfl, rfl⟩
  | cons e rest ih =>
    obtain ⟨name, spec⟩ := e
    obtain ⟨t, hadd, hfields, htimestamps⟩ := ih (s.add name spec.readBack)
    refine ⟨t, ?_, hfields, htimestamps⟩
    rw [List.map_cons, addAll, decodeField_encodeField]
    exact hadd

/-- **What is read where a schema was written.** -/
theorem decode_encode (s : Schema) : decode (encode s) = .ok s.readBack := by
  obtain ⟨t, hadd, hfields, htimestamps⟩ := addAll_encodeField (empty s.timestamps) s.fields
  have hmerge : Fields.merge [] s.readBack.fields = s.readBack.fields :=
    Fields.ofPairs_of_distinct s.readBack.distinct
  have hread : t = s.readBack := eq_of_fields (hfields.trans hmerge) htimestamps
  rw [← hread, ← hadd]
  rfl

-- ---------------------------------------------------------------------------
-- Texts
-- ---------------------------------------------------------------------------

/-- The description of a field has one entry for each of its parts. -/
theorem encodeField_eq (spec : FieldSpec) : encodeField spec = .object
    ([("type", .string spec.type.name), ("required", .bool spec.required)] ++
      (spec.default?.map fun v => ("default", v)).toList ++
      [("unique", .bool spec.unique), ("ref", .bool spec.reference)]) := by
  rw [encodeField]
  cases spec.default? with
  | none => rfl
  | some v => rfl

/-- The form of a declaration is a JSON value if its default is. -/
theorem wellFormed_encodeField {spec : FieldSpec}
    (h : ∀ v, spec.default? = some v → v.WellFormed) : (encodeField spec).WellFormed := by
  rw [encodeField_eq, Json.wellFormed_object]
  cases hdefault : spec.default? with
  | none =>
    simp [Fields.Distinct, Fields.names, Json.WellFormed]
  | some v =>
    simp [Fields.Distinct, Fields.names, Json.WellFormed, h v hdefault]

/-- The form of a schema is a JSON value if its defaults are. -/
theorem wellFormed_encode {s : Schema} (h : s.WellFormed) : (encode s).WellFormed := by
  have hfields : Json.WellFormed (.object (s.fields.map fun e => (e.1, encodeField e.2))) := by
    rw [Json.wellFormed_object, Fields.Distinct, Fields.names_map, List.forall_mem_map]
    exact ⟨s.distinct, fun e he => wellFormed_encodeField (h e he)⟩
  rw [encode, Json.wellFormed_object, List.forall_mem_cons, List.forall_mem_singleton]
  exact ⟨by simp [Fields.Distinct, Fields.names], by simp [Json.WellFormed], hfields⟩

/-- The form of a declaration is one container deeper than its default. -/
theorem depth_encodeField_le {spec : FieldSpec} {n : Nat}
    (h : ∀ v, spec.default? = some v → v.depth ≤ n) : (encodeField spec).depth ≤ n + 1 := by
  rw [encodeField_eq, Json.depth_object_le]
  cases hdefault : spec.default? with
  | none => simp [Json.depth]
  | some v => simp [Json.depth, h v hdefault]

/-- The form of a schema nests three objects around a default. -/
theorem depth_encode_le {s : Schema} {n : Nat}
    (h : ∀ e ∈ s.fields, ∀ v, e.2.default? = some v → v.depth ≤ n) : (encode s).depth ≤ n + 3 := by
  have hfields : (Json.object (s.fields.map fun e => (e.1, encodeField e.2))).depth ≤ n + 2 := by
    rw [Json.depth_object_le, List.forall_mem_map]
    exact fun e he => depth_encodeField_le (h e he)
  rw [encode, Json.depth_object_le, List.forall_mem_cons, List.forall_mem_singleton]
  exact ⟨Nat.zero_le _, hfields⟩

/-- **The written form can be given as text**, if no default is deeper than a reader may go. -/
theorem read?_compact_encode {s : Schema} (h : s.WellFormed)
    (hdepth : ∀ e ∈ s.fields, ∀ v, e.2.default? = some v → v.depth + 3 ≤ Json.maxDepth) :
    Json.read? (encode s).compact = some (encode s) := by
  have hle : (encode s).depth ≤ Json.maxDepth :=
    depth_encode_le fun e he v hv => Nat.le_sub_of_add_le (hdepth e he v hv)
  exact Json.read?_eq_some_iff.mpr (Json.isText_compact ⟨wellFormed_encode h, hle⟩)

end Schema

end DocStore
