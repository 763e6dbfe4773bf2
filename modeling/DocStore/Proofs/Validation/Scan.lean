import DocStore.Proofs.Validation.Integrity
/-!
# What the scan finds of shared values

The scan sanitizes the record it looks at and takes the others as they are stored. A value that
comes from a default is therefore compared with what others store, and never with a default of
theirs.

* `mem_checkIntegrity`: an issue is a record with messages, at its place.
* `repeats_of_sharesWith`: sharing a value with a record that stores it is found.
* `checkIntegrity_sharesWith`: what the scan says of shared values, and what it leaves unsaid.
-/

namespace DocStore.Validation

variable {schema : Schema} {records : List Record}

-- ---------------------------------------------------------------------------
-- The issues
-- ---------------------------------------------------------------------------

/-- **An issue is a record with messages**, at its place. -/
theorem mem_checkIntegrity {issue : Issue} :
    issue ∈ checkIntegrity schema records ↔
      ∃ i r, records[i]? = some r ∧ recordMessages schema records i r ≠ [] ∧
        issue = ⟨i, Record.id? r, recordMessages schema records i r⟩ := by
  rw [checkIntegrity, List.mem_filterMap]
  constructor
  · rintro ⟨⟨r, i⟩, hmem, hissue⟩
    refine ⟨i, r, List.mk_mem_zipIdx_iff_getElem?.mp hmem, ?_⟩
    dsimp only at hissue
    split at hissue
    · simp at hissue
    · rename_i hmessages
      exact ⟨hmessages, (Option.some.inj hissue).symm⟩
  · rintro ⟨i, r, hr, hmessages, rfl⟩
    refine ⟨(r, i), List.mk_mem_zipIdx_iff_getElem?.mpr hr, ?_⟩
    dsimp only
    split
    · rename_i hnil
      exact absurd hnil hmessages
    · rfl

/-- The record that is checked in the place of a stored one. -/
def scanned (schema : Schema) (r : Record) : Record := sanitizeFields schema (Record.userFields r)

/-- The scan gives a field of a record its value or its default. -/
theorem get?_scanned (hschema : schema.ReservedFree) {name : String} {spec : FieldSpec}
    (h : schema.get? name = some spec) (r : Record) :
    Fields.get? (scanned schema r) name = sanitizedValue r name spec := by
  have hreserved : Record.isReserved name = false := by
    refine hschema.isReserved ?_
    rw [Schema.declares, h]
    rfl
  rw [scanned, get?_sanitizeFields, h, Option.bind_some, sanitizedValue, sanitizedValue,
    Record.get?_userFields hreserved]

/-- What is said of the fields of a record is the complaint about a reference, or the rules
broken. -/
theorem fieldMessages_eq (schema : Schema) (records : List Record) (i : Nat) (r : Record) :
    fieldMessages schema records i r =
      match invalidReference? (scanned schema r) schema.fields with
      | some e => e.messages
      | none =>
        (rules (scanned schema r) (records.eraseIdx i) [] schema.fields).map Violation.message := by
  rw [fieldMessages, checkFields, checkFrom_eq, ← scanned]
  cases invalidReference? (scanned schema r) schema.fields with
  | some e => rfl
  | none => rfl

theorem messages_of_invalidReference? {record : Record} {fields : Fields FieldSpec} {e : StoreError}
    (h : invalidReference? record fields = some e) : e.messages ≠ [] := by
  obtain ⟨name, v, rfl⟩ := eq_of_invalidReference? h
  simp [StoreError.messages]

/-- Without issues every record breaks no rule beside the others. -/
theorem checkFields_of_checkIntegrity (h : checkIntegrity schema records = []) {i : Nat}
    {r : Record} (hr : records[i]? = some r) :
    checkFields schema (scanned schema r) (records.eraseIdx i) = .ok [] := by
  have hmessages : recordMessages schema records i r = [] := by
    by_contra hmessages
    have hmem := mem_checkIntegrity.mpr ⟨i, r, hr, hmessages, rfl⟩
    rw [h] at hmem
    exact List.not_mem_nil hmem
  have hfields := (List.append_eq_nil_iff.mp hmessages).2
  rw [fieldMessages_eq] at hfields
  rw [checkFields, checkFrom_eq]
  cases hinvalid : invalidReference? (scanned schema r) schema.fields with
  | some e =>
    rw [hinvalid] at hfields
    exact absurd hfields (messages_of_invalidReference? hinvalid)
  | none =>
    rw [hinvalid] at hfields
    rw [List.map_eq_nil_iff.mp hfields]

-- ---------------------------------------------------------------------------
-- Shared values
-- ---------------------------------------------------------------------------

/-- The record has a value of its own in this field. -/
def HasOwn (r : Record) (name : String) : Prop :=
  ∃ v, Fields.get? r name = some v ∧ v.isNull = false

/-- The two records have the same value in this field, each its own or the default. -/
def SharesWith (name : String) (spec : FieldSpec) (a b : Record) : Prop :=
  ∃ v w, sanitizedValue a name spec = some v ∧ sanitizedValue b name spec = some w ∧
    Json.sameValue v w = true

/-- An issue says of the record at this place that its value in this field is not unique. -/
def ReportsNotUnique (schema : Schema) (records : List Record) (i : Nat) (name : String) : Prop :=
  ∃ issue ∈ checkIntegrity schema records, issue.index = i ∧
    ∃ value, (Violation.notUnique name value).message ∈ issue.messages

/-- A value of its own is the field's value. -/
theorem sanitizedValue_of_hasOwn {r : Record} {name : String} (h : HasOwn r name)
    (spec : FieldSpec) : sanitizedValue r name spec = Fields.get? r name := by
  obtain ⟨v, hv, hnull⟩ := h
  rw [sanitizedValue, hv]
  dsimp only
  rw [hnull]
  rfl

/-- Without one the field has the default. -/
theorem sanitizedValue_of_not_hasOwn {r : Record} {name : String} (h : ¬ HasOwn r name)
    (spec : FieldSpec) : sanitizedValue r name spec = spec.default? := by
  rw [sanitizedValue]
  cases hv : Fields.get? r name with
  | none => rfl
  | some v =>
    have hnull : v.isNull = true := by
      by_contra hnull
      exact h ⟨v, hv, Bool.eq_false_iff.mpr hnull⟩
    dsimp only
    rw [if_pos hnull]

/-- The value of a field is a JSON value, whether it is the record's or the default. -/
theorem wellFormed_sanitizedValue (hschema : schema.WellFormed) {name : String} {spec : FieldSpec}
    (hspec : schema.get? name = some spec) {r : Record} (hr : Json.WellFormed (.object r)) {v : Json}
    (hv : sanitizedValue r name spec = some v) : v.WellFormed := by
  have hget : Fields.get? (sanitizeFields schema r) name = some v := by
    rw [get?_sanitizeFields, hspec, Option.bind_some, hv]
  exact (Json.wellFormed_object.mp (wellFormed_sanitizeFields hschema hr)).2 _
    (Fields.mem_of_get? hget)

/-- A value that is shared is shared by both. -/
theorem SharesWith.symm (hschema : schema.WellFormed) {name : String} {spec : FieldSpec}
    (hspec : schema.get? name = some spec) {a b : Record} (ha : Json.WellFormed (.object a))
    (hb : Json.WellFormed (.object b)) (h : SharesWith name spec a b) : SharesWith name spec b a := by
  obtain ⟨v, w, hv, hw, hsame⟩ := h
  refine ⟨w, v, hw, hv, ?_⟩
  rw [Json.sameValue_comm (wellFormed_sanitizedValue hschema hspec hb hw)
    (wellFormed_sanitizedValue hschema hspec ha hv)]
  exact hsame

/-- **A value that the other record stores is found**, by whichever record shares it. -/
theorem repeats_of_sharesWith (hschema : schema.ReservedFree) {name : String} {spec : FieldSpec}
    (hspec : schema.get? name = some spec) (hcompared : isCompared spec = true) {i j : Nat}
    (hij : i ≠ j) {a b : Record} (hb : records[j]? = some b) (hown : HasOwn b name)
    (h : SharesWith name spec b a) :
    Repeats schema (scanned schema a) (· ∈ records.eraseIdx i) name := by
  obtain ⟨w, v, hw, hv, hsame⟩ := h
  rw [sanitizedValue_of_hasOwn hown] at hw
  obtain ⟨before, after, hfields⟩ := List.append_of_mem (Fields.mem_of_get? hspec)
  refine ⟨before, spec, after, v, hfields, hcompared, ?_, Or.inr ⟨b, ?_, w, hw, hsame⟩⟩
  · rw [get?_scanned hschema hspec, hv]
  · exact List.mem_eraseIdx_iff_getElem?.mpr ⟨j, hij.symm, hb⟩

/-- A schema without references has none that could dangle. -/
theorem invalidReference?_eq_none {fields : Fields FieldSpec}
    (h : ∀ e ∈ fields, e.2.reference = false) (record : Record) :
    invalidReference? record fields = none := by
  rw [← Option.not_isSome_iff_eq_none, invalidReference?_isSome]
  rintro ⟨name, spec, v, hmem, hreference, -⟩
  rw [h _ hmem] at hreference
  simp at hreference

/-- Without references nothing ends the check early, so a repeated value is reported. -/
theorem reportsNotUnique_of_repeats (hreference : ∀ e ∈ schema.fields, e.2.reference = false)
    {i : Nat} {r : Record} (hr : records[i]? = some r) {name : String}
    (h : Repeats schema (scanned schema r) (· ∈ records.eraseIdx i) name) :
    ReportsNotUnique schema records i name := by
  obtain ⟨value, hvalue⟩ := exists_notUnique_mem_rules.mpr h
  have hmem : (Violation.notUnique name value).message ∈ recordMessages schema records i r := by
    refine List.mem_append_right _ ?_
    rw [fieldMessages_eq, invalidReference?_eq_none hreference]
    exact List.mem_map_of_mem hvalue
  exact ⟨_, mem_checkIntegrity.mpr ⟨i, r, hr, List.ne_nil_of_mem hmem, rfl⟩, rfl, value, hmem⟩

/-- Where the scan finds no issue, a value that two records share is no value of their own. -/
theorem not_hasOwn_of_checkIntegrity (hclean : checkIntegrity schema records = [])
    (hfree : schema.ReservedFree) {name : String} {spec : FieldSpec}
    (hspec : schema.get? name = some spec) (hunique : spec.unique = true) {i j : Nat} (hij : i ≠ j)
    {a b : Record} (ha : records[i]? = some a) (hb : records[j]? = some b)
    (h : SharesWith name spec b a) : ¬ HasOwn b name := by
  have hcheck := checkFields_of_checkIntegrity hclean ha
  have hcompared : isCompared spec = true := by
    obtain ⟨-, v, -, hv, -⟩ := h
    rw [← get?_scanned hfree hspec] at hv
    have htype := (fits_of_checkFields hcheck).type name spec (Fields.mem_of_get? hspec) v hv
    simp [isCompared, hunique, htype]
  -- what the other record stores would have been found as a double
  intro hown
  exact not_repeats_of_checkFields hcheck name
    (repeats_of_sharesWith hfree hspec hcompared hij hb hown h)

/-- **What the scan says of shared values.** Where it finds no issue, the only values of a unique
field that two records share are defaults that both of them leave out. Without references and
unsupported types, of two records that share a value each one is reported that shares it with what
the other stores. -/
theorem checkIntegrity_sharesWith (hschema : schema.WellFormed) (hfree : schema.ReservedFree)
    (hrecords : RecordFile.WellFormed records) :
    (checkIntegrity schema records = [] →
      ∀ i j : Nat, i ≠ j → ∀ a b : Record, records[i]? = some a → records[j]? = some b →
        ∀ name spec, schema.get? name = some spec → spec.unique = true →
          (SharesWith name spec a b ↔
            ¬ HasOwn a name ∧ ¬ HasOwn b name ∧ spec.default?.isSome)) ∧
    ((∀ e ∈ schema.fields, e.2.reference = false ∧ e.2.type.kind?.isSome) →
      ∀ i j : Nat, i ≠ j → ∀ a b : Record, records[i]? = some a → records[j]? = some b →
        ∀ name spec, schema.get? name = some spec → spec.unique = true →
          SharesWith name spec a b →
            (HasOwn b name → ReportsNotUnique schema records i name) ∧
            (HasOwn a name → ReportsNotUnique schema records j name)) := by
  -- both parts look at the two records from either side
  have hsymm : ∀ {i j : Nat} {a b : Record}, records[i]? = some a → records[j]? = some b →
      ∀ {name spec}, schema.get? name = some spec → SharesWith name spec a b →
        SharesWith name spec b a := fun ha hb _ _ hspec h =>
    h.symm hschema hspec (hrecords _ (List.mem_of_getElem? ha)) (hrecords _ (List.mem_of_getElem? hb))
  constructor
  · intro hclean i j hij a b ha hb name spec hspec hunique
    constructor
    · intro hshares
      have hnota := not_hasOwn_of_checkIntegrity hclean hfree hspec hunique hij.symm hb ha hshares
      have hnotb := not_hasOwn_of_checkIntegrity hclean hfree hspec hunique hij ha hb
        (hsymm ha hb hspec hshares)
      obtain ⟨v, -, hv, -⟩ := hshares
      rw [sanitizedValue_of_not_hasOwn hnota] at hv
      exact ⟨hnota, hnotb, Option.isSome_iff_exists.mpr ⟨v, hv⟩⟩
    · rintro ⟨hnota, hnotb, hdefault⟩
      obtain ⟨d, hd⟩ := Option.isSome_iff_exists.mp hdefault
      refine ⟨d, d, ?_, ?_, Json.sameValue_refl (hschema _ (Fields.mem_of_get? hspec) d hd)⟩
      · rw [sanitizedValue_of_not_hasOwn hnota, hd]
      · rw [sanitizedValue_of_not_hasOwn hnotb, hd]
  · intro hplain i j hij a b ha hb name spec hspec hunique hshares
    have hreference : ∀ e ∈ schema.fields, e.2.reference = false := fun e he => (hplain e he).1
    have hcompared : isCompared spec = true := by
      rw [isCompared, hunique, (hplain _ (Fields.mem_of_get? hspec)).2]
      rfl
    constructor
    · intro hown
      exact reportsNotUnique_of_repeats hreference ha
        (repeats_of_sharesWith hfree hspec hcompared hij hb hown (hsymm ha hb hspec hshares))
    · intro hown
      exact reportsNotUnique_of_repeats hreference hb
        (repeats_of_sharesWith hfree hspec hcompared hij.symm ha hown hshares)

namespace Sample

def code : FieldSpec := ⟨.string, false, some (.string "x"), true, false⟩

def codes : Schema := (Schema.empty false).add "code" code

/-- Leaves the code to its default. -/
def without (id : String) : Record := [("_id", .string id)]

def withOwn (id : String) : Record := [("_id", .string id), ("code", .string "x")]

end Sample

/-- Two records that leave the code to its default share it without an issue. If one of them stores
it, the other one is reported, and the one that stores it is not. -/
theorem checkIntegrity_sharesWith_codes :
    (checkIntegrity Sample.codes [Sample.without "a", Sample.without "b"] = [] ∧
      SharesWith "code" Sample.code (Sample.without "a") (Sample.without "b")) ∧
    ((checkIntegrity Sample.codes [Sample.withOwn "a", Sample.without "b"]).map Issue.index = [1] ∧
      ReportsNotUnique Sample.codes [Sample.withOwn "a", Sample.without "b"] 1 "code") := by
  have hschema : Sample.codes.WellFormed := by
    intro e he v hv
    obtain rfl := List.mem_singleton.mp he
    rw [← Option.some.inj hv]
    trivial
  have hfree : Sample.codes.ReservedFree := by
    unfold Schema.ReservedFree
    decide
  have hleft : RecordFile.WellFormed [Sample.without "a", Sample.without "b"] := by
    simp [RecordFile.WellFormed, Sample.without, Fields.Distinct, Fields.names, Json.WellFormed,
      Json.WellFormedMembers]
  have hone : RecordFile.WellFormed [Sample.withOwn "a", Sample.without "b"] := by
    simp [RecordFile.WellFormed, Sample.withOwn, Sample.without, Fields.Distinct, Fields.names,
      Json.WellFormed, Json.WellFormedMembers]
  have hnone : ∀ id, ¬ HasOwn (Sample.without id) "code" := by
    rintro id ⟨v, hv, -⟩
    cases hv
  have hshares : SharesWith "code" Sample.code (Sample.withOwn "a") (Sample.without "b") :=
    ⟨.string "x", .string "x", rfl, rfl, rfl⟩
  refine ⟨⟨rfl, ?_⟩, rfl, ?_⟩
  · exact ((checkIntegrity_sharesWith hschema hfree hleft).1 rfl 0 1 (by decide) _ _ rfl rfl "code"
      Sample.code rfl rfl).mpr ⟨hnone "a", hnone "b", rfl⟩
  · refine ((checkIntegrity_sharesWith hschema hfree hone).2 ?_ 0 1 (by decide) _ _ rfl rfl "code"
      Sample.code rfl rfl hshares).2 ⟨.string "x", rfl, rfl⟩
    intro e he
    obtain rfl := List.mem_singleton.mp he
    exact ⟨rfl, rfl⟩

end DocStore.Validation
