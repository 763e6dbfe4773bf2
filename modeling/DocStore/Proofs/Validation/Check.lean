import DocStore.Proofs.Validation.Sanitize
/-!
# What checking a record comes to

The check runs through the declared fields and carries the unique values it has met. Here it is
taken apart: which field ends it, which rules each field breaks, and what other records have to do
with it.

* `checkFrom_eq`: the check is the first reference without an id, or the rules of all fields.
* `mem_rules`: a rule is broken by one field, beside the unique values of the fields before it.
* `checkFields_eq_nil_iff`: other records take part one by one, through `Apart` alone.
* `checkFields_eq_nil_iff_fits`: what it takes to break no rule, field by field.
-/

namespace DocStore.Validation

-- ---------------------------------------------------------------------------
-- One field
-- ---------------------------------------------------------------------------

/-- The value of a reference field that is no id. -/
def badReference? (record : Record) (name : String) (spec : FieldSpec) : Option Json :=
  (Fields.get? record name).filter fun v => spec.reference && !isReference v

/-- The value of a field, if it takes part in the comparison of unique values. -/
def comparedValue (record : Record) (name : String) (spec : FieldSpec) : List Json :=
  if isCompared spec then (Fields.get? record name).toList else []

/-- The rules a field breaks beside other records, with the unique values `seen` before it. -/
def brokenRules (record : Record) (others : List Record) (seen : List Json) (name : String)
    (spec : FieldSpec) : List Violation :=
  match Fields.get? record name with
  | none => if spec.required then [.required name] else []
  | some value =>
    typeViolations name spec value ++
      if isCompared spec && ((seen.any fun v => Json.sameValue v value) ||
        collides others name value) then [.notUnique name value] else []

/-- A reference without an id ends the check, and any other field adds the rules it breaks. -/
theorem checkFrom_cons (record : Record) (others : List Record) (seen : List Json) (name : String)
    (spec : FieldSpec) (rest : Fields FieldSpec) :
    checkFrom record others seen ((name, spec) :: rest) =
      match badReference? record name spec with
      | some value => .error (.invalidReference name value)
      | none =>
        (checkFrom record others (seen ++ comparedValue record name spec) rest).map fun vs =>
          brokenRules record others seen name spec ++ vs := by
  rw [checkFrom, badReference?, brokenRules, comparedValue]
  cases Fields.get? record name with
  | none => simp
  | some value =>
    dsimp only
    rw [Option.filter_some]
    by_cases hbad : (spec.reference && !isReference value) = true
    · rw [if_pos hbad, if_pos hbad]
    · rw [if_neg hbad, if_neg hbad]
      by_cases hcompared : isCompared spec = true
      · simp [hcompared]
      · simp [hcompared]

-- ---------------------------------------------------------------------------
-- All fields
-- ---------------------------------------------------------------------------

/-- The first reference field without an id. -/
def invalidReference? (record : Record) (fields : Fields FieldSpec) : Option StoreError :=
  fields.findSome? fun e => (badReference? record e.1 e.2).map (.invalidReference e.1)

/-- The rules that fields break in turn. -/
def rules (record : Record) (others : List Record) (seen : List Json) :
    Fields FieldSpec → List Violation
  | [] => []
  | (name, spec) :: rest =>
    brokenRules record others seen name spec ++
      rules record others (seen ++ comparedValue record name spec) rest

/-- The unique values of fields, in turn. -/
def comparedValues (record : Record) (fields : Fields FieldSpec) : List Json :=
  fields.flatMap fun e => comparedValue record e.1 e.2

/-- **The check is the first reference without an id, or the rules that all fields break.** -/
theorem checkFrom_eq (record : Record) (others : List Record) (seen : List Json)
    (fields : Fields FieldSpec) :
    checkFrom record others seen fields =
      match invalidReference? record fields with
      | some e => .error e
      | none => .ok (rules record others seen fields) := by
  -- over the fields, for any unique values that were seen before them
  induction fields generalizing seen with
  | nil => rfl
  | cons e rest ih =>
    obtain ⟨name, spec⟩ := e
    rw [checkFrom_cons, invalidReference?, List.findSome?_cons]
    cases badReference? record name spec with
    | some value => rfl
    | none =>
      dsimp only
      rw [ih, Option.map_none, ← invalidReference?, rules]
      cases invalidReference? record rest with
      | some e => rfl
      | none => rfl

/-- What ends a check is the value of a reference field that is no id. -/
theorem badReference?_eq_some {record : Record} {name : String} {spec : FieldSpec} {v : Json} :
    badReference? record name spec = some v ↔
      spec.reference = true ∧ Fields.get? record name = some v ∧ isReference v = false := by
  rw [badReference?, Option.filter_eq_some_iff, Bool.and_eq_true, Bool.not_eq_true']
  exact ⟨fun ⟨hget, href, hbad⟩ => ⟨href, hget, hbad⟩, fun ⟨href, hget, hbad⟩ => ⟨hget, href, hbad⟩⟩

/-- A reference without an id is always found, and only such a one. -/
theorem invalidReference?_isSome {record : Record} {fields : Fields FieldSpec} :
    (invalidReference? record fields).isSome ↔
      ∃ name spec v, (name, spec) ∈ fields ∧ spec.reference = true ∧
        Fields.get? record name = some v ∧ isReference v = false := by
  rw [invalidReference?, List.findSome?_isSome_iff]
  constructor
  · rintro ⟨⟨name, spec⟩, hmem, hsome⟩
    rw [Option.isSome_map] at hsome
    obtain ⟨v, hv⟩ := Option.isSome_iff_exists.mp hsome
    exact ⟨name, spec, v, hmem, badReference?_eq_some.mp hv⟩
  · rintro ⟨name, spec, v, hmem, hbad⟩
    refine ⟨(name, spec), hmem, ?_⟩
    rw [badReference?_eq_some.mpr hbad]
    rfl

/-- The first reference without an id is complained of as one. -/
theorem eq_of_invalidReference? {record : Record} {fields : Fields FieldSpec} {e : StoreError}
    (h : invalidReference? record fields = some e) : ∃ name v, e = .invalidReference name v := by
  obtain ⟨⟨name, spec⟩, -, hsome⟩ := List.exists_of_findSome?_eq_some h
  obtain ⟨v, -, rfl⟩ := Option.map_eq_some_iff.mp hsome
  exact ⟨name, v, rfl⟩

/-- **A rule is broken by one field**, beside the unique values of the fields before it. -/
theorem mem_rules {record : Record} {others : List Record} {seen : List Json}
    {fields : Fields FieldSpec} {x : Violation} :
    x ∈ rules record others seen fields ↔
      ∃ before name spec after, fields = before ++ (name, spec) :: after ∧
        x ∈ brokenRules record others (seen ++ comparedValues record before) name spec := by
  induction fields generalizing seen with
  | nil => simp [rules]
  | cons e rest ih =>
    obtain ⟨name, spec⟩ := e
    rw [rules, List.mem_append, ih]
    constructor
    · rintro (hx | ⟨before, n, s, after, rfl, hx⟩)
      · exact ⟨[], name, spec, rest, rfl, by simpa [comparedValues] using hx⟩
      · refine ⟨(name, spec) :: before, n, s, after, rfl, ?_⟩
        rwa [comparedValues, List.flatMap_cons, ← List.append_assoc]
    · rintro ⟨before, n, s, after, hfields, hx⟩
      cases before with
      | nil =>
        simp only [List.nil_append, List.cons.injEq, Prod.mk.injEq] at hfields
        obtain ⟨⟨rfl, rfl⟩, -⟩ := hfields
        exact Or.inl (by simpa [comparedValues] using hx)
      | cons e before =>
        rw [List.cons_append, List.cons.injEq] at hfields
        obtain ⟨rfl, rfl⟩ := hfields
        refine Or.inr ⟨before, n, s, after, rfl, ?_⟩
        rwa [comparedValues, List.flatMap_cons, ← List.append_assoc] at hx

-- ---------------------------------------------------------------------------
-- Other records
-- ---------------------------------------------------------------------------

/-- No compared field holds the same value in both records. -/
def Apart (schema : Schema) (a b : Record) : Prop :=
  ∀ name spec, (name, spec) ∈ schema.fields → isCompared spec = true →
    ∀ v w, Fields.get? a name = some v → Fields.get? b name = some w → Json.sameValue w v = false

/-- A value collides with no record if none of them has it in this field. -/
theorem collides_eq_false_iff {others : List Record} {name : String} {value : Json} :
    collides others name value = false ↔
      ∀ other ∈ others, ∀ w, Fields.get? other name = some w → Json.sameValue w value = false := by
  rw [collides, List.any_eq_false]
  refine forall₂_congr fun other _ => ?_
  cases Fields.get? other name with
  | none => simp
  | some w => simp

/-- A field breaks no rule if it breaks none alone and collides with no record. -/
theorem brokenRules_eq_nil_iff {record : Record} {others : List Record} {seen : List Json}
    {name : String} {spec : FieldSpec} :
    brokenRules record others seen name spec = [] ↔
      brokenRules record [] seen name spec = [] ∧
        (isCompared spec = true → ∀ v, Fields.get? record name = some v →
          collides others name v = false) := by
  rw [brokenRules, brokenRules]
  cases Fields.get? record name with
  | none => simp
  | some value =>
    dsimp only
    cases isCompared spec with
    | false => simp
    | true =>
      -- alone a field collides with nothing, and only earlier fields count
      have hnone : collides [] name value = false := rfl
      cases hcollides : collides others name value with
      | false => simp [hnone, hcollides]
      | true => simp [hcollides]

/-- A record breaks no rule if it breaks none alone and its compared fields collide with no
record. -/
theorem rules_eq_nil_iff {record : Record} {others : List Record} {seen : List Json}
    {fields : Fields FieldSpec} :
    rules record others seen fields = [] ↔
      rules record [] seen fields = [] ∧
        ∀ name spec, (name, spec) ∈ fields → isCompared spec = true →
          ∀ v, Fields.get? record name = some v → collides others name v = false := by
  induction fields generalizing seen with
  | nil => simp [rules]
  | cons e rest ih =>
    obtain ⟨name, spec⟩ := e
    rw [rules, rules, List.append_eq_nil_iff, List.append_eq_nil_iff, ih, brokenRules_eq_nil_iff]
    constructor
    · rintro ⟨⟨halone, hname⟩, hrest, hothers⟩
      refine ⟨⟨halone, hrest⟩, ?_⟩
      intro n s hmem
      rcases List.mem_cons.mp hmem with heq | hmem
      · rw [Prod.mk.injEq] at heq
        rw [heq.1, heq.2]
        exact hname
      · exact hothers n s hmem
    · rintro ⟨⟨halone, hrest⟩, hall⟩
      exact ⟨⟨halone, hall name spec List.mem_cons_self⟩, hrest,
        fun n s hmem => hall n s (List.mem_cons_of_mem _ hmem)⟩

/-- **Other records take part one by one**: a record fits beside them if it fits alone and is apart
from each. -/
theorem checkFields_eq_nil_iff {schema : Schema} {record : Record} {others : List Record} :
    checkFields schema record others = .ok [] ↔
      checkFields schema record [] = .ok [] ∧ ∀ other ∈ others, Apart schema record other := by
  rw [checkFields, checkFields, checkFrom_eq, checkFrom_eq]
  cases invalidReference? record schema.fields with
  | some e => simp
  | none =>
    simp only [Except.ok.injEq]
    rw [rules_eq_nil_iff]
    refine and_congr_right fun _ => ?_
    simp only [collides_eq_false_iff]
    constructor
    · intro h other hother name spec hmem hcompared v w hv hw
      exact h name spec hmem hcompared v hv other hother w hw
    · intro h name spec hmem hcompared v hv other hother w hw
      exact h other hother name spec hmem hcompared v w hv hw

-- ---------------------------------------------------------------------------
-- Records that fit
-- ---------------------------------------------------------------------------

/-- What is known of a record that breaks no rule. -/
structure Fits (schema : Schema) (record : Record) : Prop where
  required : ∀ name spec, (name, spec) ∈ schema.fields → spec.required = true →
    (Fields.get? record name).isSome
  type : ∀ name spec, (name, spec) ∈ schema.fields → ∀ v, Fields.get? record name = some v →
    spec.type.kind? = some v.kind
  reference : ∀ name spec, (name, spec) ∈ schema.fields → spec.reference = true →
    ∀ v, Fields.get? record name = some v → isReference v = true

/-- A record that breaks no rule has what is required, and values that fit. -/
theorem fits_of_checkFields {schema : Schema} {record : Record} {others : List Record}
    (h : checkFields schema record others = .ok []) : Fits schema record := by
  rw [checkFields, checkFrom_eq] at h
  have hvalid : invalidReference? record schema.fields = none := by
    cases hinvalid : invalidReference? record schema.fields with
    | none => rfl
    | some e => rw [hinvalid] at h; simp at h
  rw [hvalid] at h
  have hrules : ∀ x, x ∉ rules record others [] schema.fields := by
    rw [Except.ok.inj h]
    exact fun _ => List.not_mem_nil
  -- each field breaks no rule, whatever unique values stand before it
  have hbroken : ∀ name spec, (name, spec) ∈ schema.fields → ∃ seen,
      brokenRules record others seen name spec = [] := by
    intro name spec hmem
    obtain ⟨before, after, hfields⟩ := List.append_of_mem hmem
    refine ⟨[] ++ comparedValues record before, List.eq_nil_iff_forall_not_mem.mpr ?_⟩
    intro x hx
    exact hrules x (mem_rules.mpr ⟨before, name, spec, after, hfields, hx⟩)
  refine ⟨?_, ?_, ?_⟩
  · intro name spec hmem hrequired
    obtain ⟨seen, hnil⟩ := hbroken name spec hmem
    rw [brokenRules] at hnil
    cases hget : Fields.get? record name with
    | none => simp [hget, hrequired] at hnil
    | some v => rfl
  · intro name spec hmem v hv
    obtain ⟨seen, hnil⟩ := hbroken name spec hmem
    rw [brokenRules, hv] at hnil
    have htype := (List.append_eq_nil_iff.mp hnil).1
    unfold typeViolations at htype
    split at htype
    · rename_i expected hexpected
      split at htype
      · rename_i hkind
        rw [hexpected, hkind]
      · simp at htype
    · simp at htype
  · intro name spec hmem hreference v hv
    cases href : isReference v with
    | true => rfl
    | false =>
      have hfound := invalidReference?_isSome.mpr ⟨name, spec, v, hmem, hreference, hv, href⟩
      rw [hvalid] at hfound
      simp at hfound

-- ---------------------------------------------------------------------------
-- Validating
-- ---------------------------------------------------------------------------

theorem mem_othersThan {id : String} {existing : List Record} {other : Record} :
    other ∈ othersThan (some id) existing ↔ other ∈ existing ∧ Record.id? other ≠ some id := by
  rw [othersThan, List.mem_filter, bne_iff_ne]

/-- What an object is answered: its first reference without an id, the rules it breaks, or its
sanitized record. -/
theorem validate_object (schema : Schema) (input : Record) (existing : List Record)
    (selfId : Option String) :
    validate schema (.object input) existing selfId =
      match invalidReference? (sanitizeFields schema input) schema.fields with
      | some e => .error e
      | none =>
        match rules (sanitizeFields schema input) (othersThan selfId existing) [] schema.fields with
        | [] => .ok (sanitizeFields schema input)
        | violations => .error (.validation violations) := by
  rw [validate, sanitize, Json.asObject?]
  dsimp only [bind, Except.bind]
  rw [checkRecord, checkFields, checkFrom_eq]
  cases invalidReference? (sanitizeFields schema input) schema.fields with
  | some e => rfl
  | none =>
    cases rules (sanitizeFields schema input) (othersThan selfId existing) [] schema.fields with
    | nil => rfl
    | cons x more => rfl

/-- **A value is accepted as its sanitized record**, if that breaks no rule. -/
theorem validate_eq_ok {schema : Schema} {raw : Json} {existing : List Record}
    {selfId : Option String} {fields : Record} :
    validate schema raw existing selfId = .ok fields ↔
      ∃ input, raw = .object input ∧ fields = sanitizeFields schema input ∧
        checkFields schema fields (othersThan selfId existing) = .ok [] := by
  cases raw with
  | object input =>
    have hone : (∃ i, Json.object input = .object i ∧ fields = sanitizeFields schema i ∧
        checkFields schema fields (othersThan selfId existing) = .ok []) ↔
          fields = sanitizeFields schema input ∧
            checkFields schema (sanitizeFields schema input) (othersThan selfId existing) =
              .ok [] := by
      constructor
      · rintro ⟨_, heq, rfl, hcheck⟩
        obtain rfl := Json.object.inj heq
        exact ⟨rfl, hcheck⟩
      · rintro ⟨rfl, hcheck⟩
        exact ⟨input, rfl, rfl, hcheck⟩
    rw [hone, validate_object, checkFields, checkFrom_eq]
    cases invalidReference? (sanitizeFields schema input) schema.fields with
    | some e => simp
    | none =>
      dsimp only
      cases rules (sanitizeFields schema input) (othersThan selfId existing) [] schema.fields with
      | nil => simp [eq_comm]
      | cons x more => simp
  | _ => simp [validate, sanitize, Json.asObject?, bind, Except.bind]

-- ---------------------------------------------------------------------------
-- Unique values
-- ---------------------------------------------------------------------------

/-- The unique values of a record are those of its compared fields. -/
theorem mem_comparedValues {record : Record} {fields : Fields FieldSpec} {v : Json} :
    v ∈ comparedValues record fields ↔
      ∃ name spec, (name, spec) ∈ fields ∧ isCompared spec = true ∧
        Fields.get? record name = some v := by
  rw [comparedValues, List.mem_flatMap]
  constructor
  · rintro ⟨⟨name, spec⟩, hmem, hv⟩
    rw [comparedValue] at hv
    split at hv
    · rename_i hcompared
      exact ⟨name, spec, hmem, hcompared, Option.mem_toList.mp hv⟩
    · simp at hv
  · rintro ⟨name, spec, hmem, hcompared, hv⟩
    refine ⟨(name, spec), hmem, ?_⟩
    rw [comparedValue, if_pos hcompared]
    exact Option.mem_toList.mpr hv

/-- The value of a unique field is that of a unique field before it, or that of the same field in a
record it is compared with. -/
def Repeats (schema : Schema) (record : Record) (compared : Record → Prop) (name : String) : Prop :=
  ∃ before spec after value, schema.fields = before ++ (name, spec) :: after ∧
    isCompared spec = true ∧ Fields.get? record name = some value ∧
      ((∃ earlier d v, (earlier, d) ∈ before ∧ isCompared d = true ∧
          Fields.get? record earlier = some v ∧ Json.sameValue v value = true) ∨
        ∃ other, compared other ∧ ∃ v, Fields.get? other name = some v ∧
          Json.sameValue v value = true)

/-- What is wrong with a type is not that a value is there twice. -/
theorem notUnique_mem_typeViolations {name field : String} {spec : FieldSpec} {v value : Json} :
    Violation.notUnique name value ∉ typeViolations field spec v := by
  unfold typeViolations
  split
  · split <;> simp
  · simp

/-- A field is not unique if an earlier field or another record has its value. -/
theorem notUnique_mem_brokenRules {record : Record} {others : List Record} {seen : List Json}
    {name field : String} {spec : FieldSpec} {value : Json} :
    .notUnique name value ∈ brokenRules record others seen field spec ↔
      field = name ∧ isCompared spec = true ∧ Fields.get? record name = some value ∧
        ((∃ v ∈ seen, Json.sameValue v value = true) ∨ collides others name value = true) := by
  rw [brokenRules]
  cases hget : Fields.get? record field with
  | none =>
    dsimp only
    constructor
    · intro h
      split at h <;> simp at h
    · rintro ⟨rfl, -, hvalue, -⟩
      rw [hget] at hvalue
      simp at hvalue
  | some v =>
    dsimp only
    rw [List.mem_append, or_iff_right notUnique_mem_typeViolations]
    constructor
    · intro h
      split at h
      · rename_i hclash
        obtain ⟨rfl, rfl⟩ := Violation.notUnique.inj (List.mem_singleton.mp h)
        rw [Bool.and_eq_true, Bool.or_eq_true, List.any_eq_true] at hclash
        exact ⟨rfl, hclash.1, hget, hclash.2⟩
      · simp at h
    · rintro ⟨rfl, hcompared, hvalue, hclash⟩
      obtain rfl : v = value := Option.some.inj (hget.symm.trans hvalue)
      rw [if_pos]
      · exact List.mem_singleton_self _
      · rw [Bool.and_eq_true, Bool.or_eq_true, List.any_eq_true]
        exact ⟨hcompared, hclash⟩

/-- A value collides with a record that has it in this field. -/
theorem collides_iff {others : List Record} {name : String} {value : Json} :
    collides others name value = true ↔
      ∃ other ∈ others, ∃ v, Fields.get? other name = some v ∧ Json.sameValue v value = true := by
  rw [collides, List.any_eq_true]
  refine exists_congr fun other => and_congr_right fun _ => ?_
  cases Fields.get? other name with
  | none => simp
  | some v => simp

/-- **When a value is refused as not unique.** -/
theorem exists_notUnique_mem_rules {schema : Schema} {record : Record} {others : List Record}
    {name : String} :
    (∃ value, .notUnique name value ∈ rules record others [] schema.fields) ↔
      Repeats schema record (· ∈ others) name := by
  constructor
  · rintro ⟨value, hmem⟩
    obtain ⟨before, field, spec, after, hfields, hbroken⟩ := mem_rules.mp hmem
    obtain ⟨rfl, hcompared, hvalue, hclash⟩ := notUnique_mem_brokenRules.mp hbroken
    refine ⟨before, spec, after, value, hfields, hcompared, hvalue, ?_⟩
    rcases hclash with ⟨v, hv, hsame⟩ | hcollides
    · rw [List.nil_append] at hv
      obtain ⟨earlier, d, hd, hdcompared, hget⟩ := mem_comparedValues.mp hv
      exact Or.inl ⟨earlier, d, v, hd, hdcompared, hget, hsame⟩
    · exact Or.inr (collides_iff.mp hcollides)
  · rintro ⟨before, spec, after, value, hfields, hcompared, hvalue, hclash⟩
    refine ⟨value, mem_rules.mpr ⟨before, name, spec, after, hfields, ?_⟩⟩
    refine notUnique_mem_brokenRules.mpr ⟨rfl, hcompared, hvalue, ?_⟩
    rcases hclash with ⟨earlier, d, v, hd, hdcompared, hget, hsame⟩ | hcollides
    · refine Or.inl ⟨v, ?_, hsame⟩
      rw [List.nil_append]
      exact mem_comparedValues.mpr ⟨earlier, d, hd, hdcompared, hget⟩
    · exact Or.inr (collides_iff.mpr hcollides)

/-- A record that breaks no rule repeats no value. -/
theorem not_repeats_of_checkFields {schema : Schema} {record : Record} {others : List Record}
    (h : checkFields schema record others = .ok []) (name : String) :
    ¬ Repeats schema record (· ∈ others) name := by
  rw [← exists_notUnique_mem_rules]
  rintro ⟨value, hvalue⟩
  rw [checkFields, checkFrom_eq] at h
  cases hinvalid : invalidReference? record schema.fields with
  | some e =>
    rw [hinvalid] at h
    simp at h
  | none =>
    rw [hinvalid] at h
    rw [Except.ok.inj h] at hvalue
    exact List.not_mem_nil hvalue

/-- **A record breaks no rule** if it fits and repeats no unique value. -/
theorem checkFields_eq_nil_iff_fits {schema : Schema} {record : Record} {others : List Record} :
    checkFields schema record others = .ok [] ↔
      Fits schema record ∧ ∀ name, ¬ Repeats schema record (· ∈ others) name := by
  refine ⟨fun h => ⟨fits_of_checkFields h, not_repeats_of_checkFields h⟩, ?_⟩
  rintro ⟨hfits, hunique⟩
  have hvalid : invalidReference? record schema.fields = none := by
    rw [← Option.not_isSome_iff_eq_none, invalidReference?_isSome]
    rintro ⟨name, spec, v, hmem, hreference, hv, hbad⟩
    rw [hfits.reference name spec hmem hreference v hv] at hbad
    cases hbad
  have hrules : rules record others [] schema.fields = [] := by
    rw [List.eq_nil_iff_forall_not_mem]
    intro x hx
    -- a rule that is broken would be one of these three
    obtain ⟨before, name, spec, after, hfields, hbroken⟩ := mem_rules.mp hx
    have hmem : (name, spec) ∈ schema.fields := by
      rw [hfields]
      exact List.mem_append_right _ List.mem_cons_self
    rw [brokenRules] at hbroken
    cases hv : Fields.get? record name with
    | none =>
      rw [hv] at hbroken
      dsimp only at hbroken
      split at hbroken
      · rename_i hrequired
        have hsome := hfits.required name spec hmem hrequired
        rw [hv] at hsome
        cases hsome
      · exact List.not_mem_nil hbroken
    | some v =>
      have htype : typeViolations name spec v = [] := by
        rw [typeViolations, hfits.type name spec hmem v hv]
        exact if_pos rfl
      rw [hv] at hbroken
      dsimp only at hbroken
      rw [htype, List.nil_append] at hbroken
      split at hbroken
      · rw [List.mem_singleton.mp hbroken] at hx
        exact hunique name (exists_notUnique_mem_rules.mp ⟨v, hx⟩)
      · exact List.not_mem_nil hbroken
  rw [checkFields, checkFrom_eq, hvalid, hrules]

end DocStore.Validation
