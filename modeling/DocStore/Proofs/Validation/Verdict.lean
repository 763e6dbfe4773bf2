import DocStore.Proofs.Validation.Integrity
/-!
# The verdict on a record

What an answer to a caller's value says of the value, and the other way round. A value is accepted
exactly if it is valid; the first reference without an id is named whatever else is wrong; and in
every other case each broken rule is named once, in the order of declaration.

* `Valid`: what an accepted record is.
* `FirstDangling`: the reference that ends a check.
* `Lists`: the broken rules of a record in order, and `rules_eq_map` that the check collects them.
* `validate_verdict`: all answers.
-/

namespace DocStore.Validation

/-- The records that a record is compared with: all but those that carry its own id. -/
def ComparedWith (existing : List Record) (selfId : Option String) (other : Record) : Prop :=
  other ∈ existing ∧ ∀ id, selfId = some id → Record.id? other ≠ some id

-- ---------------------------------------------------------------------------
-- What is asked of a record
-- ---------------------------------------------------------------------------

/-- A record that is accepted. -/
structure Valid (schema : Schema) (compared : Record → Prop) (record : Record) : Prop where
  required : ∀ name spec, (name, spec) ∈ schema.fields → spec.required = true →
    (Fields.get? record name).isSome
  type : ∀ name spec, (name, spec) ∈ schema.fields → ∀ v, Fields.get? record name = some v →
    spec.type.kind? = some v.kind
  reference : ∀ name spec, (name, spec) ∈ schema.fields → spec.reference = true →
    ∀ v, Fields.get? record name = some v → ∃ s : String, v = .string s ∧ s.length = 36
  single : ∀ before name spec after, schema.fields = before ++ (name, spec) :: after →
    spec.unique = true → ∀ v, Fields.get? record name = some v →
      ∀ earlier d, (earlier, d) ∈ before → d.unique = true →
        ∀ w, Fields.get? record earlier = some w → Json.sameValue w v = false
  apart : ∀ name spec, (name, spec) ∈ schema.fields → spec.unique = true →
    ∀ v, Fields.get? record name = some v →
      ∀ other, compared other → ∀ w, Fields.get? other name = some w → Json.sameValue w v = false

/-- A reference that is there and is no id. -/
def Dangling (record : Record) (name : String) (spec : FieldSpec) (v : Json) : Prop :=
  spec.reference = true ∧ Fields.get? record name = some v ∧
    ¬ ∃ s : String, v = .string s ∧ s.length = 36

/-- The first dangling reference in the order of declaration. -/
def FirstDangling (schema : Schema) (record : Record) (name : String) (v : Json) : Prop :=
  ∃ before spec after, schema.fields = before ++ (name, spec) :: after ∧
    Dangling record name spec v ∧ ∀ e ∈ before, ∀ w, ¬ Dangling record e.1 e.2 w

-- ---------------------------------------------------------------------------
-- Rules
-- ---------------------------------------------------------------------------

/-- The kinds of rules that a declaration may set. -/
inductive RuleKind where
  | required
  | type
  | unique

/-- A rule of a declared field. -/
structure Rule where
  field : String
  spec : FieldSpec
  kind : RuleKind

namespace Rule

/-- The rules of a field, in the order in which they are checked. -/
def ofField (e : String × FieldSpec) : List Rule :=
  [⟨e.1, e.2, .required⟩, ⟨e.1, e.2, .type⟩, ⟨e.1, e.2, .unique⟩]

/-- Whether a record breaks the rule beside the records it is compared with. -/
def Broken (schema : Schema) (compared : Record → Prop) (record : Record) (rule : Rule) : Prop :=
  match rule.kind with
  | .required => rule.spec.required = true ∧ Fields.get? record rule.field = none
  | .type => ∃ v, Fields.get? record rule.field = some v ∧ rule.spec.type.kind? ≠ some v.kind
  | .unique => Repeats schema record compared rule.field

/-- What is said of the rule if it is broken. -/
def violation (record : Record) (rule : Rule) : Violation :=
  let value := (Fields.get? record rule.field).getD .null
  match rule.kind with
  | .required => .required rule.field
  | .type =>
    match rule.spec.type.kind? with
    | some expected => .wrongType rule.field expected value.kind
    | none => .unsupportedType rule.field rule.spec.type.name
  | .unique => .notUnique rule.field value

end Rule

/-- The rules that a schema sets, in the order of declaration. -/
def declaredRules (schema : Schema) : List Rule := schema.fields.flatMap Rule.ofField

/-- These are the rules that a record breaks, each of them once and in the order of declaration. -/
structure Lists (schema : Schema) (compared : Record → Prop) (record : Record)
    (broken : List Rule) : Prop where
  ordered : broken.Sublist (declaredRules schema)
  mem_iff : ∀ rule, rule ∈ broken ↔
    rule ∈ declaredRules schema ∧ rule.Broken schema compared record

variable {schema : Schema} {record : Record} {existing others : List Record}
  {selfId : Option String} {compared : Record → Prop}

-- ---------------------------------------------------------------------------
-- Accepted records
-- ---------------------------------------------------------------------------

/-- The records that are left are those a record is compared with. -/
theorem mem_othersThan_iff {other : Record} :
    other ∈ othersThan selfId existing ↔ ComparedWith existing selfId other := by
  cases selfId with
  | none => simp [othersThan, ComparedWith]
  | some id =>
    rw [mem_othersThan, ComparedWith]
    refine and_congr_right fun _ => ⟨?_, fun h => h id rfl⟩
    rintro hne _ ⟨⟩
    exact hne

/-- An id is a text of 36 characters. -/
theorem isReference_iff {v : Json} :
    isReference v = true ↔ ∃ s : String, v = .string s ∧ s.length = 36 := by
  refine ⟨eq_string_of_isReference, ?_⟩
  rintro ⟨s, rfl, hlength⟩
  exact beq_iff_eq.mpr hlength

/-- A unique field with a value of its type takes part in the comparison. -/
theorem isCompared_of_type {spec : FieldSpec} {v : Json} (hunique : spec.unique = true)
    (htype : spec.type.kind? = some v.kind) : isCompared spec = true := by
  rw [isCompared, hunique, htype]
  rfl

/-- **A record is valid** if it fits and repeats no unique value. -/
theorem valid_iff : Valid schema compared record ↔
    Fits schema record ∧ ∀ name, ¬ Repeats schema record compared name := by
  constructor
  · intro h
    refine ⟨⟨h.required, h.type, ?_⟩, ?_⟩
    · intro name spec hmem hreference v hv
      exact isReference_iff.mpr (h.reference name spec hmem hreference v hv)
    · rintro name ⟨before, spec, after, value, hfields, hcompared, hvalue, hclash⟩
      have hunique : spec.unique = true := (Bool.and_eq_true_iff.mp hcompared).1
      rcases hclash with ⟨earlier, d, w, hd, hdcompared, hw, hsame⟩ | ⟨other, hother, w, hw, hsame⟩
      · -- only unique fields are compared, and only where their types have values
        have hdunique : d.unique = true := (Bool.and_eq_true_iff.mp hdcompared).1
        rw [h.single before name spec after hfields hunique value hvalue earlier d hd hdunique w hw]
          at hsame
        cases hsame
      · have hmem : (name, spec) ∈ schema.fields := by
          rw [hfields]
          exact List.mem_append_right _ List.mem_cons_self
        rw [h.apart name spec hmem hunique value hvalue other hother w hw] at hsame
        cases hsame
  · rintro ⟨hfits, hunique⟩
    refine ⟨hfits.required, hfits.type, ?_, ?_, ?_⟩
    · intro name spec hmem hreference v hv
      exact isReference_iff.mp (hfits.reference name spec hmem hreference v hv)
    · intro before name spec after hfields hspec v hv earlier d hd hdspec w hw
      have hmem : ∀ e ∈ before ++ [(name, spec)], e ∈ schema.fields := by
        intro e he
        rw [hfields]
        simp only [List.mem_append, List.mem_cons, List.not_mem_nil, or_false] at he ⊢
        tauto
      have hcompared := isCompared_of_type hspec
        (hfits.type name spec (hmem _ (by simp)) v hv)
      have hdcompared := isCompared_of_type hdspec
        (hfits.type earlier d (hmem _ (List.mem_append_left _ hd)) w hw)
      by_contra hsame
      exact hunique name ⟨before, spec, after, v, hfields, hcompared, hv,
        .inl ⟨earlier, d, w, hd, hdcompared, hw, (Bool.not_eq_false _).mp hsame⟩⟩
    · intro name spec hmem hspec v hv other hother w hw
      have hcompared := isCompared_of_type hspec (hfits.type name spec hmem v hv)
      obtain ⟨before, after, hfields⟩ := List.append_of_mem hmem
      by_contra hsame
      exact hunique name ⟨before, spec, after, v, hfields, hcompared, hv,
        .inr ⟨other, hother, w, hw, (Bool.not_eq_false _).mp hsame⟩⟩

-- ---------------------------------------------------------------------------
-- References
-- ---------------------------------------------------------------------------

theorem dangling_iff {name : String} {spec : FieldSpec} {v : Json} :
    Dangling record name spec v ↔ badReference? record name spec = some v := by
  rw [badReference?_eq_some, Dangling, ← isReference_iff, Bool.not_eq_true]

theorem badReference?_eq_none {name : String} {spec : FieldSpec} :
    badReference? record name spec = none ↔ ∀ v, ¬ Dangling record name spec v := by
  simp only [dangling_iff, Option.eq_none_iff_forall_ne_some, ne_eq]

/-- **The check ends at the first dangling reference.** -/
theorem firstDangling_iff {name : String} {v : Json} : FirstDangling schema record name v ↔
    invalidReference? record schema.fields = some (.invalidReference name v) := by
  rw [invalidReference?, List.findSome?_eq_some_iff]
  constructor
  · rintro ⟨before, spec, after, hfields, hdangling, hbefore⟩
    refine ⟨before, (name, spec), after, hfields, ?_, ?_⟩
    · rw [dangling_iff.mp hdangling, Option.map_some]
    · intro e he
      rw [badReference?_eq_none.mpr (hbefore e he), Option.map_none]
  · rintro ⟨before, ⟨field, spec⟩, after, hfields, hsome, hbefore⟩
    obtain ⟨w, hw, heq⟩ := Option.map_eq_some_iff.mp hsome
    obtain ⟨rfl, rfl⟩ := StoreError.invalidReference.inj heq
    refine ⟨before, spec, after, hfields, dangling_iff.mpr hw, ?_⟩
    intro e he
    exact badReference?_eq_none.mp (Option.map_eq_none_iff.mp (hbefore e he))

-- ---------------------------------------------------------------------------
-- Broken rules
-- ---------------------------------------------------------------------------

/-- A declared name stands at one place only. -/
theorem eq_of_split {before before' after after' : Fields FieldSpec} {name : String}
    {spec spec' : FieldSpec} (h : schema.fields = before ++ (name, spec) :: after)
    (h' : schema.fields = before' ++ (name, spec') :: after') : before = before' ∧ spec = spec' := by
  have hdistinct := schema.distinct
  rw [h, Fields.Distinct, Fields.names, List.map_append, List.map_cons, List.nodup_middle,
    List.nodup_cons, ← List.map_append] at hdistinct
  -- the name is declared once
  have hnew : ∀ e ∈ before ++ after, e.1 ≠ name := by
    rintro e he rfl
    exact hdistinct.1 (List.mem_map.mpr ⟨e, he, rfl⟩)
  have hleft : (name, spec') ∉ before := fun hmem => hnew _ (List.mem_append_left _ hmem) rfl
  have hright : (name, spec') ∉ after := fun hmem => hnew _ (List.mem_append_right _ hmem) rfl
  obtain ⟨hbefore, hsame, -⟩ :=
    (List.append_cons_inj_of_notMem hleft hright).mp (h.symm.trans h')
  exact ⟨hbefore, (Prod.mk.inj hsame).2⟩

/-- Whether a declared field repeats a unique value. -/
theorem repeats_iff {before after : Fields FieldSpec} {name : String} {spec : FieldSpec}
    (hfields : schema.fields = before ++ (name, spec) :: after) :
    Repeats schema record (· ∈ others) name ↔ isCompared spec = true ∧
      ∃ v, Fields.get? record name = some v ∧
        (((comparedValues record before).any fun w => Json.sameValue w v) ||
          collides others name v) = true := by
  simp only [Bool.or_eq_true, List.any_eq_true, collides_iff, mem_comparedValues]
  constructor
  · rintro ⟨before', spec', after', v, hfields', hcompared, hv, hclash⟩
    obtain ⟨rfl, rfl⟩ := eq_of_split hfields hfields'
    refine ⟨hcompared, v, hv, ?_⟩
    rcases hclash with ⟨earlier, d, w, hd, hdcompared, hw, hsame⟩ | hothers
    · exact .inl ⟨w, ⟨earlier, d, hd, hdcompared, hw⟩, hsame⟩
    · exact .inr hothers
  · rintro ⟨hcompared, v, hv, hclash⟩
    refine ⟨before, spec, after, v, hfields, hcompared, hv, ?_⟩
    rcases hclash with ⟨w, ⟨earlier, d, hd, hdcompared, hw⟩, hsame⟩ | hothers
    · exact .inl ⟨earlier, d, w, hd, hdcompared, hw, hsame⟩
    · exact .inr hothers

open scoped Classical in
/-- The rules of one field that the check finds broken are those that are. -/
theorem brokenRules_eq_map {before after : Fields FieldSpec} {name : String} {spec : FieldSpec}
    (hfields : schema.fields = before ++ (name, spec) :: after) :
    brokenRules record others (comparedValues record before) name spec =
      ((Rule.ofField (name, spec)).filter fun rule =>
        rule.Broken schema (· ∈ others) record).map (Rule.violation record) := by
  have hunique : Repeats schema record (· ∈ others) name ↔ isCompared spec = true ∧
      ∃ v, Fields.get? record name = some v ∧
        (((comparedValues record before).any fun w => Json.sameValue w v) ||
          collides others name v) = true := repeats_iff hfields
  rw [brokenRules, Rule.ofField]
  cases hv : Fields.get? record name with
  | none =>
    simp only [hv, reduceCtorEq, false_and, exists_false, and_false, iff_false] at hunique
    by_cases hrequired : spec.required = true
    · simp [Rule.Broken, Rule.violation, hv, hunique, hrequired]
    · simp [Rule.Broken, hv, hunique, hrequired]
  | some v =>
    simp only [hv, Option.some.injEq, exists_eq_left', ← Bool.and_eq_true] at hunique
    -- a value that is there meets the first rule, and breaks the second if its kind is another
    have htype : typeViolations name spec v =
        ([⟨name, spec, .required⟩, ⟨name, spec, .type⟩].filter fun rule : Rule =>
          rule.Broken schema (· ∈ others) record).map (Rule.violation record) := by
      rw [typeViolations]
      cases hkind : spec.type.kind? with
      | none => simp [Rule.Broken, Rule.violation, hv, hkind]
      | some expected =>
        by_cases hsame : v.kind = expected
        · simp [Rule.Broken, hv, hkind, hsame]
        · simp [Rule.Broken, Rule.violation, hv, hkind, hsame, Ne.symm hsame]
    have hclash : (if isCompared spec && ((comparedValues record before).any (fun w =>
          Json.sameValue w v) || collides others name v) then [.notUnique name v] else []) =
        ([⟨name, spec, .unique⟩].filter fun rule : Rule =>
          rule.Broken schema (· ∈ others) record).map (Rule.violation record) := by
      split
      · rename_i hbroken
        simp [Rule.Broken, Rule.violation, hv, hunique.mpr hbroken]
      · rename_i hkept
        simp [Rule.Broken, mt hunique.mp hkept]
    dsimp only
    rw [htype, hclash, ← List.map_append, ← List.filter_append]
    rfl

open scoped Classical in
/-- **The check collects the broken rules of the fields in turn.** -/
theorem rules_eq_map {before fields : Fields FieldSpec} (hfields : schema.fields = before ++ fields) :
    rules record others (comparedValues record before) fields =
      ((fields.flatMap Rule.ofField).filter fun rule =>
        rule.Broken schema (· ∈ others) record).map (Rule.violation record) := by
  -- over the fields that are left, for those that were checked before them
  induction fields generalizing before with
  | nil => rfl
  | cons e rest ih =>
    obtain ⟨name, spec⟩ := e
    have hnext : schema.fields = before ++ [(name, spec)] ++ rest := by
      rw [hfields, List.append_assoc, List.singleton_append]
    have hseen : comparedValues record (before ++ [(name, spec)]) =
        comparedValues record before ++ comparedValue record name spec := by
      rw [comparedValues, List.flatMap_append, List.flatMap_singleton]
      rfl
    rw [rules, brokenRules_eq_map hfields, ← hseen, ih hnext, List.flatMap_cons,
      List.filter_append, List.map_append]

/-- No rule is set twice. -/
theorem nodup_declaredRules (schema : Schema) : (declaredRules schema).Nodup := by
  rw [declaredRules, List.nodup_flatMap]
  constructor
  · intro e _
    simp [Rule.ofField]
  · refine List.Pairwise.imp ?_ (List.pairwise_map.mp schema.distinct)
    intro e e' hne
    rw [Function.onFun, List.disjoint_left]
    intro rule hrule hrule'
    have hfield : ∀ {d : String × FieldSpec}, rule ∈ Rule.ofField d → rule.field = d.1 := by
      intro d hd
      simp only [Rule.ofField, List.mem_cons, List.not_mem_nil, or_false] at hd
      rcases hd with rfl | rfl | rfl <;> rfl
    exact hne ((hfield hrule).symm.trans (hfield hrule'))

/-- There is one list of the broken rules. -/
theorem Lists.unique {broken broken' : List Rule} (h : Lists schema compared record broken)
    (h' : Lists schema compared record broken') : broken = broken' := by
  have hdistinct := nodup_declaredRules schema
  have hperm : broken.Perm broken' := by
    rw [List.perm_ext_iff_of_nodup (h.ordered.nodup hdistinct) (h'.ordered.nodup hdistinct)]
    intro rule
    rw [h.mem_iff, h'.mem_iff]
  exact (hdistinct.perm_iff_eq_of_sublist h.ordered h'.ordered).mp hperm

/-- The rules that the check collects are the broken rules in order. -/
theorem exists_lists (schema : Schema) (record : Record) (others : List Record) :
    ∃ broken, Lists schema (· ∈ others) record broken ∧
      rules record others [] schema.fields = broken.map (Rule.violation record) := by
  classical
  refine ⟨_, ⟨List.filter_sublist, fun rule => ?_⟩,
    rules_eq_map (show schema.fields = [] ++ schema.fields from rfl)⟩
  rw [List.mem_filter, decide_eq_true_iff, declaredRules]

-- ---------------------------------------------------------------------------
-- All answers
-- ---------------------------------------------------------------------------

/-- **What a caller's value is answered.** It is accepted, as its sanitized record, exactly if that
is valid. It is refused for a reference exactly if one is dangling, and then for the first of them,
whatever other rules are broken. Otherwise it is refused because it is no object, or for the rules
that its sanitized record breaks, each named once in the order of declaration. -/
theorem validate_verdict (schema : Schema) (raw : Json) (existing : List Record)
    (selfId : Option String) :
    (∀ record, validate schema raw existing selfId = .ok record ↔
      ∃ input, raw = .object input ∧ record = sanitizeFields schema input ∧
        Valid schema (ComparedWith existing selfId) record) ∧
    (∀ name v, validate schema raw existing selfId = .error (.invalidReference name v) ↔
      ∃ input, raw = .object input ∧ FirstDangling schema (sanitizeFields schema input) name v) ∧
    ∀ e, (∀ name v, e ≠ .invalidReference name v) →
      (validate schema raw existing selfId = .error e ↔
        (∀ input, raw ≠ .object input) ∧ e = .validation [.recordNotObject] ∨
        ∃ input broken, raw = .object input ∧
          (∀ name v, ¬ FirstDangling schema (sanitizeFields schema input) name v) ∧
          Lists schema (ComparedWith existing selfId) (sanitizeFields schema input) broken ∧
          broken ≠ [] ∧
          e = .validation (broken.map (Rule.violation (sanitizeFields schema input)))) := by
  have hcompared : (· ∈ othersThan selfId existing) = ComparedWith existing selfId :=
    funext fun other => propext mem_othersThan_iff
  refine ⟨?_, ?_, ?_⟩
  · intro record
    rw [validate_eq_ok]
    refine exists_congr fun input => and_congr_right fun _ => and_congr_right fun _ => ?_
    rw [checkFields_eq_nil_iff_fits, ← hcompared, valid_iff]
  · intro name v
    cases raw with
    | object input =>
      simp only [Json.object.injEq, exists_eq_left', firstDangling_iff]
      rw [validate_object]
      cases invalidReference? (sanitizeFields schema input) schema.fields with
      | some e => rw [Except.error.injEq, Option.some.injEq]
      | none =>
        cases rules (sanitizeFields schema input) (othersThan selfId existing) [] schema.fields with
        | nil => simp
        | cons x more => simp
    | _ => simp [validate, sanitize, Json.asObject?, bind, Except.bind]
  · intro e hother
    cases raw with
    | object input =>
      -- what is complained of is the list of broken rules, and there is one such list
      obtain ⟨broken, hlists, hrules⟩ :=
        exists_lists schema (sanitizeFields schema input) (othersThan selfId existing)
      rw [validate_object, hrules]
      rw [hcompared] at hlists
      cases hinvalid : invalidReference? (sanitizeFields schema input) schema.fields with
      | some e' =>
        obtain ⟨name, v, rfl⟩ := eq_of_invalidReference? hinvalid
        constructor
        · intro herror
          exact absurd (Except.error.inj herror).symm (hother name v)
        · rintro (⟨hraw, -⟩ | ⟨_, _, ⟨⟩, hnone, -⟩)
          · exact absurd rfl (hraw input)
          · exact absurd (firstDangling_iff.mpr hinvalid) (hnone name v)
      | none =>
        have hnone : ∀ name v, ¬ FirstDangling schema (sanitizeFields schema input) name v := by
          intro name v hfirst
          rw [firstDangling_iff, hinvalid] at hfirst
          cases hfirst
        constructor
        · intro herror
          cases broken with
          | nil => cases herror
          | cons rule more =>
            exact .inr ⟨input, rule :: more, rfl, hnone, hlists, List.cons_ne_nil _ _,
              (Except.error.inj herror).symm⟩
        · rintro (⟨hraw, -⟩ | ⟨_, broken', ⟨⟩, -, hlists', hsome, rfl⟩)
          · exact absurd rfl (hraw input)
          · rw [hlists.unique hlists']
            cases broken' with
            | nil => exact absurd rfl hsome
            | cons rule more => rfl
    | _ => simp [validate, sanitize, Json.asObject?, bind, Except.bind, eq_comm]

end DocStore.Validation
