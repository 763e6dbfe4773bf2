import DocStore.Proofs.Validation.Integrity
/-!
# Declared reserved fields

A schema may declare a field that the store manages. Such a field is checked in the value that a
caller saves, but neither stored from it nor checked again as it was: the caller's fields of a record
leave it out, and so it is given its default when they are checked the next time. What is stored of a
record is as if these fields had not been declared.

* `validate_withoutReserved`: what is accepted is accepted without the reserved declarations.
* `checkFields_of_reservedFit`: a stored record is accepted again with them, if they may be left out.
-/

namespace DocStore

namespace Schema

/-- The schema without the declarations of reserved fields. -/
def withoutReserved (schema : Schema) : Schema :=
  { schema with fields := schema.fields.filter fun e => !Record.isReserved e.1
                distinct := Fields.distinct_filter schema.distinct _ }

theorem fields_withoutReserved (schema : Schema) :
    schema.withoutReserved.fields = schema.fields.filter fun e => !Record.isReserved e.1 := rfl

variable {schema : Schema}

theorem mem_withoutReserved {name : String} {spec : FieldSpec} :
    (name, spec) ∈ schema.withoutReserved.fields ↔
      (name, spec) ∈ schema.fields ∧ Record.isReserved name = false := by
  rw [fields_withoutReserved, List.mem_filter, Bool.not_eq_true']

/-- What is left declares no reserved field. -/
theorem reservedFree_withoutReserved (schema : Schema) : schema.withoutReserved.ReservedFree := by
  intro name hname
  have hreserved : Record.isReserved name = true := by simpa [Record.isReserved] using hname
  have hnone : schema.withoutReserved.get? name = none :=
    Fields.get?_filter_of_neg (p := fun name => !Record.isReserved name) (by rw [hreserved]; rfl) _
  rw [declares, hnone]
  rfl

theorem WellFormed.withoutReserved (h : schema.WellFormed) : schema.withoutReserved.WellFormed :=
  fun e he => h e (List.mem_filter.mp he).1

end Schema

namespace Validation

variable {schema : Schema}

-- ---------------------------------------------------------------------------
-- Without the reserved declarations
-- ---------------------------------------------------------------------------

/-- Without the reserved declarations, the caller's fields are what is sanitized. -/
theorem sanitizeFields_withoutReserved (schema : Schema) (input : Record) :
    sanitizeFields schema.withoutReserved input =
      Record.userFields (sanitizeFields schema input) := by
  rw [sanitizeFields, sanitizeFields, Record.userFields, Schema.fields_withoutReserved,
    List.filterMap_filter, List.filter_filterMap]
  refine List.filterMap_congr fun e _ => ?_
  obtain ⟨name, spec⟩ := e
  dsimp only
  cases sanitizedValue input name spec with
  | none => simp
  | some v => rw [Option.map_some, Option.filter_some]

theorem get?_userFields_of_mem {name : String} {spec : FieldSpec}
    (h : (name, spec) ∈ schema.withoutReserved.fields) (r : Record) :
    Fields.get? (Record.userFields r) name = Fields.get? r name :=
  Record.get?_userFields (Schema.mem_withoutReserved.mp h).2 r

/-- A value that is repeated without the reserved declarations is repeated with them. -/
theorem Repeats.of_withoutReserved {record : Record} {compared : Record → Prop} {name : String}
    (h : Repeats schema.withoutReserved (Record.userFields record) compared name) :
    Repeats schema record compared name := by
  obtain ⟨before, spec, after, value, hfields, hcompared, hvalue, hclash⟩ := h
  have hmem : (name, spec) ∈ schema.withoutReserved.fields := by
    rw [hfields]
    exact List.mem_append_right _ List.mem_cons_self
  -- the reserved declarations stand somewhere between those of these fields
  obtain ⟨front, back, hall, hfront, hback⟩ := List.filter_eq_append_iff.mp hfields
  obtain ⟨skipped, rest, hrest, -, -, -⟩ := List.filter_eq_cons_iff.mp hback
  rw [get?_userFields_of_mem hmem] at hvalue
  refine ⟨front ++ skipped, spec, rest, value, ?_, hcompared, hvalue, ?_⟩
  · rw [hall, hrest, List.append_assoc]
  · rcases hclash with ⟨earlier, d, v, hd, hdcompared, hget, hsame⟩ | hother
    · rw [← hfront, List.mem_filter, Bool.not_eq_true'] at hd
      rw [Record.get?_userFields hd.2] at hget
      exact Or.inl ⟨earlier, d, v, List.mem_append_left _ hd.1, hdcompared, hget, hsame⟩
    · exact Or.inr hother

/-- **What breaks no rule breaks none without the reserved declarations.** -/
theorem checkFields_withoutReserved {record : Record} {others : List Record}
    (h : checkFields schema record others = .ok []) :
    checkFields schema.withoutReserved (Record.userFields record) others = .ok [] := by
  obtain ⟨hfits, hunique⟩ := checkFields_eq_nil_iff_fits.mp h
  refine checkFields_eq_nil_iff_fits.mpr
    ⟨⟨?_, ?_, ?_⟩, fun name hrepeats => hunique name hrepeats.of_withoutReserved⟩
  · intro name spec hmem hrequired
    rw [get?_userFields_of_mem hmem]
    exact hfits.required name spec (Schema.mem_withoutReserved.mp hmem).1 hrequired
  · intro name spec hmem v hv
    rw [get?_userFields_of_mem hmem] at hv
    exact hfits.type name spec (Schema.mem_withoutReserved.mp hmem).1 v hv
  · intro name spec hmem hreference v hv
    rw [get?_userFields_of_mem hmem] at hv
    exact hfits.reference name spec (Schema.mem_withoutReserved.mp hmem).1 hreference v hv

/-- **What is accepted is accepted without the reserved declarations**, as the caller's fields of
it. -/
theorem validate_withoutReserved {raw : Json} {existing : List Record} {selfId : Option String}
    {fields : Record} (h : validate schema raw existing selfId = .ok fields) :
    validate schema.withoutReserved raw existing selfId = .ok (Record.userFields fields) := by
  obtain ⟨input, rfl, rfl, hchecked⟩ := validate_eq_ok.mp h
  exact validate_eq_ok.mpr ⟨input, rfl, (sanitizeFields_withoutReserved schema input).symm,
    checkFields_withoutReserved hchecked⟩

-- ---------------------------------------------------------------------------
-- With them again
-- ---------------------------------------------------------------------------

/-- The declared reserved fields may be left out of this record, which is compared with these
others: each of them then has its default or no value, and that breaks no rule. -/
structure ReservedFit (schema : Schema) (others : List Record) (r : Record) : Prop where
  required : ∀ name spec, (name, spec) ∈ schema.fields → Record.isReserved name = true →
    spec.required = true → spec.default?.isSome
  type : ∀ name spec, (name, spec) ∈ schema.fields → Record.isReserved name = true →
    ∀ d, spec.default? = some d → spec.type.kind? = some d.kind
  reference : ∀ name spec, (name, spec) ∈ schema.fields → Record.isReserved name = true →
    spec.reference = true → ∀ d, spec.default? = some d → isReference d = true
  /-- A default that is compared is in no other record, and in no other field of this one. -/
  unique : ∀ name spec, (name, spec) ∈ schema.fields → Record.isReserved name = true →
    isCompared spec = true → ∀ d, spec.default? = some d →
      (∀ other ∈ others, ∀ v, Fields.get? other name = some v → Json.sameValue v d = false) ∧
      ∀ n s, (n, s) ∈ schema.fields → n ≠ name → isCompared s = true →
        ∀ v, Fields.get? (sanitizeFields schema (Record.userFields r)) n = some v →
          Json.sameValue v d = false

/-- Fewer records to be compared with make it no harder. -/
theorem ReservedFit.mono {others more : List Record} {r : Record} (h : ReservedFit schema more r)
    (hsub : ∀ other ∈ others, other ∈ more) : ReservedFit schema others r := by
  refine ⟨h.required, h.type, h.reference, ?_⟩
  intro name spec hmem hreserved hcompared d hd
  obtain ⟨hothers, hown⟩ := h.unique name spec hmem hreserved hcompared d hd
  exact ⟨fun other hother => hothers other (hsub other hother), hown⟩

/-- Reserved fields that are declared as optional, without a default, may be left out. -/
theorem reservedFit_of_optional
    (h : ∀ name spec, (name, spec) ∈ schema.fields → Record.isReserved name = true →
      spec.required = false ∧ spec.default? = none) (others : List Record) (r : Record) :
    ReservedFit schema others r := by
  have hdefault : ∀ {name spec}, (name, spec) ∈ schema.fields → Record.isReserved name = true →
      ∀ d, spec.default? ≠ some d := by
    intro name spec hmem hreserved d hd
    rw [(h name spec hmem hreserved).2] at hd
    cases hd
  refine ⟨?_, ?_, ?_, ?_⟩
  · intro name spec hmem hreserved hrequired
    rw [(h name spec hmem hreserved).1] at hrequired
    cases hrequired
  · exact fun _ _ hmem hreserved d hd => absurd hd (hdefault hmem hreserved d)
  · exact fun _ _ hmem hreserved _ d hd => absurd hd (hdefault hmem hreserved d)
  · exact fun _ _ hmem hreserved _ d hd => absurd hd (hdefault hmem hreserved d)

section Again

variable {r : Record} {others : List Record}

/-- Of a stored record, sanitizing with the reserved declarations adds their defaults alone. -/
theorem userFields_sanitizeFields_of_stored (h : Stored schema.withoutReserved r) :
    Record.userFields (sanitizeFields schema (Record.userFields r)) = Record.userFields r := by
  rw [← sanitizeFields_withoutReserved, h.sanitized]

/-- A reserved field of a stored record is given its default. -/
theorem get?_sanitizeFields_reserved {name : String} {spec : FieldSpec}
    (hmem : (name, spec) ∈ schema.fields) (hreserved : Record.isReserved name = true) (r : Record) :
    Fields.get? (sanitizeFields schema (Record.userFields r)) name = spec.default? := by
  rw [get?_sanitizeFields, Schema.get?_of_mem hmem, Option.bind_some, sanitizedValue,
    Record.get?_userFields_reserved hreserved]

/-- A field of a stored record stays as it is, unless it is reserved. -/
theorem get?_sanitizeFields_of_stored (h : Stored schema.withoutReserved r) {name : String}
    (hname : Record.isReserved name = false) :
    Fields.get? (sanitizeFields schema (Record.userFields r)) name =
      Fields.get? (Record.userFields r) name := by
  have huser := userFields_sanitizeFields_of_stored h
  rw [← Record.get?_userFields hname, huser]

/-- A declared field then has its default if it is reserved, and else what is stored. -/
theorem get?_sanitizeFields_cases (h : Stored schema.withoutReserved r) {name : String}
    {spec : FieldSpec} (hmem : (name, spec) ∈ schema.fields) :
    (Record.isReserved name = true ∧
        Fields.get? (sanitizeFields schema (Record.userFields r)) name = spec.default?) ∨
      ((name, spec) ∈ schema.withoutReserved.fields ∧
        Fields.get? (sanitizeFields schema (Record.userFields r)) name =
          Fields.get? (Record.userFields r) name) := by
  cases hreserved : Record.isReserved name with
  | true => exact Or.inl ⟨rfl, get?_sanitizeFields_reserved hmem hreserved r⟩
  | false =>
    exact Or.inr ⟨Schema.mem_withoutReserved.mpr ⟨hmem, hreserved⟩,
      get?_sanitizeFields_of_stored h hreserved⟩

/-- A stored record has what is required, reserved fields included. -/
theorem fits_of_reservedFit (h : Stored schema.withoutReserved r)
    (hfit : ReservedFit schema others r) :
    Fits schema (sanitizeFields schema (Record.userFields r)) := by
  have hfits : Fits schema.withoutReserved (Record.userFields r) := fits_of_checkFields h.checked
  refine ⟨?_, ?_, ?_⟩
  · intro name spec hmem hrequired
    rcases get?_sanitizeFields_cases h hmem with ⟨hreserved, hget⟩ | ⟨huser, hget⟩
    · rw [hget]
      exact hfit.required name spec hmem hreserved hrequired
    · rw [hget]
      exact hfits.required name spec huser hrequired
  · intro name spec hmem v hv
    rcases get?_sanitizeFields_cases h hmem with ⟨hreserved, hget⟩ | ⟨huser, hget⟩
    · rw [hget] at hv
      exact hfit.type name spec hmem hreserved v hv
    · rw [hget] at hv
      exact hfits.type name spec huser v hv
  · intro name spec hmem hreference v hv
    rcases get?_sanitizeFields_cases h hmem with ⟨hreserved, hget⟩ | ⟨huser, hget⟩
    · rw [hget] at hv
      exact hfit.reference name spec hmem hreserved hreference v hv
    · rw [hget] at hv
      exact hfits.reference name spec huser hreference v hv

/-- A user field that repeats a value of a user field or of another record does so without the
reserved declarations. -/
theorem repeats_withoutReserved (h : Stored schema.withoutReserved r) {compared : Record → Prop}
    {name : String} {spec : FieldSpec} {before after : Fields FieldSpec} {value : Json}
    (hfields : schema.fields = before ++ (name, spec) :: after)
    (hname : Record.isReserved name = false) (hcompared : isCompared spec = true)
    (hvalue : Fields.get? (sanitizeFields schema (Record.userFields r)) name = some value)
    (hclash : (∃ earlier d v, (earlier, d) ∈ before ∧ Record.isReserved earlier = false ∧
        isCompared d = true ∧
        Fields.get? (sanitizeFields schema (Record.userFields r)) earlier = some v ∧
        Json.sameValue v value = true) ∨
      ∃ other, compared other ∧ ∃ v, Fields.get? other name = some v ∧
        Json.sameValue v value = true) :
    Repeats schema.withoutReserved (Record.userFields r) compared name := by
  refine ⟨before.filter fun e => !Record.isReserved e.1, spec,
    after.filter fun e => !Record.isReserved e.1, value, ?_, hcompared, ?_, ?_⟩
  · rw [Schema.fields_withoutReserved, hfields, List.filter_append, List.filter_cons, hname]
    rfl
  · rwa [← get?_sanitizeFields_of_stored h hname]
  · rcases hclash with ⟨earlier, d, v, hd, hearlier, hdcompared, hget, hsame⟩ | hother
    · rw [get?_sanitizeFields_of_stored h hearlier] at hget
      refine Or.inl ⟨earlier, d, v, ?_, hdcompared, hget, hsame⟩
      rw [List.mem_filter, hearlier]
      exact ⟨hd, rfl⟩
    · exact Or.inr hother

/-- A stored record repeats no value, not even with the defaults of reserved fields. -/
theorem not_repeats_of_reservedFit (hschema : schema.WellFormed)
    (h : Stored schema.withoutReserved r) (hfit : ReservedFit schema others r)
    (hchecked : checkFields schema.withoutReserved (Record.userFields r) others = .ok [])
    (name : String) :
    ¬ Repeats schema (sanitizeFields schema (Record.userFields r)) (· ∈ others) name := by
  rintro ⟨before, spec, after, value, hfields, hcompared, hvalue, hclash⟩
  have hmem : (name, spec) ∈ schema.fields := by
    rw [hfields]
    exact List.mem_append_right _ List.mem_cons_self
  have hearlier : ∀ {earlier d}, (earlier, d) ∈ before → (earlier, d) ∈ schema.fields ∧
      earlier ≠ name := by
    intro earlier d hd
    refine ⟨by rw [hfields]; exact List.mem_append_left _ hd, ?_⟩
    have hdistinct : Fields.Distinct schema.fields := schema.distinct
    rw [hfields, Fields.Distinct, Fields.names, List.map_append, List.map_cons,
      List.nodup_append] at hdistinct
    exact hdistinct.2.2 earlier (List.mem_map_of_mem hd) name List.mem_cons_self
  have hwf : ∀ {n v}, Fields.get? (sanitizeFields schema (Record.userFields r)) n = some v →
      v.WellFormed := by
    intro n v hv
    have hsanitized := wellFormed_sanitizeFields hschema
      (Record.wellFormed_userFields h.wellFormed)
    exact (Json.wellFormed_object.mp hsanitized).2 _ (Fields.mem_of_get? hv)
  have huser := not_repeats_of_checkFields hchecked name
  -- the default of a reserved field is in no other field and in no other record
  cases hreserved : Record.isReserved name with
  | true =>
    have hdefault := hvalue
    rw [get?_sanitizeFields_reserved hmem hreserved] at hdefault
    obtain ⟨hothers, hown⟩ := hfit.unique name spec hmem hreserved hcompared value hdefault
    rcases hclash with ⟨earlier, d, v, hd, hdcompared, hget, hsame⟩ | ⟨other, hother, v, hv, hsame⟩
    · rw [hown earlier d (hearlier hd).1 (hearlier hd).2 hdcompared v hget] at hsame
      cases hsame
    · rw [hothers other hother v hv] at hsame
      cases hsame
  | false =>
    rcases hclash with ⟨earlier, d, v, hd, hdcompared, hget, hsame⟩ | hother
    · -- the clash is with a reserved field before, or was there without the reserved declarations
      cases hfirst : Record.isReserved earlier with
      | true =>
        have hdefault := hget
        rw [get?_sanitizeFields_reserved (hearlier hd).1 hfirst] at hdefault
        have hapart := (hfit.unique earlier d (hearlier hd).1 hfirst hdcompared v hdefault).2 name
          spec hmem (hearlier hd).2.symm hcompared value hvalue
        rw [Json.sameValue_comm (hwf hvalue) (hwf hget), hsame] at hapart
        cases hapart
      | false =>
        exact huser (repeats_withoutReserved h hfields hreserved hcompared hvalue
          (Or.inl ⟨earlier, d, v, hd, hfirst, hdcompared, hget, hsame⟩))
    · exact huser (repeats_withoutReserved h hfields hreserved hcompared hvalue (Or.inr hother))

/-- **A stored record is accepted again**, if the declared reserved fields may be left out of it. -/
theorem validate_of_reservedFit (hschema : schema.WellFormed) {existing : List Record} {id : String}
    (h : Stored schema.withoutReserved r)
    (hchecked : checkFields schema.withoutReserved (Record.userFields r)
      (othersThan (some id) existing) = .ok [])
    (hfit : ReservedFit schema (othersThan (some id) existing) r) :
    validate schema (.object (Record.userFields r)) existing (some id) =
      .ok (sanitizeFields schema (Record.userFields r)) :=
  validate_eq_ok.mpr ⟨_, rfl, rfl, checkFields_eq_nil_iff_fits.mpr
    ⟨fits_of_reservedFit h hfit, not_repeats_of_reservedFit hschema h hfit hchecked⟩⟩

end Again

end Validation

end DocStore
