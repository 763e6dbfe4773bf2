import Mathlib.Data.List.Basic
import DocStore.Proofs.Record
import DocStore.Validation
/-!
# Sanitized records

A sanitized record holds declared fields only, each with a value of its own or the default.

* `get?_sanitizeFields`: what is found in a sanitized record.
* `sanitizeFields_eq_iff`: which objects are sanitized to one record.
* `sanitizeFields_sanitizeFields`: sanitizing a second time changes nothing.
-/

namespace DocStore

namespace Schema

/-- Defaults are JSON values. -/
def WellFormed (schema : Schema) : Prop :=
  ∀ e ∈ schema.fields, ∀ v, e.2.default? = some v → v.WellFormed

/-- None of the fields the store manages is declared. -/
def ReservedFree (schema : Schema) : Prop :=
  ∀ name ∈ Record.reservedFields, schema.declares name = false

variable {schema : Schema}

theorem get?_of_mem {name : String} {spec : FieldSpec} (h : (name, spec) ∈ schema.fields) :
    schema.get? name = some spec :=
  (Fields.mem_iff_get? schema.distinct).mp h

/-- A declared name is not reserved, in such a schema. -/
theorem ReservedFree.isReserved (h : schema.ReservedFree) {name : String}
    (hname : schema.declares name = true) : Record.isReserved name = false := by
  rw [Bool.eq_false_iff]
  intro hreserved
  have hmem : name ∈ Record.reservedFields := by simpa [Record.isReserved] using hreserved
  rw [h name hmem] at hname
  exact absurd hname (by decide)

/-- The declared names are those of the fields. -/
theorem declares_of_mem_names {name : String} (h : name ∈ Fields.names schema.fields) :
    schema.declares name = true := by
  obtain ⟨e, he, rfl⟩ := List.mem_map.mp h
  rw [declares, get?_of_mem he]
  rfl

end Schema

/-- The value under a name, unless it is null. -/
def Record.given? (r : Record) (name : String) : Option Json :=
  (Fields.get? r name).filter fun v => !v.isNull

namespace Validation

variable {schema : Schema}

/-- A field is given its value, and its default if that is missing or null. -/
theorem sanitizedValue_eq (input : Record) (name : String) (spec : FieldSpec) :
    sanitizedValue input name spec = (Record.given? input name).or spec.default? := by
  rw [sanitizedValue, Record.given?]
  cases Fields.get? input name with
  | none => rfl
  | some v => cases hv : v.isNull <;> simp [Option.filter, hv]

/-- What is found under a name in a sanitized record. -/
theorem get?_sanitizeFields (schema : Schema) (input : Record) (name : String) :
    Fields.get? (sanitizeFields schema input) name =
      (schema.get? name).bind (sanitizedValue input name) :=
  Fields.get?_filterMap schema.distinct (sanitizedValue input) name

theorem names_sanitizeFields (schema : Schema) (input : Record) :
    (Fields.names (sanitizeFields schema input)).Sublist (Fields.names schema.fields) :=
  Fields.names_filterMap schema.fields (sanitizedValue input)

theorem declares_of_mem_sanitizeFields {input : Record} {name : String}
    (h : name ∈ Fields.names (sanitizeFields schema input)) : schema.declares name = true :=
  Schema.declares_of_mem_names ((names_sanitizeFields schema input).subset h)

/-- **Objects are sanitized to one record** exactly if each declared field has one value in both, its
own or the default. -/
theorem sanitizeFields_eq_iff {schema : Schema} {a b : Record} :
    sanitizeFields schema a = sanitizeFields schema b ↔
      ∀ name spec, schema.get? name = some spec →
        sanitizedValue a name spec = sanitizedValue b name spec := by
  constructor
  · intro h name spec hspec
    have hget := get?_sanitizeFields schema a name
    rw [h, get?_sanitizeFields, hspec, Option.bind_some, Option.bind_some] at hget
    exact hget.symm
  · intro h
    refine List.filterMap_congr fun e he => ?_
    exact congrArg (Option.map _) (h e.1 e.2 (Schema.get?_of_mem he))

/-- Sanitizing looks at declared names only. -/
theorem sanitizeFields_congr {schema : Schema} {a b : Record}
    (h : ∀ name, schema.declares name = true → Fields.get? a name = Fields.get? b name) :
    sanitizeFields schema a = sanitizeFields schema b := by
  refine sanitizeFields_eq_iff.mpr fun name spec hspec => ?_
  have hdeclared : schema.declares name = true := Option.isSome_iff_exists.mpr ⟨spec, hspec⟩
  rw [sanitizedValue, sanitizedValue, h name hdeclared]

/-- A field of a sanitized record is given what it was given before. -/
theorem sanitizedValue_sanitizeFields {input : Record} {name : String} {spec : FieldSpec}
    (h : schema.get? name = some spec) :
    sanitizedValue (sanitizeFields schema input) name spec = sanitizedValue input name spec := by
  rw [sanitizedValue, get?_sanitizeFields, h, Option.bind_some]
  cases hv : sanitizedValue input name spec with
  | none =>
    dsimp only
    unfold sanitizedValue at hv
    split at hv
    · split at hv
      · exact hv
      · simp at hv
    · exact hv
  | some v =>
    dsimp only
    split
    · -- a null is only ever left by a default that is null
      rename_i hnull
      unfold sanitizedValue at hv
      split at hv
      · split at hv
        · exact hv
        · rename_i hvalue
          rw [Option.some.inj hv] at hvalue
          exact absurd hnull hvalue
      · exact hv
    · rfl

/-- **Sanitizing a second time changes nothing.** -/
theorem sanitizeFields_sanitizeFields (schema : Schema) (input : Record) :
    sanitizeFields schema (sanitizeFields schema input) = sanitizeFields schema input := by
  have hsame : ∀ e ∈ schema.fields,
      (sanitizedValue (sanitizeFields schema input) e.1 e.2).map (fun v => (e.1, v)) =
        (sanitizedValue input e.1 e.2).map (fun v => (e.1, v)) := by
    intro e he
    rw [sanitizedValue_sanitizeFields (Schema.get?_of_mem he)]
  exact List.filterMap_congr hsame

theorem userFields_sanitizeFields (h : schema.ReservedFree) (input : Record) :
    Record.userFields (sanitizeFields schema input) = sanitizeFields schema input :=
  Record.userFields_of_not_reserved fun _ he =>
    h.isReserved (declares_of_mem_sanitizeFields (List.mem_map_of_mem he))

/-- A sanitized record is a JSON value. -/
theorem wellFormed_sanitizeFields (hschema : schema.WellFormed) {input : Record}
    (hinput : Json.WellFormed (.object input)) :
    Json.WellFormed (.object (sanitizeFields schema input)) := by
  rw [Json.wellFormed_object] at hinput ⊢
  refine ⟨List.Sublist.nodup (names_sanitizeFields schema input) schema.distinct, ?_⟩
  intro e he
  obtain ⟨d, hd, hvalue⟩ := List.mem_filterMap.mp he
  obtain ⟨v, hv, rfl⟩ := Option.map_eq_some_iff.mp hvalue
  unfold sanitizedValue at hv
  split at hv
  · rename_i given hgiven
    split at hv
    · exact hschema d hd v hv
    · obtain rfl := Option.some.inj hv
      exact hinput.2 _ (Fields.mem_of_get? hgiven)
  · exact hschema d hd v hv

end Validation

end DocStore
