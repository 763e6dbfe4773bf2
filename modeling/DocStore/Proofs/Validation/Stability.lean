import DocStore.Proofs.Validation.Check
/-!
# What validating reads

Of an object that is validated nothing counts but what it gives to the declared fields; a null gives
nothing. So the order of its fields makes no difference, nor does any other field. What comes out is
laid out as the schema is declared, and is a fixed point: an update validates again what an earlier
validation has stored.

* `GiveAlike`: objects that give the same to every declared field.
* `sanitize_stable`: sanitizing and validating, of two objects and of their own output.
-/

namespace DocStore.Validation

variable {schema : Schema} {a b input record : Record} {existing : List Record}
  {selfId : Option String} {raw : Json}

/-- The objects give the same values to the declared fields. -/
def GiveAlike (schema : Schema) (a b : Record) : Prop :=
  ∀ name, schema.declares name = true → Record.given? a name = Record.given? b name

theorem sanitize_object (schema : Schema) (input : Record) :
    sanitize schema (.object input) = .ok (sanitizeFields schema input) := rfl

theorem GiveAlike.sanitizeFields_eq (h : GiveAlike schema a b) :
    sanitizeFields schema a = sanitizeFields schema b := by
  refine sanitizeFields_eq_iff.mpr fun name spec hspec => ?_
  rw [sanitizedValue_eq, sanitizedValue_eq, h name (Option.isSome_iff_exists.mpr ⟨spec, hspec⟩)]

/-- What is answered depends on the sanitized record alone. -/
theorem validate_congr (h : sanitizeFields schema a = sanitizeFields schema b)
    (existing : List Record) (selfId : Option String) :
    validate schema (.object a) existing selfId = validate schema (.object b) existing selfId := by
  rw [validate_object, validate_object, h]

/-- The fields of a sanitized record stand as they are declared. -/
theorem names_sanitizeFields_eq (schema : Schema) (input : Record) :
    Fields.names (sanitizeFields schema input) =
      (Fields.names schema.fields).filter (Fields.has (sanitizeFields schema input) ·) :=
  Fields.names_eq_filter schema.distinct (names_sanitizeFields schema input)

/-- **An accepted record is accepted again**, as it is. -/
theorem validate_of_validate (h : validate schema raw existing selfId = .ok record) :
    validate schema (.object record) existing selfId = .ok record := by
  obtain ⟨input, rfl, rfl, -⟩ := validate_eq_ok.mp h
  rw [validate_congr (sanitizeFields_sanitizeFields schema input), h]

/-- **Validating reads declared fields only, and leaves what it has accepted.** Objects that give
the same to each declared field have one sanitized record and are answered alike, beside any stored
records and for any record to be replaced; the sanitized record is the same exactly if each declared
field comes to the same value, given or by default. An object is always sanitized: to the fields
that are given or have a default, in the order of declaration. What was sanitized is sanitized to
itself, and what was accepted is accepted again. -/
theorem sanitize_stable (schema : Schema) :
    (∀ a b, GiveAlike schema a b →
      sanitize schema (.object a) = sanitize schema (.object b) ∧
        ∀ existing selfId,
          validate schema (.object a) existing selfId =
            validate schema (.object b) existing selfId) ∧
    (∀ a b, sanitize schema (.object a) = sanitize schema (.object b) ↔
      ∀ name spec, schema.get? name = some spec →
        (Record.given? a name).or spec.default? = (Record.given? b name).or spec.default?) ∧
    (∀ input, ∃ record, sanitize schema (.object input) = .ok record ∧
      Fields.names record = (Fields.names schema.fields).filter (Fields.has record ·) ∧
      (∀ name, Fields.get? record name =
        (schema.get? name).bind fun spec => (Record.given? input name).or spec.default?) ∧
      sanitize schema (.object record) = .ok record) ∧
    ∀ raw existing selfId record, validate schema raw existing selfId = .ok record →
      sanitize schema raw = .ok record ∧
        validate schema (.object record) existing selfId = .ok record := by
  refine ⟨?_, ?_, ?_, ?_⟩
  · intro a b h
    refine ⟨?_, validate_congr h.sanitizeFields_eq⟩
    rw [sanitize_object, sanitize_object, h.sanitizeFields_eq]
  · intro a b
    rw [sanitize_object, sanitize_object, Except.ok.injEq, sanitizeFields_eq_iff]
    simp only [sanitizedValue_eq]
  · intro input
    refine ⟨sanitizeFields schema input, rfl, names_sanitizeFields_eq schema input, ?_, ?_⟩
    · intro name
      rw [get?_sanitizeFields]
      exact congrArg _ (funext (sanitizedValue_eq input name))
    · rw [sanitize_object, sanitizeFields_sanitizeFields]
  · intro raw existing selfId record h
    obtain ⟨input, rfl, rfl, -⟩ := validate_eq_ok.mp h
    exact ⟨rfl, validate_of_validate h⟩

namespace Sample

/-- A role that is filled in, a name, and an age. -/
def people : Schema :=
  (((Schema.empty true).add "role" ⟨.string, false, some (.string "member"), false, false⟩).add
    "name" ⟨.string, true, none, true, false⟩).add "age" (.plain .number)

def ann : Record := [("name", .string "Ann"), ("age", .int 30)]

/-- The same with fields in another order, one that is not declared, and a null. -/
def annAgain : Record :=
  [("age", .int 30), ("nick", .string "A."), ("role", .null), ("name", .string "Ann")]

def annStored : Record :=
  [("role", .string "member"), ("name", .string "Ann"), ("age", .int 30)]

end Sample

/-- One person in two forms, and stored: refused where the name is taken, accepted where it is not,
and accepted again. -/
theorem sanitize_stable_people :
    GiveAlike Sample.people Sample.ann Sample.annAgain ∧
      validate Sample.people (.object Sample.annAgain) [Sample.annStored] none =
        .error (.validation [.notUnique "name" (.string "Ann")]) ∧
      validate Sample.people (.object Sample.annAgain) [] none = .ok Sample.annStored ∧
      validate Sample.people (.object Sample.annStored) [] none = .ok Sample.annStored := by
  obtain ⟨halike, -, -, haccepted⟩ := sanitize_stable Sample.people
  have hgive : GiveAlike Sample.people Sample.ann Sample.annAgain := by
    intro name hname
    have hmem : name ∈ ["role", "name", "age"] := by
      obtain ⟨spec, hspec⟩ := Option.isSome_iff_exists.mp hname
      exact Fields.mem_names_of_get? hspec
    simp only [List.mem_cons, List.not_mem_nil, or_false] at hmem
    rcases hmem with rfl | rfl | rfl <;> rfl
  obtain ⟨-, hanswers⟩ := halike _ _ hgive
  have hstored : validate Sample.people (.object Sample.annAgain) [] none =
      .ok Sample.annStored := (hanswers [] none).symm
  exact ⟨hgive, (hanswers [Sample.annStored] none).symm, hstored,
    (haccepted _ [] none _ hstored).2⟩

end DocStore.Validation
