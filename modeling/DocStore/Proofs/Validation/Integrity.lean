import DocStore.Proofs.Json.Equality
import DocStore.Proofs.RecordFile
import DocStore.Proofs.Validation.Check
/-!
# Records that stay free of issues

What every write keeps up, so that the scan of a stored collection finds nothing. A write knows the
record it replaces by its id and looks at the others from the new record's side; the scan knows a
record by its place and looks from every side. `Kept` is symmetric in the records and says both.

* `Kept.append`, `Kept.set`, `Kept.eraseIdx`: the three ways to change kept records.
* `Kept.checkIntegrity`: kept records have no issues.
* `Kept.consistent`: what that means for each field and each pair of records.
-/

namespace DocStore.Validation

/-- A record as it is stored: it has an id, and its own fields are sanitized and break no rule. -/
structure Stored (schema : Schema) (r : Record) : Prop where
  wellFormed : Json.WellFormed (.object r)
  id : (Record.id? r).isSome
  sanitized : sanitizeFields schema (Record.userFields r) = Record.userFields r
  checked : checkFields schema (Record.userFields r) [] = .ok []

/-- Two records that may stand in one collection. -/
def Beside (schema : Schema) (a b : Record) : Prop :=
  Record.id? a ≠ Record.id? b ∧ Apart schema a b ∧ Apart schema b a

/-- Records as operations leave them. -/
structure Kept (schema : Schema) (records : List Record) : Prop where
  stored : ∀ r ∈ records, Stored schema r
  beside : records.Pairwise (Beside schema)

variable {schema : Schema} {records : List Record}

-- ---------------------------------------------------------------------------
-- Pairs of records
-- ---------------------------------------------------------------------------

theorem Beside.symm {a b : Record} (h : Beside schema a b) : Beside schema b a :=
  ⟨h.1.symm, h.2.2, h.2.1⟩

/-- Being apart may be seen from either side. -/
theorem Apart.symm {a b : Record} (ha : Json.WellFormed (.object a))
    (hb : Json.WellFormed (.object b)) (h : Apart schema a b) : Apart schema b a := by
  intro name spec hmem hcompared v w hv hw
  rw [Json.wellFormed_object] at ha hb
  have hvwf := hb.2 _ (Fields.mem_of_get? hv)
  have hwwf := ha.2 _ (Fields.mem_of_get? hw)
  rw [Json.sameValue_comm hwwf hvwf]
  exact h name spec hmem hcompared w v hw hv

/-- Only the declared fields count for being apart. -/
theorem Apart.of_get? {a a' b : Record} (h : Apart schema a b)
    (hget : ∀ name, schema.declares name = true → Fields.get? a' name = Fields.get? a name) :
    Apart schema a' b := by
  intro name spec hmem hcompared v w hv hw
  have hdeclared : schema.declares name = true := by
    rw [Schema.declares, Schema.get?_of_mem hmem]
    rfl
  rw [hget name hdeclared] at hv
  exact h name spec hmem hcompared v w hv hw

/-- Any two places of kept records. -/
theorem Kept.beside_getElem? (h : Kept schema records) {i j : Nat} (hij : i ≠ j) {a b : Record}
    (ha : records[i]? = some a) (hb : records[j]? = some b) : Beside schema a b := by
  obtain ⟨hi, rfl⟩ := List.getElem?_eq_some_iff.mp ha
  obtain ⟨hj, rfl⟩ := List.getElem?_eq_some_iff.mp hb
  have hpairs := List.pairwise_iff_getElem.mp h.beside
  rcases Nat.lt_or_gt_of_ne hij with hlt | hgt
  · exact hpairs i j hi hj hlt
  · exact (hpairs j i hj hi hgt).symm

-- ---------------------------------------------------------------------------
-- The three ways to change records
-- ---------------------------------------------------------------------------

theorem kept_nil : Kept schema [] :=
  ⟨fun _ h => absurd h List.not_mem_nil, List.Pairwise.nil⟩

/-- A record that may stand beside all others can be added. -/
theorem Kept.append (h : Kept schema records) {r : Record} (hr : Stored schema r)
    (hbeside : ∀ other ∈ records, Beside schema r other) : Kept schema (records ++ [r]) := by
  refine ⟨Record.forall_append h.stored hr, ?_⟩
  rw [List.pairwise_append]
  refine ⟨h.beside, List.pairwise_singleton _ _, ?_⟩
  intro a ha b hb
  rw [List.mem_singleton.mp hb]
  exact (hbeside a ha).symm

/-- A record that may stand beside all others can take the place of one. -/
theorem Kept.set (h : Kept schema records) {i : Nat} {r : Record} (hr : Stored schema r)
    (hbeside : ∀ j other, j ≠ i → records[j]? = some other → Beside schema r other) :
    Kept schema (records.set i r) := by
  refine ⟨Record.forall_set h.stored hr i, ?_⟩
  rw [List.pairwise_iff_getElem]
  intro j k hj hk hjk
  rw [List.length_set] at hj hk
  rw [List.getElem_set, List.getElem_set]
  have hjs := List.getElem?_eq_getElem hj
  have hks := List.getElem?_eq_getElem hk
  -- of two places, at most one is that of the new record
  by_cases hij : i = j
  · have hik : i ≠ k := by omega
    rw [if_pos hij, if_neg hik]
    exact hbeside k _ (Ne.symm hik) hks
  · rw [if_neg hij]
    by_cases hik : i = k
    · rw [if_pos hik]
      exact (hbeside j _ (Ne.symm hij) hjs).symm
    · rw [if_neg hik]
      exact h.beside_getElem? (by omega) hjs hks

theorem Kept.eraseIdx (h : Kept schema records) (i : Nat) : Kept schema (records.eraseIdx i) :=
  ⟨Record.forall_eraseIdx h.stored i, h.beside.sublist (List.eraseIdx_sublist records i)⟩

-- ---------------------------------------------------------------------------
-- No issues
-- ---------------------------------------------------------------------------

theorem Kept.nodup_ids (h : Kept schema records) : (records.map Record.id?).Nodup := by
  rw [List.nodup_iff_pairwise_ne, List.pairwise_map]
  exact h.beside.imp fun hb => hb.1

/-- The scan finds nothing wrong with the id of a kept record. -/
theorem Kept.idMessages (h : Kept schema records) {r : Record} (hr : r ∈ records) :
    idMessages records r = [] := by
  obtain ⟨id, hid⟩ := Option.isSome_iff_exists.mp (h.stored r hr).id
  -- the record itself is the only one with its id
  have hcopies : (records.countP fun other => Record.id? other == some id) ≤ 1 := by
    have hcount := List.nodup_iff_count.mp h.nodup_ids (some id)
    rw [List.count, List.countP_map] at hcount
    exact hcount
  rw [Validation.idMessages, hid]
  dsimp only
  rw [if_neg (by omega)]

/-- A stored record has declared fields and those the store manages. -/
theorem Stored.declared {r : Record} (h : Stored schema r) {name : String}
    (hname : name ∈ Fields.names r) :
    Record.isReserved name = true ∨ schema.declares name = true := by
  obtain ⟨e, he, rfl⟩ := List.mem_map.mp hname
  cases hreserved : Record.isReserved e.1 with
  | true => exact Or.inl rfl
  | false =>
    have huser : e ∈ Record.userFields r := List.mem_filter.mpr ⟨he, by rw [hreserved]; rfl⟩
    rw [← h.sanitized] at huser
    exact Or.inr (declares_of_mem_sanitizeFields (List.mem_map_of_mem huser))

/-- The scan finds no unexpected field in a stored record. -/
theorem Stored.unexpectedFields {r : Record} (h : Stored schema r) :
    unexpectedFields schema r = [] := by
  rw [Validation.unexpectedFields, List.map_eq_nil_iff, List.filter_eq_nil_iff]
  intro name hname
  rcases h.declared hname with hreserved | hdeclared
  · simp [hreserved]
  · simp [hdeclared]

/-- A kept record breaks no rule beside records at other places. -/
theorem Kept.checkFields (h : Kept schema records) (hschema : schema.ReservedFree) {i : Nat}
    {r : Record} (hr : records[i]? = some r) {others : List Record}
    (hothers : ∀ other ∈ others, ∃ j, j ≠ i ∧ records[j]? = some other) :
    checkFields schema (Record.userFields r) others = .ok [] := by
  refine checkFields_eq_nil_iff.mpr ⟨(h.stored r (List.mem_of_getElem? hr)).checked, ?_⟩
  intro other hother
  obtain ⟨j, hji, hj⟩ := hothers other hother
  refine (h.beside_getElem? (Ne.symm hji) hr hj).2.1.of_get? ?_
  intro name hname
  exact Record.get?_userFields (hschema.isReserved hname) r

/-- The scan finds nothing wrong with the fields of a kept record. -/
theorem Kept.fieldMessages (h : Kept schema records) (hschema : schema.ReservedFree) {i : Nat}
    {r : Record} (hr : records[i]? = some r) : fieldMessages schema records i r = [] := by
  have hstored := h.stored r (List.mem_of_getElem? hr)
  have hchecked := h.checkFields hschema hr fun other hother =>
    List.mem_eraseIdx_iff_getElem?.mp hother
  rw [Validation.fieldMessages, hstored.sanitized, hchecked]
  rfl

/-- **Kept records have no issues.** -/
theorem Kept.checkIntegrity (h : Kept schema records) (hschema : schema.ReservedFree) :
    checkIntegrity schema records = [] := by
  rw [Validation.checkIntegrity, List.filterMap_eq_nil_iff]
  rintro ⟨r, i⟩ hmem
  have hr : records[i]? = some r := List.mk_mem_zipIdx_iff_getElem?.mp hmem
  have hmessages : recordMessages schema records i r = [] := by
    rw [recordMessages, h.idMessages (List.mem_of_getElem? hr),
      (h.stored r (List.mem_of_getElem? hr)).unexpectedFields, h.fieldMessages hschema hr]
    rfl
  dsimp only
  rw [hmessages]

/-- What it means that a stored collection has no issues. -/
structure Consistent (schema : Schema) (records : List Record) : Prop where
  id : ∀ r ∈ records, (Record.id? r).isSome
  distinct : (records.map Record.id?).Nodup
  declared : ∀ r ∈ records, ∀ name ∈ Fields.names r,
    Record.isReserved name = true ∨ schema.declares name = true
  required : ∀ r ∈ records, ∀ name spec, schema.get? name = some spec → spec.required = true →
    (Fields.get? r name).isSome
  type : ∀ r ∈ records, ∀ name spec, schema.get? name = some spec →
    ∀ v, Fields.get? r name = some v → spec.type.kind? = some v.kind
  reference : ∀ r ∈ records, ∀ name spec, schema.get? name = some spec → spec.reference = true →
    ∀ v, Fields.get? r name = some v → ∃ s : String, v = .string s ∧ s.length = idLength
  unique : ∀ i j : Nat, i ≠ j → ∀ a b : Record, records[i]? = some a → records[j]? = some b →
    ∀ name spec, schema.get? name = some spec → spec.unique = true →
      ∀ v w, Fields.get? a name = some v → Fields.get? b name = some w →
        Json.sameValue v w = false

/-- What is taken for an id is a text of its length. -/
theorem eq_string_of_isReference {v : Json} (h : isReference v = true) :
    ∃ s : String, v = .string s ∧ s.length = idLength := by
  cases v with
  | string s => exact ⟨s, rfl, by simpa [isReference] using h⟩
  | _ => simp [isReference] at h

/-- **Kept records are consistent.** -/
theorem Kept.consistent (h : Kept schema records) (hschema : schema.ReservedFree) :
    Consistent schema records := by
  have hfits : ∀ r ∈ records, Fits schema (Record.userFields r) := fun r hr =>
    fits_of_checkFields (h.stored r hr).checked
  -- the declared fields are the caller's own, so it does not matter where they are looked up
  have hget : ∀ {name spec}, schema.get? name = some spec → ∀ r : Record,
      Fields.get? (Record.userFields r) name = Fields.get? r name := by
    intro name spec hspec r
    refine Record.get?_userFields (hschema.isReserved ?_) r
    rw [Schema.declares, hspec]
    rfl
  refine ⟨fun r hr => (h.stored r hr).id, h.nodup_ids, ?_, ?_, ?_, ?_, ?_⟩
  · exact fun r hr name hname => (h.stored r hr).declared hname
  · intro r hr name spec hspec hrequired
    rw [← hget hspec r]
    exact (hfits r hr).required name spec (Fields.mem_of_get? hspec) hrequired
  · intro r hr name spec hspec v hv
    rw [← hget hspec r] at hv
    exact (hfits r hr).type name spec (Fields.mem_of_get? hspec) v hv
  · intro r hr name spec hspec hreference v hv
    rw [← hget hspec r] at hv
    exact eq_string_of_isReference
      ((hfits r hr).reference name spec (Fields.mem_of_get? hspec) hreference v hv)
  · intro i j hij a b ha hb name spec hspec hunique v w hv hw
    -- the value fits its type, so the field has one that can be compared
    have hcompared : isCompared spec = true := by
      have htype := (hfits a (List.mem_of_getElem? ha)).type name spec (Fields.mem_of_get? hspec) v
        (by rw [hget hspec a, hv])
      simp [isCompared, hunique, htype]
    exact (h.beside_getElem? hij ha hb).2.2 name spec (Fields.mem_of_get? hspec) hcompared w v hw hv

end DocStore.Validation
