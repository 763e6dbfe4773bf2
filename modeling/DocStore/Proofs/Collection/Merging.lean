import DocStore.Proofs.Collection.Rewriting
import DocStore.Proofs.Collection.Run
import DocStore.Proofs.Collection.Writing
/-!
# What an update merges

A patch passes four layers: reserved names are dropped, its fields are written over those of the
stored record, what is declared is kept with defaults for what is missing, and the record is laid
out anew. Together they come to one rule for each declared field, and to one order of the fields.

* `get?_mergedFields`: what is found after the first two layers.
* `updatedFrom_merged`: what is found in the record, and in which order, after all four.
* `update_merges`: whole calls, and that they leave all other records as they are.
-/

namespace DocStore

namespace Collection

variable {schema : Schema} {now : Json} {records : List Record} {r stored patch : Record}
  {ids ids' : IdSupply} {id name : String}

-- ---------------------------------------------------------------------------
-- Merged fields
-- ---------------------------------------------------------------------------

/-- Under a name that is not reserved, the patch wins over the stored record. -/
theorem get?_mergedFields (hpatch : Fields.Distinct patch) (hname : Record.isReserved name = false) :
    Fields.get? (mergedFields stored patch) name =
      (Fields.get? patch name).or (Fields.get? stored name) := by
  rw [mergedFields, Fields.get?_merge (Record.distinct_userFields hpatch),
    Record.get?_userFields hname, Record.get?_userFields hname]

/-- No reserved name reaches the check, neither from the patch nor from the stored record. -/
theorem get?_mergedFields_reserved (hpatch : Fields.Distinct patch)
    (hname : Record.isReserved name = true) :
    Fields.get? (mergedFields stored patch) name = none := by
  rw [mergedFields, Fields.get?_merge (Record.distinct_userFields hpatch),
    Record.get?_userFields_reserved hname, Record.get?_userFields_reserved hname, Option.or_none]

/-- The value of a declared field after an update: what the patch gives, else what the record gives
if the patch is silent, else the default. -/
def updatedValue (stored patch : Record) (name : String) (spec : FieldSpec) : Option Json :=
  ((Record.given? patch name).or
    (if Fields.has patch name then none else Record.given? stored name)).or spec.default?

/-- A declared field is kept as the rule for updated values says. -/
theorem sanitizedValue_mergedFields (hpatch : Fields.Distinct patch)
    (hname : Record.isReserved name = false) (spec : FieldSpec) :
    Validation.sanitizedValue (mergedFields stored patch) name spec =
      updatedValue stored patch name spec := by
  rw [Validation.sanitizedValue_eq, updatedValue, Record.given?,
    get?_mergedFields hpatch hname, Record.given?, Record.given?, Fields.has]
  cases Fields.get? patch name with
  | none => simp
  | some v => cases hv : v.isNull <;> simp [Option.filter, hv]

-- ---------------------------------------------------------------------------
-- The record that is stored
-- ---------------------------------------------------------------------------

/-- A record is what an update of a stored one by a patch makes of it. -/
structure UpdatedFrom (schema : Schema) (now : Json) (id : String) (stored patch r : Record) :
    Prop where
  id : Fields.get? r Record.idField = some (.string id)
  declared : ∀ name spec, schema.get? name = some spec → Record.isReserved name = false →
    Fields.get? r name = updatedValue stored patch name spec
  created : Fields.get? r Record.createdField =
    if schema.timestamps then some ((Fields.get? stored Record.createdField).getD now) else none
  updated : Fields.get? r Record.updatedField = if schema.timestamps then some now else none
  /-- The id first, the declared fields as they are declared, the timestamps last; nothing else. -/
  order : Fields.names r =
    Record.idField ::
        (Fields.names schema.fields).filter
          (fun name => !Record.isReserved name && Fields.has r name) ++
      if schema.timestamps then [Record.createdField, Record.updatedField] else []

/-- **The order of the fields**: the id, the caller's fields, the times if the schema keeps them. -/
theorem names_assemble (schema : Schema) (id : String) (fields : Record) (created updated : Json) :
    Fields.names (Record.assemble id fields (stamp schema created) (stamp schema updated)) =
      Record.idField :: Fields.names (Record.userFields fields) ++
        if schema.timestamps then [Record.createdField, Record.updatedField] else [] := by
  unfold Record.assemble stamp
  cases schema.timestamps <;> simp [Fields.names, Record.optionalField]

/-- The caller's fields of a sanitized record stand in the order of their declaration. -/
theorem names_userFields_sanitizeFields (schema : Schema) (input : Record) :
    Fields.names (Record.userFields (Validation.sanitizeFields schema input)) =
      (Fields.names schema.fields).filter fun name =>
        Fields.has (Record.userFields (Validation.sanitizeFields schema input)) name := by
  refine Fields.names_eq_filter schema.distinct ?_
  exact (List.filter_sublist.map Prod.fst).trans (Validation.names_sanitizeFields schema input)

/-- A caller's field is one that the record has and that is not reserved. -/
theorem has_userFields (r : Record) (name : String) :
    Fields.has (Record.userFields r) name = (!Record.isReserved name && Fields.has r name) := by
  rw [Fields.has, Fields.has]
  cases hname : Record.isReserved name with
  | true => rw [Record.get?_userFields_reserved hname]; rfl
  | false => rw [Record.get?_userFields hname]; rfl

/-- **One rule for each field, and one order**, for every record a patch is merged into. -/
theorem updatedFrom_merged (hpatch : Fields.Distinct patch) (hid : Record.id? stored = some id)
    (h : merged schema now records stored patch ids = (.ok r, ids')) :
    UpdatedFrom schema now id stored patch r := by
  obtain ⟨fields, id', created, hkept, hfields, rfl, rfl⟩ := merged_eq_ok h
  rw [keptId, hid] at hkept
  obtain rfl : id = id' := (Prod.mk.inj hkept).1
  obtain ⟨input, hinput, rfl, -⟩ := Validation.validate_eq_ok.mp hfields
  obtain rfl := Json.object.inj hinput
  refine ⟨Record.get?_assemble_id .., ?_, Record.get?_assemble_created ..,
    Record.get?_assemble_updated .., ?_⟩
  · intro name spec hspec hname
    rw [Record.get?_assemble (h := hname), Validation.get?_sanitizeFields, hspec, Option.bind_some,
      sanitizedValue_mergedFields hpatch hname]
  · rw [names_assemble, names_userFields_sanitizeFields]
    -- what is left is that the record has a caller's field exactly if its sanitized fields do
    congr 2
    refine List.filter_congr fun name _ => ?_
    rw [← Record.userFields_assemble, has_userFields]

-- ---------------------------------------------------------------------------
-- Whole calls
-- ---------------------------------------------------------------------------

/-- What the place of the first record of an id says. -/
theorem findIdx?_id_eq_some {i : Nat}
    (h : (records.findIdx? fun r => Record.id? r == some id) = some i) :
    Record.id? (records.getD i []) = some id ∧
      ∀ j other, j < i → records[j]? = some other → Record.id? other ≠ some id := by
  obtain ⟨hi, hid, hbefore⟩ := List.findIdx?_eq_some_iff_getElem.mp h
  constructor
  · rw [List.getD_eq_getElem?_getD, List.getElem?_eq_getElem hi, Option.getD_some]
    exact beq_iff_eq.mp hid
  · intro j other hj hother heq
    obtain ⟨hlt, rfl⟩ := List.getElem?_eq_some_iff.mp hother
    exact hbefore j hj (beq_iff_eq.mpr heq)

/-- **An update that answers a record merged the patch into the first one of the id**, and left the
records at all other places as they were. -/
theorem update_merges {c : Collection} {w : World} (hpatch : Fields.Distinct patch)
    (h : (c.perform w (.update id (.object patch))).answer = .ok (.record (some r))) :
    ∃ records i stored, (c.load w).answer = .ok records ∧
      records[i]? = some stored ∧ Record.id? stored = some id ∧
      (∀ j other, j < i → records[j]? = some other → Record.id? other ≠ some id) ∧
      (c.perform w (.update id (.object patch))).collection.state = .loaded (records.set i r) ∧
      UpdatedFrom c.schema w.now id stored patch r := by
  obtain ⟨records, change, hload, hresult, hanswer⟩ := decision_of_answer h
  obtain ⟨made, hmade, rfl⟩ := ofStep_eq_ok hresult
  rcases updateStep_eq_ok hmade with ⟨-, rfl⟩ | ⟨i, s, hfirst, hmerged, rfl⟩
  · cases hanswer
  · obtain rfl : s = r := Option.some.inj (Answer.record.inj hanswer)
    -- the first record with the id is the one that is updated
    obtain ⟨hid, hbefore⟩ := findIdx?_id_eq_some hfirst
    exact ⟨records, i, records.getD i [], hload, getElem?_of_findIdx? hfirst, hid, hbefore,
      state_of_answer h hload hresult, updatedFrom_merged hpatch hid hmerged⟩

namespace Sample

/-- A note with a title, a text and a place. -/
def note : Record :=
  [("_id", .string "n"), ("title", .string "old"), ("text", .string "a"), ("place", .string "here")]

/-- Only titles have a default. -/
def notes : Collection :=
  { unloaded "notes"
      (((Schema.empty true).add "title" ⟨.string, false, some (.string "new"), false, false⟩).add
        "text" (.plain .string) |>.add "place" (.plain .string)) "notes.json" with
    state := .loaded [[("_id", .string "m")], note] }

/-- Takes the title away and writes a text, and what is not declared or not for callers to write. -/
def rewording : Record :=
  [("color", .string "red"), ("text", .string "b"), ("title", .null), ("_id", .string "m")]

end Sample

/-- A null in the patch leaves the default, and what the patch does not name is kept. -/
theorem update_merges_rewording :
    ∃ r, (Sample.notes.perform Sample.world (.update "n" (.object Sample.rewording))).answer =
        .ok (.record (some r)) ∧
      (Sample.notes.perform Sample.world (.update "n" (.object Sample.rewording))).collection.state =
        .loaded [[("_id", .string "m")], r] ∧
      Fields.get? r "title" = some (.string "new") ∧ Fields.get? r "text" = some (.string "b") ∧
      Fields.get? r "place" = some (.string "here") ∧
      Fields.names r = ["_id", "title", "text", "place", "createdAt", "updatedAt"] := by
  have hpatch : Fields.Distinct Sample.rewording := by
    simp [Fields.Distinct, Fields.names, Sample.rewording]
  obtain ⟨r, hanswer⟩ : ∃ r,
      (Sample.notes.perform Sample.world (.update "n" (.object Sample.rewording))).answer =
        .ok (.record (some r)) := ⟨_, rfl⟩
  obtain ⟨records, i, stored, hload, hi, hid, hbefore, hstate, hupdated⟩ :=
    update_merges hpatch hanswer
  obtain rfl : [[("_id", .string "m")], Sample.note] = records := Except.ok.inj hload
  -- the second of the two records is the one with this id
  obtain ⟨rfl, rfl⟩ : 1 = i ∧ Sample.note = stored := by
    rcases i with _ | _ | i
    · rw [← Option.some.inj hi] at hid
      exact absurd hid (by decide)
    · exact ⟨rfl, Option.some.inj hi⟩
    · cases hi
  have htitle : Fields.get? r "title" = some (.string "new") :=
    hupdated.declared "title" _ rfl rfl
  have htext : Fields.get? r "text" = some (.string "b") := hupdated.declared "text" _ rfl rfl
  have hplace : Fields.get? r "place" = some (.string "here") :=
    hupdated.declared "place" _ rfl rfl
  have horder : Fields.names r = Record.idField ::
      (["title", "text", "place"].filter
        fun name => !Record.isReserved name && Fields.has r name) ++
        ["createdAt", "updatedAt"] := hupdated.order
  have hkept : ∀ name ∈ ["title", "text", "place"],
      (!Record.isReserved name && Fields.has r name) = true := by
    simp [Record.isReserved, Record.reservedFields, Record.createdField, Record.updatedField,
      Record.idField, Fields.has, htitle, htext, hplace]
  refine ⟨r, hanswer, hstate, htitle, htext, hplace, ?_⟩
  rw [horder, List.filter_eq_self.mpr hkept]
  rfl

end Collection

end DocStore
