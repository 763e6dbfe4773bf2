import DocStore.Proofs.Collection.Effect
import DocStore.Proofs.Validation.Integrity
/-!
# What rewriting records keeps up

The record a save or an update stores, taken apart into its id, its accepted fields and its
timestamps, and what the four rewrites leave true of all records.

* `Rewrites.wellFormed`: records stay JSON values.
* `Rewrites.kept`: records stay free of issues, as long as no id is handed out that is taken.
-/

namespace DocStore.Collection

variable {schema : Schema} {now raw : Json} {records records' : List Record} {r : Record}
  {ids ids' : IdSupply}

-- ---------------------------------------------------------------------------
-- Stored records taken apart
-- ---------------------------------------------------------------------------

/-- A new record is laid out from accepted fields, an id and the time of the call. -/
theorem inserted_eq_ok (h : inserted schema now records raw ids = (.ok r, ids')) :
    ∃ fields id, Validation.validate schema raw records none = .ok fields ∧
      newId records raw ids = (.ok id, ids') ∧
      r = Record.assemble id fields (stamp schema now) (stamp schema now) := by
  unfold inserted at h
  split at h
  · simp at h
  · rename_i fields hfields
    split at h
    · simp at h
    · rename_i id ids'' hid
      rw [Prod.mk.injEq, Except.ok.injEq] at h
      exact ⟨fields, id, hfields, h.2 ▸ hid, h.1.symm⟩

/-- Accepted fields and an id are all it takes to make a new record. -/
theorem inserted_of_validate {fields : Record} {id : String}
    (hfields : Validation.validate schema raw records none = .ok fields)
    (hid : newId records raw ids = (.ok id, ids')) :
    inserted schema now records raw ids =
      (.ok (Record.assemble id fields (stamp schema now) (stamp schema now)), ids') := by
  rw [inserted, hfields]
  dsimp only
  rw [hid]

/-- A merged record is laid out from fields that were accepted against all other records, the id
that is kept, and the time of creation as it is stored. -/
theorem merged_eq_ok {existing patch : Record}
    (h : merged schema now records existing patch ids = (.ok r, ids')) :
    ∃ fields id created, keptId existing ids = (id, ids') ∧
      Validation.validate schema (.object (mergedFields existing patch)) records (some id) =
        .ok fields ∧
      created = (Fields.get? existing Record.createdField).getD now ∧
      r = Record.assemble id fields (stamp schema created) (stamp schema now) := by
  unfold merged at h
  cases hid : keptId existing ids with
  | mk id ids'' =>
    rw [hid] at h
    dsimp only at h
    split at h
    · simp at h
    · rename_i fields hfields
      rw [Prod.mk.injEq, Except.ok.injEq] at h
      exact ⟨fields, id, _, by rw [h.2], hfields, rfl, h.1.symm⟩

/-- Accepted fields are all it takes to merge a record, since an id is always found. -/
theorem merged_of_validate {existing patch fields : Record} {id : String}
    (hid : keptId existing ids = (id, ids'))
    (hfields : Validation.validate schema (.object (mergedFields existing patch)) records (some id) =
      .ok fields) :
    merged schema now records existing patch ids =
      (.ok (Record.assemble id fields
        (stamp schema ((Fields.get? existing Record.createdField).getD now)) (stamp schema now)),
        ids') := by
  rw [merged, hid]
  dsimp only
  rw [hfields]

/-- A merged record repeats no name. -/
theorem distinct_merged {existing patch : Record}
    (h : merged schema now records existing patch ids = (.ok r, ids')) : Fields.Distinct r := by
  obtain ⟨fields, id, created, -, hfields, -, rfl⟩ := merged_eq_ok h
  obtain ⟨input, -, rfl, -⟩ := Validation.validate_eq_ok.mp hfields
  exact Record.distinct_assemble
    (List.Sublist.nodup (Validation.names_sanitizeFields schema input) schema.distinct)

/-- The caller leaves the id to the store: there is none in the value, or it is null. -/
def LeavesId (raw : Json) : Prop :=
  ∀ v, (raw.asObject?.bind fun fields => Fields.get? fields Record.idField) = some v → v = .null

/-- The id of a new record is the next of the supply, or one that no record has. -/
theorem newId_eq_ok {id : String} (h : newId records raw ids = (.ok id, ids')) :
    LeavesId raw ∧ (id, ids') = ids.next ∨
      ¬ LeavesId raw ∧ ∀ r ∈ records, Record.id? r ≠ some id := by
  have hnext : ((.ok ids.next.1, ids.next.2) : Except StoreError String × IdSupply) =
      (.ok id, ids') → (id, ids') = ids.next := by
    intro heq
    rw [Prod.mk.injEq, Except.ok.injEq] at heq
    exact Prod.ext heq.1.symm heq.2.symm
  unfold newId at h
  split at h
  · rename_i hnone
    refine Or.inl ⟨?_, hnext h⟩
    intro v hv
    rw [hnone] at hv
    cases hv
  · rename_i hnull
    refine Or.inl ⟨?_, hnext h⟩
    intro v hv
    exact (Option.some.inj (hnull.symm.trans hv)).symm
  · rename_i given hgiven
    split at h
    · simp at h
    · split at h
      · simp at h
      · -- only an id that the caller gives is compared with those of the records
        rename_i htaken
        rw [Prod.mk.injEq, Except.ok.injEq] at h
        refine Or.inr ⟨fun hleaves => by simpa using hleaves _ hgiven, ?_⟩
        rw [← h.1]
        simpa using htaken
  · simp at h

/-- A time that a record carries is the one it was given. -/
theorem eq_of_stamp {v w : Json} (h : stamp schema v = some w) : w = v := by
  unfold stamp at h
  split at h
  · exact (Option.some.inj h).symm
  · simp at h

-- ---------------------------------------------------------------------------
-- JSON values
-- ---------------------------------------------------------------------------

/-- JSON objects merge into one. -/
theorem wellFormed_mergedFields {existing patch : Record}
    (hexisting : Json.WellFormed (.object existing)) (hpatch : Json.WellFormed (.object patch)) :
    Json.WellFormed (.object (mergedFields existing patch)) := by
  have hown := Json.wellFormed_object.mp (Record.wellFormed_userFields hexisting)
  have hnew := Json.wellFormed_object.mp (Record.wellFormed_userFields hpatch)
  rw [Json.wellFormed_object]
  exact ⟨Fields.distinct_merge hown.1 _,
    Fields.forall_merge (P := fun v : Json => v.WellFormed) hown.2 hnew.2⟩

/-- What is accepted of a JSON value is one. -/
theorem wellFormed_validate (hschema : schema.WellFormed) (hraw : raw.WellFormed)
    {selfId : Option String} {fields : Record}
    (h : Validation.validate schema raw records selfId = .ok fields) :
    Json.WellFormed (.object fields) := by
  obtain ⟨input, rfl, rfl, -⟩ := Validation.validate_eq_ok.mp h
  exact Validation.wellFormed_sanitizeFields hschema hraw

/-- A new record is a JSON value. -/
theorem wellFormed_inserted (hschema : schema.WellFormed) (hnow : now.WellFormed)
    (hraw : raw.WellFormed) (h : inserted schema now records raw ids = (.ok r, ids')) :
    Json.WellFormed (.object r) := by
  obtain ⟨fields, id, hfields, -, rfl⟩ := inserted_eq_ok h
  exact Record.wellFormed_assemble (wellFormed_validate hschema hraw hfields)
    (fun v hv => eq_of_stamp hv ▸ hnow) fun v hv => eq_of_stamp hv ▸ hnow

/-- A merged record is a JSON value. -/
theorem wellFormed_merged (hschema : schema.WellFormed) (hnow : now.WellFormed)
    {existing patch : Record} (hexisting : Json.WellFormed (.object existing))
    (hpatch : Json.WellFormed (.object patch))
    (h : merged schema now records existing patch ids = (.ok r, ids')) :
    Json.WellFormed (.object r) := by
  obtain ⟨fields, id, created, -, hfields, hcreated, rfl⟩ := merged_eq_ok h
  have hcreatedWf : created.WellFormed := by
    rw [hcreated]
    -- the time of creation is the stored value, whatever it is, or else the time of the call
    cases hget : Fields.get? existing Record.createdField with
    | none => exact hnow
    | some v => exact (Json.wellFormed_object.mp hexisting).2 _ (Fields.mem_of_get? hget)
  exact Record.wellFormed_assemble
    (wellFormed_validate hschema (wellFormed_mergedFields hexisting hpatch) hfields)
    (fun v hv => eq_of_stamp hv ▸ hcreatedWf) fun v hv => eq_of_stamp hv ▸ hnow

/-- **Rewritten records are JSON values again.** -/
theorem Rewrites.wellFormed (hschema : schema.WellFormed) (hnow : now.WellFormed)
    (h : RecordFile.WellFormed records)
    (hrewrites : Rewrites schema now records ids records' ids') :
    RecordFile.WellFormed records' := by
  cases hrewrites with
  | append hraw hinserted =>
    exact Record.forall_append h (wellFormed_inserted hschema hnow hraw hinserted)
  | set hi hpatch hmerged =>
    exact Record.forall_set h
      (wellFormed_merged hschema hnow (h _ (List.mem_of_getElem? hi)) hpatch hmerged) _
  | setLast hi hpatch hmerged =>
    exact Record.forall_set h (Record.wellFormed_reservedLast
      (wellFormed_merged hschema hnow (h _ (List.mem_of_getElem? hi)) hpatch hmerged)) _
  | erase i => exact Record.forall_eraseIdx h i

-- ---------------------------------------------------------------------------
-- No issues
-- ---------------------------------------------------------------------------

/-- No id that is taken from the supply between these two states is that of a record. -/
def HandsOutNew (records : List Record) (ids ids' : IdSupply) : Prop :=
  ∀ k, ids.used ≤ k → k < ids'.used → ∀ r ∈ records, Record.id? r ≠ some (ids.id k)

/-- A new id is not that of a record, as long as the supply hands out none that is. -/
theorem not_taken_of_newId (hnew : HandsOutNew records ids ids') {id : String}
    (h : newId records raw ids = (.ok id, ids')) : ∀ r ∈ records, Record.id? r ≠ some id := by
  rcases newId_eq_ok h with ⟨-, hnext⟩ | ⟨-, hfree⟩
  · obtain ⟨rfl, rfl⟩ := Prod.mk.inj hnext
    exact hnew ids.used (Nat.le_refl _) (Nat.lt_succ_self _)
  · exact hfree

/-- The caller's fields of a record that was accepted are its accepted fields. -/
theorem userFields_assemble_of_validate (hschema : schema.ReservedFree) {selfId : Option String}
    {fields : Record} (h : Validation.validate schema raw records selfId = .ok fields) (id : String)
    (created updated : Option Json) :
    Record.userFields (Record.assemble id fields created updated) = fields := by
  obtain ⟨input, -, rfl, -⟩ := Validation.validate_eq_ok.mp h
  rw [Record.userFields_assemble, Validation.userFields_sanitizeFields hschema]

/-- A record that holds accepted fields beside an id is fit to be stored. -/
theorem stored_of_validate {selfId : Option String}
    {fields : Record} (h : Validation.validate schema raw records selfId = .ok fields)
    (hwf : Json.WellFormed (.object r)) (huser : Record.userFields r = fields) {id : String}
    (hid : Record.id? r = some id) : Validation.Stored schema r := by
  obtain ⟨input, -, rfl, hchecked⟩ := Validation.validate_eq_ok.mp h
  refine ⟨hwf, by rw [hid]; rfl, ?_, ?_⟩
  · rw [huser, Validation.sanitizeFields_sanitizeFields]
  · rw [huser]
    exact (Validation.checkFields_eq_nil_iff.mp hchecked).1

/-- A record that was accepted is apart from those it was compared with. -/
theorem apart_of_validate (hschema : schema.ReservedFree) {selfId : Option String}
    {fields : Record} (h : Validation.validate schema raw records selfId = .ok fields)
    (huser : Record.userFields r = fields) {other : Record}
    (hother : other ∈ Validation.othersThan selfId records) : Validation.Apart schema r other := by
  obtain ⟨input, -, rfl, hchecked⟩ := Validation.validate_eq_ok.mp h
  refine ((Validation.checkFields_eq_nil_iff.mp hchecked).2 other hother).of_get? ?_
  intro name hname
  rw [← huser, Record.get?_userFields (hschema.isReserved hname)]

/-- **Replacing a record by one that was merged with it keeps all records consistent**, in whatever
order its fields are. -/
theorem kept_set_merged (hschema : schema.ReservedFree) (hkept : Validation.Kept schema records)
    {i : Nat} {existing patch : Record} (hi : records[i]? = some existing)
    (hmerged : merged schema now records existing patch ids = (.ok r, ids'))
    {s : Record} (hwf : Json.WellFormed (.object s)) (hid : Record.id? s = Record.id? r)
    (huser : Record.userFields s = Record.userFields r) :
    Validation.Kept schema (records.set i s) := by
  obtain ⟨fields, id, created, hkeptId, hfields, -, rfl⟩ := merged_eq_ok hmerged
  rw [userFields_assemble_of_validate hschema hfields] at huser
  rw [Record.id?_assemble] at hid
  have hexisting : Record.id? existing = some id := by
    obtain ⟨own, hown⟩ :=
      Option.isSome_iff_exists.mp (hkept.stored existing (List.mem_of_getElem? hi)).id
    rw [keptId, hown] at hkeptId
    rw [hown, (Prod.mk.inj hkeptId).1]
  refine hkept.set (stored_of_validate hfields hwf huser hid) ?_
  intro j other hji hj
  -- the replaced record is the only one with its id, so the others are those at other places
  have hother : Record.id? other ≠ some id := by
    rw [← hexisting]
    exact (hkept.beside_getElem? hji hj hi).1
  have hapart := apart_of_validate hschema hfields huser
    (Validation.mem_othersThan.mpr ⟨List.mem_of_getElem? hj, hother⟩)
  have hotherWf := (hkept.stored other (List.mem_of_getElem? hj)).wellFormed
  exact ⟨by rw [hid]; exact Ne.symm hother, hapart, hapart.symm hwf hotherWf⟩

/-- **Rewriting keeps records free of issues.** -/
theorem Rewrites.kept (hschema : schema.WellFormed) (hreserved : schema.ReservedFree)
    (hnow : now.WellFormed) (hkept : Validation.Kept schema records)
    (hrewrites : Rewrites schema now records ids records' ids')
    (hnew : HandsOutNew records ids ids') : Validation.Kept schema records' := by
  have hwf : ∀ r ∈ records, Json.WellFormed (.object r) := fun r hr =>
    (hkept.stored r hr).wellFormed
  cases hrewrites with
  | append hraw hinserted =>
    have hnewWf := wellFormed_inserted hschema hnow hraw hinserted
    obtain ⟨fields, id, hfields, hid, rfl⟩ := inserted_eq_ok hinserted
    have huser := userFields_assemble_of_validate hreserved hfields id (stamp schema now)
      (stamp schema now)
    refine hkept.append (stored_of_validate hfields hnewWf huser
      (Record.id?_assemble ..)) ?_
    intro other hother
    -- every record is another one to a new record, so all were compared with it
    have hapart := apart_of_validate hreserved hfields huser hother
    refine ⟨?_, hapart, hapart.symm hnewWf (hwf other hother)⟩
    rw [Record.id?_assemble]
    exact Ne.symm (not_taken_of_newId hnew hid other hother)
  | set hi hpatch hmerged =>
    exact kept_set_merged hreserved hkept hi hmerged
      (wellFormed_merged hschema hnow (hwf _ (List.mem_of_getElem? hi)) hpatch hmerged) rfl rfl
  | setLast hi hpatch hmerged =>
    exact kept_set_merged hreserved hkept hi hmerged
      (Record.wellFormed_reservedLast
        (wellFormed_merged hschema hnow (hwf _ (List.mem_of_getElem? hi)) hpatch hmerged))
      (Record.id?_reservedLast _) (Record.userFields_reservedLast _)
  | erase i => exact hkept.eraseIdx i

end DocStore.Collection
