import DocStore.Proofs.Collection.Layout
import DocStore.Proofs.Collection.Replay
import DocStore.Proofs.Validation.Reserved
/-!
# Saving a record again unchanged

An update with an empty patch takes a stored record through all checks once more. What is checked is
the record without its reserved fields, so a schema that declares a reserved field asks of it what
its default answers. Where that breaks no rule, the record is accepted and stored as it was, but for
the time of the update.

* `Rewrites.withoutReserved`, `Rewrites.resavable`: what every rewrite keeps, in any schema.
* `merged_nothing`: the record that takes the place of a stored one.
* `update_nothing`: whole calls on every state that is reached.
* `update_nothing_fails`: why the reserved declarations matter, and the time of the update.
-/

namespace DocStore.Collection

variable {schema : Schema} {now : Json} {records records' : List Record} {ids ids' : IdSupply}
  {r : Record}

-- ---------------------------------------------------------------------------
-- What every rewrite keeps
-- ---------------------------------------------------------------------------

/-- **What a rewrite stores it also stores without the reserved declarations.** -/
theorem Rewrites.withoutReserved (h : Rewrites schema now records ids records' ids') :
    Rewrites schema.withoutReserved now records ids records' ids' := by
  -- the fields that are checked are the caller's, and reserved names are not among those
  have hmerged : ∀ {existing patch s : Record} {ids' : IdSupply},
      merged schema now records existing patch ids = (.ok s, ids') →
        merged schema.withoutReserved now records existing patch ids = (.ok s, ids') := by
    intro existing patch s ids' hs
    obtain ⟨fields, id, created, hid, hfields, rfl, rfl⟩ := merged_eq_ok hs
    have hplain : merged schema.withoutReserved now records existing patch ids = _ :=
      merged_of_validate hid (Validation.validate_withoutReserved hfields)
    rw [hplain, Record.assemble_userFields]
    rfl
  cases h with
  | @append raw s ids' hraw hinserted =>
    obtain ⟨fields, id, hfields, hid, rfl⟩ := inserted_eq_ok hinserted
    have hplain : inserted schema.withoutReserved now records raw ids = _ :=
      inserted_of_validate (Validation.validate_withoutReserved hfields) hid
    -- laying the fields out drops reserved ones, so that nothing is lost with their declarations
    rw [Record.assemble_userFields] at hplain
    exact .append hraw hplain
  | set hi hpatch hs => exact .set hi hpatch (hmerged hs)
  | setLast hi hpatch hs => exact .setLast hi hpatch (hmerged hs)
  | erase i => exact .erase i

theorem isSome_stamp (schema : Schema) (v : Json) :
    (stamp schema v).isSome = schema.timestamps := by
  rw [stamp]
  cases schema.timestamps <;> rfl

/-- A record tells when it was made if the schema wants that, and only then. -/
def Stamped (schema : Schema) (r : Record) : Prop :=
  (Fields.get? r Record.createdField).isSome = schema.timestamps

theorem stamped_assemble (schema : Schema) (id : String) (fields : Record) (created now : Json) :
    Stamped schema (Record.assemble id fields (stamp schema created) (stamp schema now)) := by
  rw [Stamped, Record.get?_assemble_created, isSome_stamp]

theorem laidOut_stamped (schema : Schema) : LaidOut schema (Stamped schema) := by
  refine ⟨fun _ id created updated => stamped_assemble .., fun h => ?_⟩
  rw [Stamped, Record.get?_reservedLast]
  exact h

/-- Records of any schema, as operations leave them. -/
structure Resavable (schema : Schema) (records : List Record) : Prop where
  kept : Validation.Kept schema.withoutReserved records
  stamped : ∀ r ∈ records, Stamped schema r

theorem Resavable.identified (h : Resavable schema records) : Identified records :=
  ⟨fun r hr => (h.kept.stored r hr).id, h.kept.nodup_ids⟩

/-- No operation leaves records that could not be saved again. -/
theorem keptByRewrites_resavable (hschema : schema.WellFormed) :
    KeptByRewrites schema (Resavable schema) := by
  refine ⟨⟨Validation.kept_nil, fun r hr => absurd hr List.not_mem_nil⟩, ?_⟩
  intro now records records' ids ids' hnow h hrewrites hnew
  have hkept := hrewrites.withoutReserved.kept hschema.withoutReserved
    (Schema.reservedFree_withoutReserved schema) hnow h.kept hnew
  exact ⟨hkept, (laidOut_stamped schema).rewrites h.stamped hrewrites⟩

-- ---------------------------------------------------------------------------
-- The record that takes the place of a stored one
-- ---------------------------------------------------------------------------

/-- The record is as it was but for the time of the update. -/
structure SameButUpdated (schema : Schema) (now : Json) (r s : Record) : Prop where
  same : ∀ name, name ≠ Record.updatedField → Fields.get? s name = Fields.get? r name
  updated : Fields.get? s Record.updatedField = stamp schema now

/-- The caller's fields of a stored record, with its own id and times, are the record again. -/
theorem sameButUpdated_assemble (hstored : Validation.Stored schema.withoutReserved r)
    (hstamped : Stamped schema r) {id : String} (hid : Record.id? r = some id) :
    SameButUpdated schema now r
      (Record.assemble id (Validation.sanitizeFields schema (Record.userFields r))
        (stamp schema ((Fields.get? r Record.createdField).getD now)) (stamp schema now)) := by
  refine ⟨?_, Record.get?_assemble_updated ..⟩
  intro name hupdated
  -- the three reserved fields are written anew, each from what the record had
  by_cases hidField : name = Record.idField
  · rw [hidField, Record.get?_assemble_id, Record.get?_of_id? hid]
  by_cases hcreated : name = Record.createdField
  · rw [hcreated, Record.get?_assemble_created, stamp]
    rw [Stamped] at hstamped
    cases hget : Fields.get? r Record.createdField with
    | none =>
      rw [hget, Option.isSome_none] at hstamped
      rw [← hstamped]
      rfl
    | some v =>
      rw [hget, Option.isSome_some] at hstamped
      rw [← hstamped]
      rfl
  -- any other field is the caller's, and sanitizing it again changes nothing
  have hname : Record.isReserved name = false := by
    simp [Record.isReserved, Record.reservedFields, hidField, hcreated, hupdated]
  rw [Record.get?_assemble (h := hname), Validation.get?_sanitizeFields_of_stored hstored hname,
    Record.get?_userFields hname]

/-- **A stored record is merged with nothing** if the declared reserved fields may be left out of
it. -/
theorem merged_nothing (hschema : schema.WellFormed) (h : Resavable schema records) {i : Nat}
    (hi : records[i]? = some r) (hfit : Validation.ReservedFit schema (records.eraseIdx i) r) :
    ∃ s, merged schema now records r [] ids = (.ok s, ids) ∧ SameButUpdated schema now r s := by
  have hmem := List.mem_of_getElem? hi
  have hstored := h.kept.stored r hmem
  obtain ⟨id, hid⟩ := Option.isSome_iff_exists.mp hstored.id
  -- the records it is compared with are those at other places
  have hothers : ∀ other ∈ Validation.othersThan (some id) records,
      ∃ j, j ≠ i ∧ records[j]? = some other := by
    intro other hother
    obtain ⟨hotherMem, hotherId⟩ := Validation.mem_othersThan.mp hother
    obtain ⟨j, hj⟩ := List.getElem?_of_mem hotherMem
    refine ⟨j, ?_, hj⟩
    rintro rfl
    obtain rfl : other = r := Option.some.inj (hj.symm.trans hi)
    exact hotherId hid
  have hchecked := h.kept.checkFields (Schema.reservedFree_withoutReserved schema) hi hothers
  have hfits := hfit.mono fun other hother => List.mem_eraseIdx_iff_getElem?.mpr (hothers other hother)
  have hvalid := Validation.validate_of_reservedFit hschema hstored hchecked hfits
  have hkeptId : keptId r ids = (id, ids) := by rw [keptId, hid]
  have hmerged : merged schema now records r [] ids = _ := merged_of_validate hkeptId hvalid
  exact ⟨_, hmerged, sameButUpdated_assemble hstored (h.stamped r hmem) hid⟩

-- ---------------------------------------------------------------------------
-- Whole calls
-- ---------------------------------------------------------------------------

variable {c c₀ : Collection} {w w₀ : World}

/-- **A stored record is saved again unchanged**, in every state that is reached from an empty
collection while no id is handed out that is stored, if the declared reserved fields may be left out
of it. It keeps its place, its id and the time it was made, and the value of every other field but
the time of the update. -/
theorem update_nothing (hschema : c₀.schema.WellFormed) (hstart : c₀.StartsEmpty w₀)
    (h : Reaches HandsOutNewIds c₀ w₀ c w) (hload : (c.load w).answer = .ok records) {i : Nat}
    (hi : records[i]? = some r)
    (hfit : Validation.ReservedFit c₀.schema (records.eraseIdx i) r) (clock : Nat) :
    ∃ id s, Record.id? r = some id ∧
      let k : Call := ⟨clock, .update id (.object [])⟩
      (c.call w k).answer = .ok (.record (some s)) ∧
        (c.call w k).collection.state = .loaded (records.set i s) ∧
        SameButUpdated c₀.schema k.now r s := by
  have hmaintains := maintains_of_reaches (keptByRewrites_resavable hschema) hstart h
  rcases hmaintains.records with ⟨hnot, hstored⟩ | ⟨found, hstate, -, hresavable, hfile⟩
  · -- nothing is stored yet
    rw [answer_load hnot, hstored] at hload
    split at hload
    · rw [← Except.ok.inj hload] at hi
      cases hi
    · cases hload
  · rw [load_of_loaded hstate] at hload
    obtain rfl : found = records := Except.ok.inj hload
    obtain ⟨id, hid⟩ := Option.isSome_iff_exists.mp
      (hresavable.identified.hasId r (List.mem_of_getElem? hi))
    let now : Json := .string (Timestamp.text clock)
    obtain ⟨s, hmerged, hsame⟩ : ∃ s, merged c₀.schema now found r [] (c.idSupply w) =
        (.ok s, c.idSupply w) ∧ SameButUpdated c₀.schema now r s :=
      merged_nothing hschema hresavable hi hfit
    -- the id finds this record, at its place
    have hfirst := hresavable.identified.findIdx?_id hi hid
    have hget : found.getD i [] = r := by rw [List.getD_eq_getElem?_getD, hi, Option.getD_some]
    have hstep : updateStep c.schema now id [] found (c.idSupply w) =
        (.ok (.replace (found.set i s) (some s)), c.idSupply w) := by
      rw [updateStep, hfirst, hmaintains.sameSchema]
      dsimp only
      rw [hget, hmerged]
    obtain ⟨files', hwrite⟩ := exists_writeFile (c := c) (found.set i s)
      (hmaintains.samePath ▸ hfile)
    refine ⟨id, s, hid, ?_⟩
    intro k
    have hcall : c.call w k =
        settle c { w with clock := clock }
          (.ofStep .record (updateStep c.schema now id [] found (c.idSupply w)) w.random) :=
      perform_of_load rfl (load_of_loaded hstate _)
    rw [hstep] at hcall
    rw [hcall, settle_of_replace c { w with clock := clock } rfl, hwrite]
    exact ⟨rfl, rfl, hsame⟩

namespace Sample

/-- The id is declared, and required. -/
def numbered : Collection :=
  .unloaded "mail" ((Schema.empty false).add "_id" ⟨.string, true, none, false, false⟩) "mail.json"

/-- The time of the last update is declared. -/
def timed : Collection :=
  .unloaded "mail" ((Schema.empty true).add "updatedAt" (.plain .string)) "mail.json"

def numbering : Call := ⟨0, .save (.object [("_id", .string (IdSupply.numberedId 1))])⟩

def plainly : Call := ⟨0, .save (.object [])⟩

/-- The first record is merged with nothing, a millisecond later. -/
def again : Call := ⟨1000, .update (IdSupply.numberedId 1) (.object [])⟩

/-- What the saves leave. -/
def numberedOnce : Outcome Answer := numbered.call world numbering
def timedOnce : Outcome Answer := timed.call world plainly

theorem reaches_numberedOnce :
    Reaches HandsOutNewIds numbered world numberedOnce.collection numberedOnce.world := by
  have hop : numbering.op.WellFormed := ⟨List.nodup_singleton _, trivial, trivial⟩
  exact .step numbering .start (handsOutNewIds_of_no_records hop rfl)

theorem reaches_timedOnce :
    Reaches HandsOutNewIds timed world timedOnce.collection timedOnce.world := by
  have hop : plainly.op.WellFormed := ⟨List.nodup_nil, trivial⟩
  exact .step plainly .start (handsOutNewIds_of_no_records hop rfl)

end Sample

/-- The time of the last update is declared, and no value is asked for: the record is saved again a
millisecond later. -/
theorem update_nothing_timed :
    ∃ r s, Sample.timedOnce.collection.state = .loaded [r] ∧
      (Sample.timedOnce.collection.call Sample.timedOnce.world Sample.again).answer =
        .ok (.record (some s)) ∧
      (Sample.timedOnce.collection.call Sample.timedOnce.world Sample.again).collection.state =
        .loaded [s] ∧
      SameButUpdated Sample.timed.schema Sample.again.now r s := by
  have hschema : Sample.timed.schema.WellFormed := by
    intro e he v hv
    obtain rfl := List.mem_singleton.mp he
    cases hv
  obtain ⟨r, hstate, hid⟩ : ∃ r, Sample.timedOnce.collection.state = .loaded [r] ∧
      Record.id? r = some (IdSupply.numberedId 1) := ⟨_, rfl, rfl⟩
  have hload : (Sample.timedOnce.collection.load Sample.timedOnce.world).answer = .ok [r] := by
    rw [load_of_loaded hstate]
  -- the declared time is optional and has nothing to repeat
  have hfit : Validation.ReservedFit Sample.timed.schema ([r].eraseIdx 0) r := by
    refine Validation.reservedFit_of_optional ?_ _ r
    intro name spec hmem _
    rw [(Prod.mk.inj (List.mem_singleton.mp hmem)).2]
    exact ⟨rfl, rfl⟩
  have hplace : [r][0]? = some r := rfl
  obtain ⟨id, s, hid', hanswer, hafter, hsame⟩ := update_nothing hschema ⟨rfl, Or.inl rfl⟩
    Sample.reaches_timedOnce hload hplace hfit 1000
  obtain rfl : IdSupply.numberedId 1 = id := Option.some.inj (hid.symm.trans hid')
  rw [List.set_cons_zero] at hafter
  exact ⟨r, s, hstate, hanswer, hafter, hsame⟩

/-- Where the id is declared and required, a record that was saved with its id is refused when it is
saved again; and where the time of the last update is declared, it does not stay the same. -/
theorem update_nothing_fails :
    (Reaches HandsOutNewIds Sample.numbered Sample.world Sample.numberedOnce.collection
        Sample.numberedOnce.world ∧
      Sample.numberedOnce.collection.state =
        .loaded [[("_id", .string (IdSupply.numberedId 1))]] ∧
      (Sample.numberedOnce.collection.call Sample.numberedOnce.world Sample.again).answer =
        .error (.validation [.required "_id"])) ∧
    (Reaches HandsOutNewIds Sample.timed Sample.world Sample.timedOnce.collection
        Sample.timedOnce.world ∧
      Sample.timed.schema.declares "updatedAt" = true ∧
      ∃ r s, Sample.timedOnce.collection.state = .loaded [r] ∧
        (Sample.timedOnce.collection.call Sample.timedOnce.world Sample.again).answer =
          .ok (.record (some s)) ∧
        Fields.get? s "updatedAt" ≠ Fields.get? r "updatedAt") := by
  refine ⟨⟨Sample.reaches_numberedOnce, rfl, rfl⟩, Sample.reaches_timedOnce, rfl, _, _, rfl, rfl, ?_⟩
  intro hsame
  have htext : Timestamp.text 1000 = Timestamp.text 0 := Json.string.inj (Option.some.inj hsame)
  exact absurd htext (by decide)

end DocStore.Collection
