import DocStore.Proofs.Collection.Replay
/-!
# An upsert is a look-up followed by an update or a save

An upsert finds its record by the place of the first match, an update by the place of the first
record of an id, and the two lay their record out differently. As long as no two records have one id
the places are the same, so both merge the patch into the same record, are refused by the same
errors, and leave the same but for the order of that record's fields.

* `upsertStep_of_match`, `upsertStep_of_no_match`: the step of an upsert as one of the other steps.
* `sameButRecords_settle`: two replacements that are settled differ in no more than the records.
* `upsert_eq_update_or_save`: whole calls on every state that is reached.
-/

namespace DocStore.Collection

variable {records : List Record}

-- ---------------------------------------------------------------------------
-- The step of an upsert
-- ---------------------------------------------------------------------------

section Steps

variable {schema : Schema} {now : Json} {ids : IdSupply} {query patch : Record}

/-- **Where a record matches, an upsert is an update of its id**: both are refused by the same error,
or they replace the record at the same place by two layouts of one record. -/
theorem upsertStep_of_match (h : Identified records) {r : Record} {id : String}
    (hfind : (records.find? fun r => Record.matchesQuery r query) = some r)
    (hid : Record.id? r = some id) :
    (∃ e ids', updateStep schema now id patch records ids = (.error e, ids') ∧
        upsertStep schema now query patch records ids = (.error e, ids')) ∨
      ∃ i s ids', records[i]? = some r ∧ Fields.Distinct s ∧
        updateStep schema now id patch records ids =
          (.ok (.replace (records.set i s) (some s)), ids') ∧
        upsertStep schema now query patch records ids =
          (.ok (.replace (records.set i (Record.reservedLast s)) (Record.reservedLast s)), ids') := by
  obtain ⟨i, hfirst, hi⟩ := findIdx?_of_find? hfind
  -- the first match is found by its id at the same place
  have hsame := h.findIdx?_id hi hid
  rw [updateStep, upsertStep, hfirst, hsame]
  dsimp only
  cases hmerged : merged schema now records (records.getD i []) patch ids with
  | mk result ids' =>
    cases result with
    | error e => exact Or.inl ⟨e, ids', rfl, rfl⟩
    | ok s => exact Or.inr ⟨i, s, ids', hi, distinct_merged hmerged, rfl, rfl⟩

/-- An upsert without a match decides as a save does. -/
theorem upsertStep_of_no_match
    (hfind : (records.find? fun r => Record.matchesQuery r query) = none) :
    upsertStep schema now query patch records ids =
      saveStep schema now (.object patch) records ids := by
  have hnone : (records.findIdx? fun r => Record.matchesQuery r query) = none := by
    rw [List.findIdx?_eq_none_iff]
    intro r hr
    have hmiss := List.find?_eq_none.mp hfind r hr
    rwa [Bool.not_eq_true] at hmiss
  rw [upsertStep, hnone]

end Steps

-- ---------------------------------------------------------------------------
-- Two replacements
-- ---------------------------------------------------------------------------

/-- Two outcomes that are the same but for the records, in memory and in the file. -/
structure SameButRecords (plain moved : Outcome Answer) (records records' : List Record) : Prop where
  memory : plain.collection.state = .loaded records
  file : plain.world.files.readText? plain.collection.path = some (RecordFile.text records)
  collection : moved.collection = { plain.collection with state := .loaded records' }
  world : moved.world = { plain.world with files := moved.world.files }
  written : plain.collection.writeFile records' plain.world.files = some moved.world.files

/-- **Two replacements that are settled differ in no more than the records**, or neither of them can
be written. -/
theorem sameButRecords_settle (c : Collection) (w : World) (records records' : List Record)
    (answer answer' : Answer) (ids : IdSupply) (random : WordSource) (warnings : List String) :
    let plain := settle c w ⟨.ok (.replace records answer), ids, random, warnings⟩
    let moved := settle c w ⟨.ok (.replace records' answer'), ids, random, warnings⟩
    (Fails plain ∧ moved = plain) ∨
      (plain.answer = .ok answer ∧ moved.answer = .ok answer' ∧
        SameButRecords plain moved records records') := by
  intro plain moved
  -- whether a text can be written does not depend on the text
  have hboth := FileTree.isSome_writeFile? w.files c.path (.text (RecordFile.text records))
    (.text (RecordFile.text records'))
  have hplain : plain = _ := settle_of_replace c w rfl
  have hmoved : moved = _ := settle_of_replace c w rfl
  unfold writeFile at hplain hmoved
  cases hwrite : w.files.writeFile? c.path (.text (RecordFile.text records)) with
  | none =>
    rw [hwrite, Option.isSome_none] at hboth
    have hwrite' := Option.isSome_eq_false_iff.mp hboth.symm
    rw [Option.isNone_iff_eq_none] at hwrite'
    rw [hwrite] at hplain
    rw [hwrite'] at hmoved
    exact Or.inl ⟨⟨.file, by rw [hplain]⟩, by rw [hmoved, hplain]⟩
  | some files =>
    rw [hwrite, Option.isSome_some] at hboth
    obtain ⟨files', hwrite'⟩ := Option.isSome_iff_exists.mp hboth.symm
    rw [hwrite] at hplain
    rw [hwrite'] at hmoved
    refine Or.inr ⟨by rw [hplain], by rw [hmoved], ?_⟩
    rw [hplain, hmoved]
    exact ⟨rfl, FileTree.readText?_writeFile? hwrite, rfl, rfl,
      FileTree.writeFile?_over hwrite hwrite'⟩

-- ---------------------------------------------------------------------------
-- Whole calls
-- ---------------------------------------------------------------------------

section Calls

variable {c c₀ : Collection} {w w₀ : World} {filter : Json} {query patch : Record}

/-- What a look-up that succeeds says of the records. -/
theorem answer_findOne {answer : Option Record}
    (h : (c.perform w (.findOne filter)).answer = .ok (.record answer)) :
    ∃ records query, (c.load w).answer = .ok records ∧ queryOf filter = .ok query ∧
      (records.find? fun r => Record.matchesQuery r query) = answer := by
  obtain ⟨records, change, hload, hresult, hanswer⟩ := decision_of_answer h
  unfold decision at hresult
  simp only [Operation.effect] at hresult
  split at hresult
  · cases hresult
  · rename_i query hquery
    rw [← Except.ok.inj hresult] at hanswer
    exact ⟨records, query, hload, hquery, Answer.record.inj hanswer⟩

/-- An upsert of a fitting filter and patch is settled as its step decides. -/
theorem perform_upsert (hquery : queryOf filter = .ok query)
    (hload : (c.load w).answer = .ok records) :
    c.perform w (.upsert filter (.object patch)) =
      settle (c.load w).collection (c.load w).world
        (.ofStep (fun r => .record (some r))
          (upsertStep c.schema w.now query patch records (c.idSupply w))
          (c.load w).world.random) := by
  have hfault : Operation.fault? (.upsert filter (.object patch)) = none := by
    simp only [Operation.fault?, hquery, patchOf]
  rw [perform_of_found hfault hload, decision]
  simp only [Operation.effect, hquery, patchOf]

/-- An update is settled as its step decides. -/
theorem perform_update (id : String) (hload : (c.load w).answer = .ok records) :
    c.perform w (.update id (.object patch)) =
      settle (c.load w).collection (c.load w).world
        (.ofStep .record (updateStep c.schema w.now id patch records (c.idSupply w))
          (c.load w).world.random) :=
  perform_of_found rfl hload

/-- A save is settled as its step decides. -/
theorem perform_save (raw : Json) (hload : (c.load w).answer = .ok records) :
    c.perform w (.save raw) =
      settle (c.load w).collection (c.load w).world
        (.ofStep (fun r => .record (some r)) (saveStep c.schema w.now raw records (c.idSupply w))
          (c.load w).world.random) :=
  perform_of_found rfl hload

/-- **An upsert is a look-up followed by an update or a save**, in every state that is reached from
an empty collection while no taken id is given. Where the look-up finds a record, the upsert fails
as the update of its id does and leaves the same, or it leaves the same but for the order of one
record's fields, whose reserved ones are last. Where it finds none, the upsert is the save. -/
theorem upsert_eq_update_or_save (hstart : c₀.StartsEmpty w₀)
    (h : Reaches (fun c w k => ¬ GivesTakenId c w k) c₀ w₀ c w) (clock : Nat) (filter : Json)
    (patch : Record) :
    let found := c.call w ⟨clock, .findOne filter⟩
    let moved := c.call w ⟨clock, .upsert filter (.object patch)⟩
    (∀ r, found.answer = .ok (.record (some r)) → ∃ id, Record.id? r = some id ∧
      let plain := c.call w ⟨clock, .update id (.object patch)⟩
      (Fails plain ∧ moved = plain) ∨
        ∃ records i s, plain.answer = .ok (.record (some s)) ∧
          moved.answer = .ok (.record (some (Record.reservedLast s))) ∧
          (Record.reservedLast s).Perm s ∧ records[i]? = some s ∧
          SameButRecords plain moved records (records.set i (Record.reservedLast s))) ∧
    (found.answer = .ok (.record none) → moved = c.call w ⟨clock, .save (.object patch)⟩) := by
  intro found moved
  constructor
  · intro r hfound
    obtain ⟨records, query, hload, hquery, hfind⟩ := answer_findOne hfound
    -- ids are new all along, so those that are found here are distinct
    have hids : Identified records :=
      allIdentified_of_reaches hstart h records ((load_answer_clock c w clock).symm.trans hload)
    obtain ⟨id, hid⟩ := Option.isSome_iff_exists.mp
      (hids.hasId r (List.mem_of_find?_eq_some hfind))
    refine ⟨id, hid, ?_⟩
    intro plain
    have hmoved : moved = _ := perform_upsert hquery hload
    have hplain : plain = _ := perform_update id hload
    rcases upsertStep_of_match hids hfind hid with
      ⟨e, ids', hupdate, hupsert⟩ | ⟨i, s, ids', hi, hdistinct, hupdate, hupsert⟩
    · -- both merges are refused for the same reason
      rw [hupdate] at hplain
      rw [hupsert] at hmoved
      refine Or.inl ⟨?_, hmoved.trans hplain.symm⟩
      rw [hplain]
      exact settle_of_error rfl
    · rw [hupdate] at hplain
      rw [hupsert] at hmoved
      -- both merges succeed, and the two lists differ in the order of one record's fields
      have hsettled := sameButRecords_settle (c.load { w with clock := clock }).collection
        (c.load { w with clock := clock }).world (records.set i s)
        (records.set i (Record.reservedLast s)) (.record (some s))
        (.record (some (Record.reservedLast s))) ids'
        (c.load { w with clock := clock }).world.random []
      rw [hplain, hmoved]
      rcases hsettled with hfails | ⟨hanswer, hanswer', hsame⟩
      · exact Or.inl hfails
      · refine Or.inr ⟨records.set i s, i, s, hanswer, hanswer', Record.reservedLast_perm hdistinct,
          ?_, ?_⟩
        · rw [List.getElem?_set_self (List.getElem?_eq_some_iff.mp hi).1]
        · rw [List.set_set]
          exact hsame
  · intro hfound
    obtain ⟨records, query, hload, hquery, hfind⟩ := answer_findOne hfound
    have hmoved : moved = _ := perform_upsert hquery hload
    rw [hmoved, upsertStep_of_no_match hfind]
    exact (perform_save (.object patch) hload).symm

end Calls

namespace Sample

/-- A filter or a patch that names an email. -/
def email (text : String) : Record := [("email", .string text)]

end Sample

/-- One record is stored. An upsert that finds it is the update of its id but for the layout, and an
upsert that finds none is a save. -/
theorem upsert_eq_update_or_save_first :
    (∃ s, (Sample.first.collection.call Sample.first.world
          ⟨0, .update (IdSupply.numberedId 1) (.object (Sample.email "c"))⟩).answer =
        .ok (.record (some s)) ∧
      (Sample.first.collection.call Sample.first.world
          ⟨0, .upsert (.object (Sample.email "a")) (.object (Sample.email "c"))⟩).answer =
        .ok (.record (some (Record.reservedLast s)))) ∧
    Sample.first.collection.call Sample.first.world
        ⟨0, .upsert (.object (Sample.email "b")) (.object (Sample.email "c"))⟩ =
      Sample.first.collection.call Sample.first.world
        ⟨0, .save (.object (Sample.email "c"))⟩ := by
  have hstart : Sample.collection.StartsEmpty Sample.world := ⟨rfl, Or.inl rfl⟩
  have hsaved : ¬ GivesTakenId Sample.collection Sample.world (Sample.saving "a") :=
    not_givesTakenId_of_ids rfl List.not_mem_nil
  constructor
  · obtain ⟨id, hid, hcases⟩ := (upsert_eq_update_or_save hstart
      (.step (Sample.saving "a") .start hsaved) 0 (.object (Sample.email "a"))
      (Sample.email "c")).1 _ rfl
    obtain rfl : IdSupply.numberedId 1 = id := Option.some.inj hid
    rcases hcases with ⟨⟨e, hfails⟩, -⟩ | ⟨_, _, s, hplain, hmoved, -⟩
    · cases hfails
    · exact ⟨s, hplain, hmoved⟩
  · exact (upsert_eq_update_or_save hstart (.step (Sample.saving "a") .start hsaved) 0
      (.object (Sample.email "b")) (Sample.email "c")).2 rfl

end DocStore.Collection
