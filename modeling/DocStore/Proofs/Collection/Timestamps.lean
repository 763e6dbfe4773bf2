import DocStore.Proofs.Collection.Identity
import DocStore.Proofs.Timestamp
/-!
# Records are dated in the order of the collection

Every record tells when it was made and when it was last changed. New records go to the end, no
rewrite touches the time at which a record was made, and the texts of the clock's readings are in
the order of the readings. So as long as the clock never goes back, the times of making do not
decrease along the collection, and no record was changed before it was made.

* `Operation.origins`: the records as they were inserted, kept beside the records.
* `Timed.replaced`: what one decision keeps of the times.
* `timestamps_of_calls`: whole rows of calls.
-/

namespace DocStore

namespace Record

/-- When the record was made, as it says itself. -/
def createdAt? (r : Record) : Option String := (Fields.get? r createdField).bind Json.asString?

/-- When the record was last changed, as it says itself. -/
def updatedAt? (r : Record) : Option String := (Fields.get? r updatedField).bind Json.asString?

end Record

namespace Collection

-- ---------------------------------------------------------------------------
-- Records as they were inserted
-- ---------------------------------------------------------------------------

/-- The records that are found, none if they cannot be loaded. -/
def found (c : Collection) (w : World) : List Record :=
  match (c.load w).answer with
  | .ok records => records
  | .error _ => []

/-- The records as they were inserted, after an operation that found some records and left others:
a removed record is struck out at the place where it stood, a new one is added as it is. -/
def Operation.origins (op : Operation) (records records' origins : List Record) : List Record :=
  match op with
  | .delete id =>
    if records'.length < records.length then
      origins.eraseIdx (records.findIdx fun r => Record.id? r == some id)
    else origins
  | _ => origins ++ records'.drop records.length

/-- The records as they were inserted, after a row of calls. -/
def origins (c : Collection) (w : World) (inserted : List Record) : List Call → List Record
  | [] => inserted
  | k :: rest =>
    let o := c.call w k
    origins o.collection o.world
      (k.op.origins (c.found w) (o.collection.found o.world) inserted) rest

/-- An operation that removes nothing adds what it leaves beyond the records that it found. -/
theorem Operation.origins_of_ne {op : Operation} (hop : ∀ id, op ≠ .delete id)
    (records records' origins : List Record) :
    op.origins records records' origins = origins ++ records'.drop records.length := by
  cases op with
  | delete id => exact absurd rfl (hop id)
  | _ => rfl

/-- An operation that leaves the records leaves what they were inserted as. -/
theorem Operation.origins_same (op : Operation) (records origins : List Record) :
    op.origins records records origins = origins := by
  by_cases hop : ∃ id, op = .delete id
  · obtain ⟨id, rfl⟩ := hop
    exact if_neg (Nat.lt_irrefl _)
  · rw [origins_of_ne (not_exists.mp hop), List.drop_length, List.append_nil]

/-- A deletion strikes out at one place in both lists. -/
theorem Operation.origins_erase {id : String} {records : List Record} {i : Nat}
    (hi : (records.findIdx? fun r => Record.id? r == some id) = some i) (origins : List Record) :
    (Operation.delete id).origins records (records.eraseIdx i) origins = origins.eraseIdx i := by
  obtain ⟨hlt, hfirst⟩ := List.findIdx?_eq_some_iff_findIdx_eq.mp hi
  have hshorter : (records.eraseIdx i).length < records.length := by
    rw [List.length_eraseIdx_of_lt hlt]
    omega
  rw [Operation.origins, if_pos hshorter, hfirst]

-- ---------------------------------------------------------------------------
-- The times of a record
-- ---------------------------------------------------------------------------

/-- A record beside itself as it was inserted: id and time of making are the same, and both times
are readings of the clock that it has passed by now. -/
structure Dated (clock : Nat) (r origin : Record) : Prop where
  hasId : (Record.id? r).isSome
  sameId : Fields.get? r Record.idField = Fields.get? origin Record.idField
  sameCreated : Fields.get? r Record.createdField = Fields.get? origin Record.createdField
  times : ∃ created updated, created ≤ updated ∧ updated ≤ clock ∧
    Fields.get? r Record.createdField = some (.string (Timestamp.text created)) ∧
    Fields.get? r Record.updatedField = some (.string (Timestamp.text updated))

variable {schema : Schema} {clock clock' : Nat} {records records' origins : List Record}
  {r origin existing : Record} {ids ids' : IdSupply}

theorem stamp_of_timestamps (h : schema.timestamps = true) (v : Json) :
    stamp schema v = some v := if_pos h

/-- A new record is its own origin, and both its times are the present one. -/
theorem dated_inserted (htimestamps : schema.timestamps = true) {raw : Json}
    (h : inserted schema (.string (Timestamp.text clock)) records raw ids = (.ok r, ids')) :
    Dated clock r r := by
  obtain ⟨fields, id, -, -, rfl⟩ := inserted_eq_ok h
  refine ⟨by rw [Record.id?_assemble]; rfl, rfl, rfl, clock, clock, Nat.le_refl _, Nat.le_refl _,
    ?_, ?_⟩
  · rw [Record.get?_assemble_created, stamp_of_timestamps htimestamps]
  · rw [Record.get?_assemble_updated, stamp_of_timestamps htimestamps]

/-- A merged record keeps its id and the time of its making, and is changed now. -/
theorem dated_merged (htimestamps : schema.timestamps = true) {patch : Record}
    (h : merged schema (.string (Timestamp.text clock')) records existing patch ids = (.ok r, ids'))
    (hdated : Dated clock existing origin) (hclock : clock ≤ clock') : Dated clock' r origin := by
  have hid := id?_merged h hdated.hasId
  obtain ⟨created, updated, hle, hpassed, hcreated, -⟩ := hdated.times
  obtain ⟨own, hown⟩ := Option.isSome_iff_exists.mp hdated.hasId
  obtain ⟨fields, id, made, -, -, rfl, rfl⟩ := merged_eq_ok h
  rw [hown, Record.id?_assemble] at hid
  have hmade : Fields.get? existing Record.createdField = Fields.get? origin Record.createdField :=
    hdated.sameCreated
  constructor
  · rw [Record.id?_assemble]
    rfl
  · rw [Record.get?_assemble_id, ← hdated.sameId, Record.get?_of_id? hown, Option.some.inj hid]
  · -- the time of the making is that of the record that is replaced
    rw [Record.get?_assemble_created, stamp_of_timestamps htimestamps, ← hmade, hcreated]
    rfl
  · -- only the time of the change is new, and it is the present one
    refine ⟨created, clock', by omega, Nat.le_refl _, ?_, ?_⟩
    · rw [Record.get?_assemble_created, stamp_of_timestamps htimestamps, hcreated]
      rfl
    · rw [Record.get?_assemble_updated, stamp_of_timestamps htimestamps]

/-- Where the times stand in the record does not matter. -/
theorem Dated.reservedLast (h : Dated clock r origin) :
    Dated clock (Record.reservedLast r) origin := by
  constructor
  · rw [Record.id?_reservedLast]
    exact h.hasId
  · rw [Record.get?_reservedLast]
    exact h.sameId
  · rw [Record.get?_reservedLast]
    exact h.sameCreated
  · rw [Record.get?_reservedLast, Record.get?_reservedLast]
    exact h.times

theorem Dated.later (h : Dated clock r origin) (hclock : clock ≤ clock') :
    Dated clock' r origin := by
  obtain ⟨created, updated, hle, hpassed, htexts⟩ := h.times
  exact ⟨h.hasId, h.sameId, h.sameCreated, created, updated, hle, hpassed.trans hclock, htexts⟩

-- ---------------------------------------------------------------------------
-- The times of all records
-- ---------------------------------------------------------------------------

/-- Every record is dated, and the records were inserted in the order of the collection. -/
structure Timed (clock : Nat) (records origins : List Record) : Prop where
  dated : List.Forall₂ (Dated clock) records origins
  ordered : (origins.filterMap Record.createdAt?).Pairwise (· ≤ ·)

theorem timed_nil (clock : Nat) : Timed clock [] [] := ⟨.nil, List.Pairwise.nil⟩

theorem Timed.later (h : Timed clock records origins) (hclock : clock ≤ clock') :
    Timed clock' records origins :=
  ⟨h.dated.imp fun _ _ hdated => hdated.later hclock, h.ordered⟩

/-- The times of making are those of the records as they were inserted. -/
theorem Timed.filterMap_createdAt? (h : Timed clock records origins) :
    records.filterMap Record.createdAt? = origins.filterMap Record.createdAt? := by
  obtain ⟨hdated, -⟩ := h
  induction hdated with
  | nil => rfl
  | @cons r origin records origins hdated _ ih =>
    have hsame : Record.createdAt? r = Record.createdAt? origin := by
      rw [Record.createdAt?, hdated.sameCreated]
      rfl
    rw [List.filterMap_cons, List.filterMap_cons, hsame, ih]

theorem Timed.dated_of_mem (h : Timed clock records origins) (hr : r ∈ records) :
    ∃ origin, Dated clock r origin := by
  obtain ⟨i, hi, rfl⟩ := List.mem_iff_getElem.mp hr
  exact ⟨_, h.dated.get hi (h.dated.length_eq ▸ hi)⟩

/-- No record was made after the clock's reading. -/
theorem Timed.created_le (h : Timed clock records origins) (hyears : clock < 253402300800000000) :
    ∀ text ∈ origins.filterMap Record.createdAt?, text ≤ Timestamp.text clock := by
  intro text htext
  rw [← h.filterMap_createdAt?] at htext
  obtain ⟨r, hr, hcreatedAt⟩ := List.mem_filterMap.mp htext
  obtain ⟨origin, hdated⟩ := h.dated_of_mem hr
  obtain ⟨created, updated, hle, hpassed, hcreated, -⟩ := hdated.times
  rw [Record.createdAt?, hcreated] at hcreatedAt
  rw [← Option.some.inj hcreatedAt]
  exact Timestamp.text_le_text (hle.trans hpassed) hyears

/-- A record that is made now is made after all others. -/
theorem Timed.append (h : Timed clock records origins) (hclock : clock ≤ clock')
    (hyears : clock' < 253402300800000000) (hr : Dated clock' r r)
    (hnow : Record.createdAt? r = some (Timestamp.text clock')) :
    Timed clock' (records ++ [r]) (origins ++ [r]) := by
  have hlater := h.later hclock
  refine ⟨List.rel_append hlater.dated (.cons hr .nil), ?_⟩
  have hlast : [r].filterMap Record.createdAt? = [Timestamp.text clock'] :=
    List.filterMap_cons_some hnow
  rw [List.filterMap_append, hlast, List.pairwise_append]
  refine ⟨h.ordered, List.pairwise_singleton .., ?_⟩
  intro text htext other hother
  rw [List.mem_singleton.mp hother]
  exact hlater.created_le hyears text htext

/-- A record may stand in the place of another that was inserted as the same record. -/
theorem Timed.set (h : Timed clock records origins) (hclock : clock ≤ clock') {i : Nat}
    (hi : records[i]? = some existing)
    (hr : ∀ origin, Dated clock existing origin → Dated clock' r origin) :
    Timed clock' (records.set i r) origins := by
  refine ⟨List.forall₂_iff_get.mpr ⟨by rw [List.length_set, h.dated.length_eq], ?_⟩, h.ordered⟩
  intro j hj hjOrigins
  have hdated := h.dated.get (by rwa [List.length_set] at hj) hjOrigins
  rw [List.get_eq_getElem, List.getElem_set]
  split
  · -- at the place itself the new record is dated, and at all others time went by
    rename_i hij
    subst hij
    obtain ⟨hlt, rfl⟩ := List.getElem?_eq_some_iff.mp hi
    exact hr _ hdated
  · exact hdated.later hclock

/-- A deletion leaves the rest in order. -/
theorem Timed.eraseIdx (h : Timed clock records origins) (hclock : clock ≤ clock') (i : Nat) :
    Timed clock' (records.eraseIdx i) (origins.eraseIdx i) := by
  have hlater := (h.later hclock).dated
  refine ⟨?_, h.ordered.sublist ((List.eraseIdx_sublist origins i).filterMap _)⟩
  rw [List.eraseIdx_eq_take_drop_succ, List.eraseIdx_eq_take_drop_succ]
  exact List.rel_append (List.forall₂_take i hlater) (List.forall₂_drop (i + 1) hlater)

-- ---------------------------------------------------------------------------
-- Decisions
-- ---------------------------------------------------------------------------

/-- A decision that adds a record. -/
theorem Timed.inserted (h : Timed clock records origins) (htimestamps : schema.timestamps = true)
    (hclock : clock ≤ clock') (hyears : clock' < 253402300800000000) {raw : Json}
    (hinserted : Collection.inserted schema (.string (Timestamp.text clock')) records raw ids =
      (.ok r, ids')) {op : Operation} (hop : ∀ id, op ≠ .delete id) :
    Timed clock' (records ++ [r]) (op.origins records (records ++ [r]) origins) := by
  have hnow : Record.createdAt? r = some (Timestamp.text clock') := by
    obtain ⟨fields, id, -, -, rfl⟩ := inserted_eq_ok hinserted
    rw [Record.createdAt?, Record.get?_assemble_created, stamp_of_timestamps htimestamps]
    rfl
  rw [Operation.origins_of_ne hop, List.drop_left]
  exact h.append hclock hyears (dated_inserted htimestamps hinserted) hnow

/-- A decision that puts a record in the place of another. -/
theorem Timed.merged (h : Timed clock records origins) (hclock : clock ≤ clock') {i : Nat}
    (hi : records[i]? = some existing)
    (hr : ∀ origin, Dated clock existing origin → Dated clock' r origin)
    {op : Operation} (hop : ∀ id, op ≠ .delete id) :
    Timed clock' (records.set i r) (op.origins records (records.set i r) origins) := by
  rw [Operation.origins_of_ne hop, ← List.length_set, List.drop_length, List.append_nil]
  exact h.set hclock hi hr

/-- **Whatever an operation decides keeps the times in order.** -/
theorem Timed.replaced (h : Timed clock records origins) (htimestamps : schema.timestamps = true)
    (hclock : clock ≤ clock') (hyears : clock' < 253402300800000000) {op : Operation}
    {random : WordSource} {answer : Answer}
    (hresult : (op.effect schema (.string (Timestamp.text clock')) records ids random).result =
      .ok (.replace records' answer)) :
    Timed clock' records' (op.origins records records' origins) := by
  -- a save, an update, an upsert or a delete, as the records were replaced
  rcases effect_replacedBy hresult with
    ⟨hstep, -⟩ | ⟨hstep, -⟩ | ⟨hquery, hstep, -⟩ | ⟨hstep, -⟩
  · obtain ⟨r, hinserted, heq⟩ := saveStep_eq_ok hstep
    obtain ⟨rfl, -⟩ := Change.replace.inj heq
    exact h.inserted htimestamps hclock hyears hinserted nofun
  · rcases updateStep_eq_ok hstep with ⟨-, hkeep⟩ | ⟨i, r, hi, hmerged, heq⟩
    · cases hkeep
    · obtain ⟨rfl, -⟩ := Change.replace.inj heq
      exact h.merged hclock (getElem?_of_findIdx? hi)
        (fun _ hdated => dated_merged htimestamps hmerged hdated hclock) nofun
  · rcases upsertStep_eq_ok hstep with ⟨i, r, hi, hmerged, heq⟩ | ⟨-, r, hinserted, heq⟩
    · obtain ⟨rfl, -⟩ := Change.replace.inj heq
      exact h.merged hclock (getElem?_of_findIdx? hi)
        (fun _ hdated => (dated_merged htimestamps hmerged hdated hclock).reservedLast) nofun
    · obtain ⟨rfl, -⟩ := Change.replace.inj heq
      exact h.inserted htimestamps hclock hyears hinserted nofun
  · rcases deleteStep_eq_ok hstep with ⟨-, hkeep⟩ | ⟨i, hi, heq⟩
    · cases hkeep
    · obtain ⟨rfl, -⟩ := Change.replace.inj heq
      rw [Operation.origins_erase hi]
      exact h.eraseIdx hclock i

-- ---------------------------------------------------------------------------
-- Calls
-- ---------------------------------------------------------------------------

variable {c : Collection} {w : World} {k : Call}

theorem found_of_load (h : (c.load w).answer = .ok records) : c.found w = records := by
  rw [found, h]

/-- **A call keeps the times in order**, whether it succeeds or fails. -/
theorem Timed.call (h : Timed clock (c.found w) origins) (htimestamps : c.schema.timestamps = true)
    (hclock : clock ≤ k.clock) (hyears : k.clock < 253402300800000000) :
    Timed k.clock ((c.call w k).collection.found (c.call w k).world)
      (k.op.origins (c.found w) ((c.call w k).collection.found (c.call w k).world) origins) := by
  rcases load_perform c { w with clock := k.clock } k.op with
    ⟨records, records', answer, hload, hresult, -, hafter⟩ | ⟨hsame, -⟩
  · have hfound : (c.call w k).collection.found (c.call w k).world = records' :=
      found_of_load hafter
    -- what is found does not depend on the clock
    rw [load_answer_clock] at hload
    rw [found_of_load hload] at h ⊢
    rw [hfound]
    exact h.replaced htimestamps hclock hyears hresult
  · have hfound : (c.call w k).collection.found (c.call w k).world = c.found w := by
      rw [found, Collection.call, hsame, load_answer_clock, found]
    rw [hfound, Operation.origins_same]
    exact h.later hclock

/-- **A row of calls keeps the times in order**, if the clock does not go back. -/
theorem Timed.calls {ks : List Call} (h : Timed clock (c.found w) origins)
    (hclock : clock < 253402300800000000) (htimestamps : c.schema.timestamps = true)
    (hfrom : ∀ k ∈ ks, clock ≤ k.clock) (hclocks : (ks.map Call.clock).Pairwise (· ≤ ·))
    (hyears : ∀ k ∈ ks, k.clock < 253402300800000000) :
    ∃ last < 253402300800000000, Timed last ((c.calls w ks).2.1.found (c.calls w ks).2.2)
      (c.origins w origins ks) := by
  induction ks generalizing c w clock origins with
  | nil => exact ⟨clock, hclock, h⟩
  | cons k rest ih =>
    rw [List.map_cons, List.pairwise_cons] at hclocks
    have hyear := hyears k List.mem_cons_self
    -- the next call starts from the time of this one
    refine ih (h.call htimestamps (hfrom k List.mem_cons_self) hyear) hyear ?_ ?_ hclocks.2 ?_
    · rw [call_schema, htimestamps]
    · exact fun l hl => hclocks.1 _ (List.mem_map_of_mem hl)
    · exact fun l hl => hyears l (List.mem_cons_of_mem k hl)

/-- **Records are dated in the order of the collection.** In a collection that starts empty, the
clock never going back before the year 10000, after any calls every record tells when it was made
and changed, the first no later than the second; the times of making do not decrease; and id and
time of making are, whatever the calls wrote, those with which the record was inserted. -/
theorem timestamps_of_calls (hstart : c.StartsEmpty w) (htimestamps : c.schema.timestamps = true)
    {ks : List Call} (hclocks : (ks.map Call.clock).Pairwise (· ≤ ·))
    (hyears : ∀ k ∈ ks, k.clock < 253402300800000000) :
    let records := (c.calls w ks).2.1.found (c.calls w ks).2.2
    (∀ r ∈ records, ∃ created updated, Record.createdAt? r = some created ∧
        Record.updatedAt? r = some updated ∧ created ≤ updated) ∧
      (records.filterMap Record.createdAt?).Pairwise (· ≤ ·) ∧
      List.Forall₂ (fun r origin => (Record.id? r).isSome ∧
          Fields.get? r Record.idField = Fields.get? origin Record.idField ∧
          Fields.get? r Record.createdField = Fields.get? origin Record.createdField)
        records (c.origins w [] ks) := by
  intro records
  have hempty : c.found w = [] := by
    rw [found, load_of_startsEmpty hstart]
    cases (c.ensureFile w.files).2 <;> rfl
  have hnil : Timed 0 (c.found w) [] := hempty ▸ timed_nil 0
  obtain ⟨last, hlast, htimed⟩ := hnil.calls (by decide) htimestamps
    (fun k _ => Nat.zero_le k.clock) hclocks hyears
  refine ⟨?_, ?_, ?_⟩
  · intro r hr
    obtain ⟨origin, hdated⟩ := htimed.dated_of_mem hr
    obtain ⟨created, updated, hle, hpassed, hcreated, hupdated⟩ := hdated.times
    refine ⟨Timestamp.text created, Timestamp.text updated, ?_, ?_, ?_⟩
    · rw [Record.createdAt?, hcreated]
      rfl
    · rw [Record.updatedAt?, hupdated]
      rfl
    · -- the texts compare as the readings do
      exact Timestamp.text_le_text hle (hpassed.trans_lt hlast)
  · rw [htimed.filterMap_createdAt?]
    exact htimed.ordered
  · exact htimed.dated.imp fun _ _ hdated => ⟨hdated.hasId, hdated.sameId, hdated.sameCreated⟩

namespace Sample

/-- Two records are saved a second apart; a day later the first is updated, by a caller who tries to
write the time of its making. -/
def dating : List Call :=
  [⟨0, .save (.object [("email", .string "a")])⟩,
    ⟨1000000, .save (.object [("email", .string "b")])⟩,
    ⟨86400000000, .update (IdSupply.numberedId 1) (.object [("createdAt", .string "never")])⟩]

end Sample

/-- The update changes the time of the first record's change and nothing else of the times. -/
theorem timestamps_of_dating :
    let records := (Sample.collection.calls Sample.world Sample.dating).2.1.found
      (Sample.collection.calls Sample.world Sample.dating).2.2
    records.map Record.updatedAt? =
        [some "1970-01-02T00:00:00.000Z", some "1970-01-01T00:00:01.000Z"] ∧
      (records.filterMap Record.createdAt?).Pairwise (· ≤ ·) ∧
      records.filterMap Record.createdAt? =
        ["1970-01-01T00:00:00.000Z", "1970-01-01T00:00:01.000Z"] := by
  intro records
  have h := timestamps_of_calls (⟨rfl, Or.inl rfl⟩ : Sample.collection.StartsEmpty Sample.world)
    (by rfl) (by decide : (Sample.dating.map Call.clock).Pairwise (· ≤ ·)) (by decide)
  exact ⟨by rfl, h.2.1, by rfl⟩

end Collection
end DocStore
