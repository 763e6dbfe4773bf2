import DocStore.Proofs.Collection.Integrity
import DocStore.Proofs.Collection.Writing
/-!
# Ids stay distinct until the supply hands out a stored one

A new record gets the id its caller gives, which is refused if a record has it, or else the next id
of the supply, which is taken as it is. So a collection that starts empty holds two records of one
id as soon as the supply hands out an id that is stored, and never before. It does not take a supply
that repeats itself for this: the id may be one that a caller gave.

* `effect_ids`: what replacing records does to their ids.
* `load_perform`: the records that are found after an operation.
* `idsDistinct_call_iff`: which calls leave ids distinct.
-/

namespace DocStore.Collection

-- ---------------------------------------------------------------------------
-- The ids of replaced records
-- ---------------------------------------------------------------------------

/-- The value that an operation stores as a new record, if it stores one. -/
def Operation.newValue? (records : List Record) : Operation → Option Json
  | .save raw => some raw
  | .upsert filter patch =>
    match queryOf filter with
    | .error _ => none
    | .ok query => if records.any fun r => Record.matchesQuery r query then none else some patch
  | _ => none

/-- A record for this value was added at the end. -/
def Appends (records : List Record) (raw : Json) (ids : IdSupply) (records' : List Record) : Prop :=
  ∃ r id ids', records' = records ++ [r] ∧ Record.id? r = some id ∧
    newId records raw ids = (.ok id, ids')

/-- No record was added, and none that has an id got another one. -/
def KeepsIds (records records' : List Record) : Prop :=
  (∀ r ∈ records, (Record.id? r).isSome) →
    (records'.map Record.id?).Sublist (records.map Record.id?)

section Decisions

variable {schema : Schema} {now : Json} {records records' : List Record} {ids : IdSupply}

/-- A record that is inserted is added with its new id. -/
theorem appends_of_inserted {raw : Json} {r : Record} {ids' : IdSupply}
    (h : inserted schema now records raw ids = (.ok r, ids')) :
    Appends records raw ids (records ++ [r]) := by
  obtain ⟨fields, id, -, hid, rfl⟩ := inserted_eq_ok h
  exact ⟨_, id, _, rfl, Record.id?_assemble .., hid⟩

/-- A record keeps its id when a patch is merged into it. -/
theorem id?_merged {existing patch r : Record} {ids' : IdSupply}
    (h : merged schema now records existing patch ids = (.ok r, ids'))
    (hid : (Record.id? existing).isSome) : Record.id? r = Record.id? existing := by
  obtain ⟨fields, id, created, hkept, -, -, rfl⟩ := merged_eq_ok h
  obtain ⟨own, hown⟩ := Option.isSome_iff_exists.mp hid
  rw [keptId, hown] at hkept
  rw [Record.id?_assemble, hown, (Prod.mk.inj hkept).1]

/-- Replacing a record by one of the same id keeps the ids. -/
theorem keepsIds_set {i : Nat} {existing r : Record} (hi : records[i]? = some existing)
    (h : (Record.id? existing).isSome → Record.id? r = Record.id? existing) :
    KeepsIds records (records.set i r) := by
  intro hids
  have hsame := h (hids _ (List.mem_of_getElem? hi))
  obtain ⟨hlt, rfl⟩ := List.getElem?_eq_some_iff.mp hi
  rw [List.map_set, hsame, ← List.map_set, List.set_getElem_self]

theorem keepsIds_eraseIdx (i : Nat) : KeepsIds records (records.eraseIdx i) := fun _ =>
  (List.eraseIdx_sublist records i).map Record.id?

/-- An update keeps the ids. -/
theorem keepsIds_of_updateStep {id : String} {patch : Record} {r : Option Record}
    (h : (updateStep schema now id patch records ids).1 = .ok (.replace records' r)) :
    KeepsIds records records' := by
  rcases updateStep_eq_ok h with ⟨-, hkeep⟩ | ⟨i, s, hi, hmerged, heq⟩
  · cases hkeep
  · obtain ⟨rfl, -⟩ := Change.replace.inj heq
    exact keepsIds_set (getElem?_of_findIdx? hi) (id?_merged hmerged)

/-- A deletion keeps the ids. -/
theorem keepsIds_of_deleteStep {id : String} {r : Option Record}
    (h : (deleteStep id records ids).1 = .ok (.replace records' r)) :
    KeepsIds records records' := by
  rcases deleteStep_eq_ok h with ⟨-, hkeep⟩ | ⟨i, -, heq⟩
  · cases hkeep
  · obtain ⟨rfl, -⟩ := Change.replace.inj heq
    exact keepsIds_eraseIdx i

/-- An upsert keeps the ids if a record matches, and else adds a record. -/
theorem upsertStep_ids {query patch : Record} {r : Record}
    (h : (upsertStep schema now query patch records ids).1 = .ok (.replace records' r)) :
    if records.any fun r => Record.matchesQuery r query then KeepsIds records records'
    else Appends records (.object patch) ids records' := by
  rw [← List.findIdx?_isSome]
  rcases upsertStep_eq_ok h with ⟨i, s, hi, hmerged, heq⟩ | ⟨hnone, s, hinserted, heq⟩
  · obtain ⟨rfl, -⟩ := Change.replace.inj heq
    rw [hi, if_pos (by rfl)]
    refine keepsIds_set (getElem?_of_findIdx? hi) fun hid => ?_
    rw [Record.id?_reservedLast, id?_merged hmerged hid]
  · obtain ⟨rfl, -⟩ := Change.replace.inj heq
    rw [hnone, if_neg (by simp)]
    exact appends_of_inserted hinserted

/-- **A new record is added, or every record keeps its id.** -/
theorem effect_ids {op : Operation} {random : WordSource} {answer : Answer}
    (h : (op.effect schema now records ids random).result = .ok (.replace records' answer)) :
    (∃ raw, op.newValue? records = some raw ∧ Appends records raw ids records') ∨
      op.newValue? records = none ∧ KeepsIds records records' := by
  -- saves add, updates and deletions keep, and an upsert does either
  rcases effect_replacedBy h with ⟨hstep, -⟩ | ⟨hstep, -⟩ | ⟨hquery, hstep, -⟩ | ⟨hstep, -⟩
  · obtain ⟨s, hinserted, heq⟩ := saveStep_eq_ok hstep
    obtain ⟨rfl, -⟩ := Change.replace.inj heq
    exact Or.inl ⟨_, rfl, appends_of_inserted hinserted⟩
  · exact Or.inr ⟨rfl, keepsIds_of_updateStep hstep⟩
  · have hids := upsertStep_ids hstep
    rw [Operation.newValue?, hquery]
    dsimp only
    split at hids
    · rename_i hfound
      rw [if_pos hfound]
      exact Or.inr ⟨rfl, hids⟩
    · rename_i hmissing
      rw [if_neg hmissing]
      exact Or.inl ⟨_, rfl, hids⟩
  · exact Or.inr ⟨rfl, keepsIds_of_deleteStep hstep⟩

end Decisions

-- ---------------------------------------------------------------------------
-- The records that are found after an operation
-- ---------------------------------------------------------------------------

/-- **The records that are found after an operation**: the same as before, or those that were
decided on. -/
theorem load_perform (c : Collection) (w : World) (op : Operation) :
    (∃ records records' answer, (c.load w).answer = .ok records ∧
        (c.decision w op records).result = .ok (.replace records' answer) ∧
        (c.perform w op).answer = .ok answer ∧
        ((c.perform w op).collection.load (c.perform w op).world).answer = .ok records') ∨
      ((c.perform w op).collection.load (c.perform w op).world).answer = (c.load w).answer ∧
        ∀ records change, (c.load w).answer = .ok records →
          (c.decision w op records).result = .ok change → change.Replaces →
            Fails (c.perform w op) := by
  cases hfault : op.fault? with
  | some e =>
    rw [perform_fault hfault]
    exact Or.inr ⟨rfl, fun _ _ _ _ _ => ⟨e, rfl⟩⟩
  | none =>
    cases hload : (c.load w).answer with
    | error e =>
      rw [perform_eq, hfault, hload]
      exact Or.inr ⟨load_answer_of_error hload, fun _ _ _ _ _ => ⟨e, rfl⟩⟩
    | ok records =>
      -- what was decided was put into effect, or nothing was touched
      rcases settle_cases (c.load w).collection (c.load w).world (c.decision w op records) with
        ⟨huntouched, hreplaces⟩ | ⟨records', answer, hresult, hanswer, hstate, -⟩
      · rw [← perform_of_found hfault hload] at huntouched hreplaces
        refine Or.inr ⟨?_, fun found change hfound => ?_⟩
        · have hstate : (c.perform w op).collection.state = .loaded records := by
            rw [huntouched.collection]
            exact state_load hload
          rw [load_of_loaded hstate]
        · rw [← Except.ok.inj hfound]
          exact hreplaces change
      · rw [← perform_of_found hfault hload] at hanswer hstate
        refine Or.inl ⟨records, records', answer, rfl, hresult, hanswer, ?_⟩
        rw [load_of_loaded hstate]

-- ---------------------------------------------------------------------------
-- Distinct ids
-- ---------------------------------------------------------------------------

/-- No two of the records that are found have the same id. -/
def IdsDistinct (c : Collection) (w : World) : Prop :=
  ∀ records, (c.load w).answer = .ok records → (records.filterMap Record.id?).Nodup

/-- The call succeeds in storing a new record whose id is left to the store, and the next id of the
supply is that of a record which is there. -/
def GivesTakenId (c : Collection) (w : World) (k : Call) : Prop :=
  ∃ records raw answer, (c.load w).answer = .ok records ∧ k.op.newValue? records = some raw ∧
    LeavesId raw ∧ (c.call w k).answer = .ok answer ∧
      (c.idSupply w).next.1 ∈ records.filterMap Record.id?

/-- A call hands out no id that is taken if the next one of the supply is free. -/
theorem not_givesTakenId_of_ids {c : Collection} {w : World} {k : Call} {taken : List String}
    (hfound : (c.load w).answer.map (List.filterMap Record.id?) = .ok taken)
    (hfree : (c.idSupply w).next.1 ∉ taken) : ¬ GivesTakenId c w k := by
  rintro ⟨records, -, -, hload, -, -, -, hmem⟩
  rw [hload] at hfound
  rw [← Except.ok.inj hfound] at hfree
  exact hfree hmem

/-- Every record has an id, and no two have the same. -/
structure Identified (records : List Record) : Prop where
  hasId : ∀ r ∈ records, (Record.id? r).isSome
  distinct : (records.map Record.id?).Nodup

variable {c c₀ : Collection} {w w₀ : World} {k : Call} {records records' : List Record}

/-- Where all records have ids of their own, no id occurs twice. -/
theorem Identified.nodup_filterMap (h : Identified records) :
    (records.filterMap Record.id?).Nodup := by
  have hids : records.filterMap Record.id? = (records.map Record.id?).filterMap id := by
    rw [List.filterMap_map]
    rfl
  rw [hids]
  exact h.distinct.filterMap fun a b id ha hb => ha.trans hb.symm

/-- Fewer ids are distinct as well. -/
theorem Identified.of_sublist (h : Identified records)
    (hsub : (records'.map Record.id?).Sublist (records.map Record.id?)) : Identified records' := by
  refine ⟨fun r hr => ?_, h.distinct.sublist hsub⟩
  obtain ⟨s, hs, hsame⟩ := List.mem_map.mp (hsub.subset (List.mem_map_of_mem hr))
  rw [← hsame]
  exact h.hasId s hs

/-- A record with an id of its own may be added. -/
theorem Identified.append (h : Identified records) {r : Record} {id : String}
    (hid : Record.id? r = some id) (hfree : ∀ s ∈ records, Record.id? s ≠ some id) :
    Identified (records ++ [r]) := by
  constructor
  · intro s hs
    rcases List.mem_append.mp hs with hs | hs
    · exact h.hasId s hs
    · rw [List.mem_singleton.mp hs, hid]
      rfl
  · rw [List.map_append, List.nodup_append]
    refine ⟨h.distinct, List.nodup_singleton _, ?_⟩
    intro a ha b hb
    obtain ⟨s, hs, rfl⟩ := List.mem_map.mp ha
    rw [List.mem_singleton.mp hb, hid]
    exact hfree s hs

/-- The records that are found have ids of their own. -/
def AllIdentified (c : Collection) (w : World) : Prop :=
  ∀ records, (c.load w).answer = .ok records → Identified records

/-- A collection that starts empty has no records that could share an id. -/
theorem allIdentified_start (h : c.StartsEmpty w) : AllIdentified c w := by
  intro records hrecords
  rw [load_of_startsEmpty h] at hrecords
  split at hrecords
  · rw [← Except.ok.inj hrecords]
    exact ⟨fun _ hr => absurd hr List.not_mem_nil, List.nodup_nil⟩
  · cases hrecords

/-- **A call that gives no taken id leaves ids distinct.** -/
theorem AllIdentified.call (h : AllIdentified c w) (hk : ¬ GivesTakenId c w k) :
    AllIdentified (c.call w k).collection (c.call w k).world := by
  intro found hfound
  rw [Collection.call] at hfound
  rcases load_perform c { w with clock := k.clock } k.op with
    ⟨records, records', answer, hload, hresult, hanswer, hafter⟩ | ⟨hsame, -⟩
  · obtain rfl : records' = found := Except.ok.inj (hafter.symm.trans hfound)
    rw [load_answer_clock c w] at hload
    rcases effect_ids hresult with ⟨raw, hnew, r, id, ids', rfl, hid, hnewId⟩ | ⟨-, hkeeps⟩
    · refine (h records hload).append hid fun s hs hsid => ?_
      -- the id is the next one of the supply, or one that the caller gave and that was compared
      rcases newId_eq_ok hnewId with ⟨hleaves, hnext⟩ | ⟨-, hfree⟩
      · refine hk ⟨records, raw, answer, hload, hnew, hleaves, hanswer, ?_⟩
        obtain rfl := (Prod.mk.inj hnext).1
        exact List.mem_filterMap.mpr ⟨s, hs, hsid⟩
      · exact hfree s hs hsid
    · exact (h records hload).of_sublist (hkeeps (h records hload).hasId)
  · rw [load_answer_clock c w] at hsame
    exact h found (hsame.symm.trans hfound)

/-- An operation that stores a new record replaces the records. -/
theorem replaces_of_newValue? {schema : Schema} {now : Json} {op : Operation} {ids : IdSupply}
    {random : WordSource} {change : Change Answer} {raw : Json}
    (hresult : (op.effect schema now records ids random).result = .ok change)
    (hnew : op.newValue? records = some raw) : change.Replaces := by
  rw [effect_replaces_iff hresult]
  cases op with
  | save _ | upsert _ _ => simp [Operation.IsRead, Operation.MissesId]
  | _ => cases hnew

/-- **A call that gives a taken id leaves two records of one id.** -/
theorem GivesTakenId.not_idsDistinct (hk : GivesTakenId c w k) :
    ¬ IdsDistinct (c.call w k).collection (c.call w k).world := by
  obtain ⟨records, raw, answer, hload, hnew, hleaves, hanswer, htaken⟩ := hk
  have hstored : ¬ Fails (c.call w k) := by
    rintro ⟨e, he⟩
    rw [hanswer] at he
    cases he
  have hloadClock := (load_answer_clock c w k.clock).trans hload
  -- the call answered, so its record was added, and its id stands twice
  intro hdistinct
  rcases load_perform c { w with clock := k.clock } k.op with
    ⟨found, records', answer', hfound, hresult, -, hafter⟩ | ⟨-, hfails⟩
  · obtain rfl : records = found := Except.ok.inj (hloadClock.symm.trans hfound)
    rcases effect_ids hresult with ⟨raw', hraw', r, id, ids', rfl, hid, hnewId⟩ | ⟨hnone, -⟩
    · obtain rfl : raw = raw' := Option.some.inj (hnew.symm.trans hraw')
      rcases newId_eq_ok hnewId with ⟨-, hnext⟩ | ⟨hgiven, -⟩
      · obtain rfl := (Prod.mk.inj hnext).1
        have hnodup := hdistinct _ hafter
        rw [List.filterMap_append, List.nodup_append] at hnodup
        exact hnodup.2.2 _ htaken _ (List.mem_filterMap.mpr ⟨r, List.mem_singleton_self r, hid⟩) rfl
      · exact hgiven hleaves
    · rw [hnew] at hnone
      cases hnone
  · cases hresult : (c.decision { w with clock := k.clock } k.op records).result with
    | error e => exact hstored (fails_of_decision hloadClock hresult)
    | ok change =>
      exact hstored (hfails records change hloadClock hresult (replaces_of_newValue? hresult hnew))

/-- **As long as no taken id is handed out**, all records have ids of their own. -/
theorem allIdentified_of_reaches (hstart : c₀.StartsEmpty w₀)
    (h : Reaches (fun c w k => ¬ GivesTakenId c w k) c₀ w₀ c w) : AllIdentified c w := by
  induction h with
  | start => exact allIdentified_start hstart
  | step k _ hk ih => exact ih.call hk

/-- **Ids are distinct until the supply hands out one that is stored**, whatever the schema, the
supply and the calls; and they are distinct no longer as soon as it does. -/
theorem idsDistinct_call_iff (hstart : c₀.StartsEmpty w₀)
    (h : Reaches (fun c w k => ¬ GivesTakenId c w k) c₀ w₀ c w) :
    IdsDistinct c w ∧ ∀ k, IdsDistinct (c.call w k).collection (c.call w k).world ↔
      ¬ GivesTakenId c w k := by
  have hids := allIdentified_of_reaches hstart h
  refine ⟨fun records hrecords => (hids records hrecords).nodup_filterMap, fun k => ?_⟩
  constructor
  · exact fun hdistinct hk => hk.not_idsDistinct hdistinct
  · exact fun hk records hrecords => (hids.call hk records hrecords).nodup_filterMap

namespace Sample

/-- The first record is given the id that the supply hands out first. -/
def giving : Call :=
  ⟨0, .save (.object [("_id", .string (IdSupply.numberedId 1)), ("email", .string "a")])⟩

def given : Outcome Answer := collection.call world giving

def taken : Outcome Answer := given.collection.call given.world (saving "b")

end Sample

/-- Two calls on a supply that never repeats itself: the second record gets the id that the first one
was given. -/
theorem idsDistinct_call_given :
    IdsDistinct Sample.given.collection Sample.given.world ∧
      ¬ IdsDistinct Sample.taken.collection Sample.taken.world := by
  have hfirst : ¬ GivesTakenId Sample.collection Sample.world Sample.giving := by
    have hfound : (Sample.collection.load Sample.world).answer.map (List.filterMap Record.id?) =
        .ok [] := rfl
    exact not_givesTakenId_of_ids hfound List.not_mem_nil
  have hsecond : GivesTakenId Sample.given.collection Sample.given.world (Sample.saving "b") := by
    refine ⟨_, _, _, rfl, rfl, ?_, rfl, ?_⟩
    · intro v hv
      cases hv
    · decide
  have h := idsDistinct_call_iff (⟨rfl, Or.inl rfl⟩ : Sample.collection.StartsEmpty Sample.world)
    (.step Sample.giving .start hfirst)
  exact ⟨h.1, fun hdistinct => (h.2 (Sample.saving "b")).mp hdistinct hsecond⟩

end DocStore.Collection
