import DocStore.Proofs.Collection.Identity
/-!
# What callers are answered determines the records

A caller who writes down each record that a successful call returns, and nothing else, knows the
whole collection: a new record goes to the end of the list, an updated one takes the place of the
one that has its id, and a deleted one is struck out. The collection itself finds records by their
place. Both come to the same as long as each id is that of one record, and no id changes.

* `replay_effect`: one decision, seen by its place and by its answer.
* `Tracks.call`: a call keeps the caller's list and the records equal.
* `getAll_eq_replayAll`: whole rows of calls.
-/

namespace DocStore.Collection

-- ---------------------------------------------------------------------------
-- The list that a caller keeps
-- ---------------------------------------------------------------------------

/-- The list with this record in the place of the one that has its id. -/
def replaceById (known : List Record) (r : Record) : List Record :=
  known.map fun s => if Record.id? s = Record.id? r then r else s

/-- The list after one more answer. Of the operation it only counts which of the four mutations it
is, and of an upsert only the answer tells whether the record is new. -/
def replay (known : List Record) (op : Operation) (answer : Except StoreError Answer) :
    List Record :=
  match op, answer with
  | .save _, .ok (.record (some r)) => known ++ [r]
  | .update _ _, .ok (.record (some r)) => replaceById known r
  | .upsert _ _, .ok (.record (some r)) =>
    if known.any fun s => Record.id? s == Record.id? r then replaceById known r else known ++ [r]
  | .delete _, .ok (.record (some r)) => known.filter fun s => Record.id? s != Record.id? r
  | _, _ => known

/-- The list after a row of calls and their answers. -/
def replayAll (known : List Record) : List (Call × Except StoreError Answer) → List Record
  | [] => known
  | (k, answer) :: rest => replayAll (replay known k.op answer) rest

variable {records : List Record} {op : Operation}

theorem replay_error (records : List Record) (op : Operation) (e : StoreError) :
    replay records op (.error e) = records := by
  cases op <;> rfl

-- ---------------------------------------------------------------------------
-- Ids and places
-- ---------------------------------------------------------------------------

/-- Only one place holds a record of this id. -/
theorem Identified.place_unique (h : Identified records) {i j : Nat} {r s : Record}
    (hi : records[i]? = some r) (hj : records[j]? = some s) (hid : Record.id? r = Record.id? s) :
    i = j := by
  obtain ⟨hilt, rfl⟩ := List.getElem?_eq_some_iff.mp hi
  obtain ⟨hjlt, rfl⟩ := List.getElem?_eq_some_iff.mp hj
  have hi' : i < (records.map Record.id?).length := by rwa [List.length_map]
  have hj' : j < (records.map Record.id?).length := by rwa [List.length_map]
  have hsame : (records.map Record.id?)[i] = (records.map Record.id?)[j] := by
    rw [List.getElem_map, List.getElem_map]
    exact hid
  exact (h.distinct.getElem_inj_iff).mp hsame

/-- A record is what is found under its id. -/
theorem Identified.find?_of_mem (h : Identified records) {r : Record} (hr : r ∈ records)
    {id : String} (hid : Record.id? r = some id) :
    (records.find? fun s => Record.id? s == some id) = some r := by
  cases hfind : records.find? fun s => Record.id? s == some id with
  | none =>
    have hmissing := List.find?_eq_none.mp hfind r hr
    rw [hid, beq_self_eq_true] at hmissing
    exact absurd rfl hmissing
  | some s =>
    -- what is found has the id too, and so is this record
    have hmatch := List.find?_some hfind
    have hs : Record.id? s = Record.id? r := by
      rw [hid]
      exact beq_iff_eq.mp hmatch
    rw [List.inj_on_of_nodup_map h.distinct (List.mem_of_find?_eq_some hfind) hr hs]

/-- What was found stands at the first place that matches. -/
theorem findIdx?_of_find? {p : Record → Bool} {r : Record} (h : records.find? p = some r) :
    ∃ i, records.findIdx? p = some i ∧ records[i]? = some r := by
  obtain ⟨hp, i, hi, hr, hbefore⟩ := List.find?_eq_some_iff_getElem.mp h
  refine ⟨i, List.findIdx?_eq_some_iff_getElem.mpr ⟨hi, ?_, ?_⟩, ?_⟩
  · rw [hr]
    exact hp
  · intro j hj
    have hmiss := hbefore j hj
    rwa [Bool.not_eq_true', ← Bool.not_eq_true] at hmiss
  · rw [List.getElem?_eq_getElem hi, hr]

/-- The only place of an id is the first one. -/
theorem Identified.findIdx?_id (h : Identified records) {i : Nat} {r : Record} {id : String}
    (hi : records[i]? = some r) (hid : Record.id? r = some id) :
    (records.findIdx? fun s => Record.id? s == some id) = some i := by
  have hfind := h.find?_of_mem (List.mem_of_getElem? hi) hid
  obtain ⟨j, hfirst, hj⟩ := findIdx?_of_find? hfind
  rw [hfirst, h.place_unique hj hi rfl]

/-- Where ids are distinct, the place of the record's id is the place of the record. -/
theorem replaceById_eq_set (h : Identified records) {i : Nat} {r s : Record}
    (hi : records[i]? = some s) (hid : Record.id? r = Record.id? s) :
    replaceById records r = records.set i r := by
  refine List.ext_getElem? fun j => ?_
  rw [replaceById, List.getElem?_map, List.getElem?_set]
  cases hj : records[j]? with
  | none =>
    have hlen : records.length ≤ j := List.getElem?_eq_none_iff.mp hj
    have hlt : i < records.length := (List.getElem?_eq_some_iff.mp hi).1
    rw [if_neg (by omega)]
    rfl
  | some t =>
    by_cases hij : i = j
    · subst hij
      obtain rfl : s = t := Option.some.inj (hi.symm.trans hj)
      have hlt : i < records.length := (List.getElem?_eq_some_iff.mp hi).1
      rw [if_pos rfl, if_pos hlt, Option.map_some, if_pos hid.symm]
    · have hother : Record.id? t ≠ Record.id? r := fun hsame =>
        hij (h.place_unique hi hj (hid.symm.trans hsame.symm))
      rw [if_neg hij, Option.map_some, if_neg hother]

/-- Where ids are distinct, striking out an id takes out one record. -/
theorem filter_id_eq_eraseIdx (h : Identified records) {i : Nat} {s : Record}
    (hi : records[i]? = some s) :
    records.filter (fun t => Record.id? t != Record.id? s) = records.eraseIdx i := by
  obtain ⟨hlt, hget⟩ := List.getElem?_eq_some_iff.mp hi
  -- no record but the one at this place has the id
  have hother : ∀ j t, records[j]? = some t → j ≠ i → (Record.id? t != Record.id? s) = true := by
    intro j t hj hji
    rw [bne_iff_ne]
    exact fun hsame => hji (h.place_unique hj hi hsame)
  have hbefore : (records.take i).filter (fun t => Record.id? t != Record.id? s) =
      records.take i := by
    rw [List.filter_eq_self]
    intro t ht
    obtain ⟨j, hj⟩ := List.getElem?_of_mem ht
    rw [List.getElem?_take] at hj
    split at hj
    · exact hother j t hj (by omega)
    · cases hj
  have hafter : (records.drop (i + 1)).filter (fun t => Record.id? t != Record.id? s) =
      records.drop (i + 1) := by
    rw [List.filter_eq_self]
    intro t ht
    obtain ⟨j, hj⟩ := List.getElem?_of_mem ht
    rw [List.getElem?_drop] at hj
    exact hother (i + 1 + j) t hj (by omega)
  have hself : (Record.id? s != Record.id? s) = false := by simp
  calc records.filter (fun t => Record.id? t != Record.id? s)
      = (records.take i ++ s :: records.drop (i + 1)).filter
          (fun t => Record.id? t != Record.id? s) := by
        rw [← hget, List.cons_getElem_drop_succ, List.take_append_drop]
    _ = records.take i ++ records.drop (i + 1) := by
        rw [List.filter_append, List.filter_cons, hself, hbefore, hafter]
        rfl
    _ = records.eraseIdx i := (List.eraseIdx_eq_take_drop_succ records i).symm

-- ---------------------------------------------------------------------------
-- One decision
-- ---------------------------------------------------------------------------

section Decisions

variable {schema : Schema} {now : Json} {ids : IdSupply}

/-- A merged record in the place of the one it was merged into, seen by its id. -/
theorem replaceById_merged (h : Identified records) {i : Nat} {patch r s : Record}
    {ids' : IdSupply} {p : Record → Bool} (hi : records.findIdx? p = some i)
    (hmerged : merged schema now records (records.getD i []) patch ids = (.ok r, ids'))
    (hid : Record.id? s = Record.id? r) :
    (records.any fun t => Record.id? t == Record.id? s) = true ∧
      replaceById records s = records.set i s := by
  have hplace := getElem?_of_findIdx? hi
  have hmem := List.mem_of_getElem? hplace
  have hsame : Record.id? s = Record.id? (records.getD i []) :=
    hid.trans (id?_merged hmerged (h.hasId _ hmem))
  refine ⟨?_, replaceById_eq_set h hplace hsame⟩
  rw [List.any_eq_true]
  exact ⟨_, hmem, by rw [hsame, beq_self_eq_true]⟩

/-- **What an operation does to the records by their place is what its answer says by their id.** -/
theorem replay_effect {random : WordSource} {change : Change Answer}
    (hresult : (op.effect schema now records ids random).result = .ok change)
    (h : Identified records) (hafter : Identified (change.applyTo records)) :
    replay records op (.ok change.answer) = change.applyTo records := by
  cases op with
  | save raw =>
    -- the new record goes to the end of both lists
    obtain ⟨made, hmade, rfl⟩ := ofStep_eq_ok hresult
    obtain ⟨r, -, rfl⟩ := saveStep_eq_ok hmade
    rfl
  | update id v =>
    simp only [Operation.effect] at hresult
    split at hresult
    · cases hresult
    · obtain ⟨made, hmade, rfl⟩ := ofStep_eq_ok hresult
      rcases updateStep_eq_ok hmade with ⟨-, rfl⟩ | ⟨i, r, hi, hmerged, rfl⟩
      · rfl
      · -- the answer keeps the id of the record it replaces, so both put it at the same place
        exact (replaceById_merged h hi hmerged rfl).2
  | upsert filter v =>
    simp only [Operation.effect] at hresult
    split at hresult
    · cases hresult
    · split at hresult
      · cases hresult
      · obtain ⟨made, hmade, rfl⟩ := ofStep_eq_ok hresult
        rcases upsertStep_eq_ok hmade with ⟨i, r, hi, hmerged, rfl⟩ | ⟨-, r, -, rfl⟩
        · have hknown := replaceById_merged h hi hmerged (Record.id?_reservedLast r)
          exact (if_pos hknown.1).trans hknown.2
        · -- the id is new, or two of the records left would have it
          have hdistinct : ((records ++ [r]).map Record.id?).Nodup := hafter.distinct
          rw [List.map_append, List.nodup_append] at hdistinct
          have hnew : ¬ (records.any fun s => Record.id? s == Record.id? r) = true := by
            rw [List.any_eq_true]
            rintro ⟨s, hs, hsame⟩
            exact hdistinct.2.2 _ (List.mem_map_of_mem hs) _ (List.mem_singleton_self _)
              (beq_iff_eq.mp hsame)
          exact if_neg hnew
  | delete id =>
    obtain ⟨made, hmade, rfl⟩ := ofStep_eq_ok hresult
    rcases deleteStep_eq_ok hmade with ⟨-, rfl⟩ | ⟨i, hi, rfl⟩
    · rfl
    · have hplace := getElem?_of_findIdx? hi
      have herased := filter_id_eq_eraseIdx h hplace
      rw [hplace]
      exact herased
  | _ =>
    have hkept : ¬ change.Replaces := by
      rw [effect_replaces_iff hresult]
      exact not_not_intro (Or.inl trivial)
    cases change with
    | keep answer => rfl
    | replace records' answer => exact absurd trivial hkept

end Decisions

-- ---------------------------------------------------------------------------
-- Rows of calls
-- ---------------------------------------------------------------------------

/-- The records that are found are those on the caller's list; `made` says whether the file could be
made. -/
structure Tracks (made : Bool) (c : Collection) (w : World) (known : List Record) : Prop where
  found : (c.load w).answer = if made then .ok known else .error .file
  identified : AllIdentified c w

variable {made : Bool} {c : Collection} {w : World} {k : Call} {known : List Record}

theorem tracks_start (h : c.StartsEmpty w) : Tracks (c.ensureFile w.files).2 c w [] :=
  ⟨load_of_startsEmpty h, allIdentified_start h⟩

/-- A call that replaces no records answers nothing that changes the list. -/
theorem replay_of_kept (hload : (c.load w).answer = .ok known) (hids : Identified known)
    (hkept : ∀ change, (c.decision w op known).result = .ok change → change.Replaces →
      Fails (c.perform w op)) : replay known op (c.perform w op).answer = known := by
  cases hanswer : (c.perform w op).answer with
  | error e => exact replay_error known op e
  | ok answer =>
    obtain ⟨records, change, hrecords, hresult, rfl⟩ := decision_of_answer hanswer
    obtain rfl : known = records := Except.ok.inj (hload.symm.trans hrecords)
    cases change with
    | keep a => exact replay_effect hresult hids hids
    | replace records' a =>
      -- records were replaced, but could not be written, and the call failed
      obtain ⟨e, he⟩ := hkept _ hresult trivial
      rw [hanswer] at he
      cases he

/-- **A call keeps the caller's list and the records equal**, as long as it gives no id that a record
has. -/
theorem Tracks.call (h : Tracks made c w known) (hk : ¬ GivesTakenId c w k) :
    Tracks made (c.call w k).collection (c.call w k).world
      (replay known k.op (c.call w k).answer) := by
  have hidentified := h.identified.call hk
  have hfound : (c.load { w with clock := k.clock }).answer =
      if made then .ok known else .error .file := (load_answer_clock c w k.clock).trans h.found
  refine ⟨?_, hidentified⟩
  rw [Collection.call] at hidentified ⊢
  -- either the records were replaced, or they are found as before
  rcases load_perform c { w with clock := k.clock } k.op with
    ⟨records, records', answer, hload, hresult, hanswer, hafter⟩ | ⟨hsame, hkept⟩
  · cases made with
    | false => cases hfound.symm.trans hload
    | true =>
      obtain rfl : known = records := Except.ok.inj (hfound.symm.trans hload)
      have hids : Identified known := h.identified known h.found
      have hreplayed := replay_effect hresult hids (hidentified records' hafter)
      rw [hafter, hanswer]
      exact congrArg _ hreplayed.symm
  · rw [hsame, hfound]
    cases made with
    | false => rfl
    | true =>
      have hids : Identified known := h.identified known h.found
      exact congrArg _ (replay_of_kept hfound hids fun change => hkept known change hfound).symm

/-- **The caller's list is the collection**, after any row of calls whose ids are new. -/
theorem Tracks.calls {ks : List Call} (h : Tracks made c w known)
    (hids : Allowed (fun c w k => ¬ GivesTakenId c w k) c w ks) :
    Tracks made (c.calls w ks).2.1 (c.calls w ks).2.2
      (replayAll known (ks.zip (c.calls w ks).1)) := by
  -- over the calls, for any list that a caller has kept so far
  induction ks generalizing c w known with
  | nil => exact h
  | cons k rest ih => exact ih (h.call hids.1) hids.2

/-- **What callers are answered determines the records**: at any point of a run from an empty
collection, all records are those on the list kept from the answers alone, in its order. Each of them
is found under its id, and no other id is found. Only where the file cannot be made there are none,
and then every operation fails. -/
theorem getAll_eq_replayAll {ks : List Call} (hstart : c.StartsEmpty w)
    (hids : Allowed (fun c w k => ¬ GivesTakenId c w k) c w ks) :
    let after := c.calls w ks
    let known := replayAll [] (ks.zip after.1)
    (after.2.1.perform after.2.2 .getAll).answer =
        (if (c.ensureFile w.files).2 then .ok (.records known) else .error .file) ∧
      ((c.ensureFile w.files).2 = true →
        (known.map Record.id?).Nodup ∧
        (∀ r ∈ known, ∃ id, Record.id? r = some id ∧
          (after.2.1.perform after.2.2 (.findById id)).answer = .ok (.record (some r))) ∧
        ∀ id, (∀ r ∈ known, Record.id? r ≠ some id) →
          (after.2.1.perform after.2.2 (.findById id)).answer = .ok (.record none)) := by
  intro after known
  have htracks : Tracks (c.ensureFile w.files).2 after.2.1 after.2.2 known :=
    (tracks_start hstart).calls hids
  -- both reads answer from what is found, whatever that is
  have hgetAll : (after.2.1.perform after.2.2 .getAll).answer =
      ((after.2.1.load after.2.2).answer.map id).map Answer.records := rfl
  have hfindById : ∀ id, (after.2.1.perform after.2.2 (.findById id)).answer =
      ((after.2.1.load after.2.2).answer.map fun records =>
        records.find? fun r => Record.id? r == some id).map Answer.record := fun _ => rfl
  constructor
  · rw [hgetAll, htracks.found]
    cases (c.ensureFile w.files).2 <;> rfl
  · intro hmade
    have hfound : (after.2.1.load after.2.2).answer = .ok known := by
      rw [htracks.found, hmade]
      rfl
    have hidentified : Identified known := htracks.identified known hfound
    refine ⟨hidentified.distinct, ?_, ?_⟩
    · intro r hr
      obtain ⟨id, hid⟩ := Option.isSome_iff_exists.mp (hidentified.hasId r hr)
      have hfirst := hidentified.find?_of_mem hr hid
      refine ⟨id, hid, ?_⟩
      rw [hfindById, hfound, ← hfirst]
      rfl
    · intro id hid
      have hmissing : (known.find? fun s => Record.id? s == some id) = none := by
        rw [List.find?_eq_none]
        intro r hr hsame
        exact hid r hr (beq_iff_eq.mp hsame)
      rw [hfindById, hfound, ← hmissing]
      rfl

namespace Sample

/-- Two records are saved, the first is found by its value and changed, and the second is deleted. -/
def history : List Call :=
  [saving "a", saving "b",
    ⟨0, .upsert (.object [("email", .string "a")]) (.object [("email", .string "c")])⟩,
    ⟨0, .delete (IdSupply.numberedId 2)⟩]

end Sample

/-- What four answers tell of a collection: one record is left, the one that was changed. -/
theorem getAll_eq_replayAll_history :
    let after := Sample.collection.calls Sample.world Sample.history
    let known := replayAll [] (Sample.history.zip after.1)
    (after.2.1.perform after.2.2 .getAll).answer = .ok (.records known) ∧
      known.map (fun r => (Record.id? r, Fields.get? r "email")) =
        [(some (IdSupply.numberedId 1), some (.string "c"))] := by
  have hids : Allowed (fun c w k => ¬ GivesTakenId c w k) Sample.collection Sample.world
      Sample.history := by
    have hnone : IdSupply.numberedId 1 ∉ ([] : List String) := List.not_mem_nil
    have hone : IdSupply.numberedId 2 ∉ [IdSupply.numberedId 1] := by decide
    have htwo : IdSupply.numberedId 3 ∉ [IdSupply.numberedId 1, IdSupply.numberedId 2] := by decide
    exact ⟨not_givesTakenId_of_ids rfl hnone, not_givesTakenId_of_ids rfl hone,
      not_givesTakenId_of_ids rfl htwo, not_givesTakenId_of_ids rfl htwo, trivial⟩
  have hstart : Sample.collection.StartsEmpty Sample.world := ⟨rfl, Or.inl rfl⟩
  exact ⟨(getAll_eq_replayAll hstart hids).1, rfl⟩

end DocStore.Collection
