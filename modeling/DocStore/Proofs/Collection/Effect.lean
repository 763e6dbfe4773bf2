import DocStore.Proofs.Collection.Loading
/-!
# Operations as effects on loaded records

Every operation checks its arguments, loads, and then decides from the records, the clock and the
supplies alone what to answer and which records to put in place of the old ones. That decision is
an `Effect`; putting it into effect is the same for all operations.

* `perform_eq`: an operation is a refusal, a failed load, or an effect that is settled.
* `settled`: a settled effect leaves records and file, or replaces both.
* `saveStep_eq_ok`, `updateStep_eq_ok`, `upsertStep_eq_ok`, `deleteStep_eq_ok`: what a step that
  succeeds has done.
* `effect_replacedBy`, `effect_rewrites`: the steps, and the four ways, in which an effect replaces
  records.
-/

namespace DocStore.Collection

-- ---------------------------------------------------------------------------
-- Decisions
-- ---------------------------------------------------------------------------

/-- A change with its answer in another form. -/
def Change.map {α β : Type} (f : α → β) : Change α → Change β
  | .keep a => .keep (f a)
  | .replace records a => .replace records (f a)

/-- What a change answers. -/
def Change.answer {α : Type} : Change α → α
  | .keep a | .replace _ a => a

/-- The records that a change leaves of these. -/
def Change.applyTo {α : Type} (records : List Record) : Change α → List Record
  | .keep _ => records
  | .replace records' _ => records'

/-- What an operation decides, given the records, and what it leaves of the supplies. -/
structure Effect where
  result : Except StoreError (Change Answer)
  ids : IdSupply
  random : WordSource
  warnings : List String

def saveStep (schema : Schema) (now : Json) (raw : Json) (records : List Record) (ids : IdSupply) :
    Except StoreError (Change Record) × IdSupply :=
  match inserted schema now records raw ids with
  | (.error e, ids) => (.error e, ids)
  | (.ok r, ids) => (.ok (.replace (records ++ [r]) r), ids)

def updateStep (schema : Schema) (now : Json) (id : String) (patch : Record)
    (records : List Record) (ids : IdSupply) :
    Except StoreError (Change (Option Record)) × IdSupply :=
  match records.findIdx? fun r => Record.id? r == some id with
  | none => (.ok (.keep none), ids)
  | some i =>
    match merged schema now records (records.getD i []) patch ids with
    | (.error e, ids) => (.error e, ids)
    | (.ok r, ids) => (.ok (.replace (records.set i r) (some r)), ids)

def upsertStep (schema : Schema) (now : Json) (query patch : Record) (records : List Record)
    (ids : IdSupply) : Except StoreError (Change Record) × IdSupply :=
  match records.findIdx? fun r => Record.matchesQuery r query with
  | some i =>
    match merged schema now records (records.getD i []) patch ids with
    | (.error e, ids) => (.error e, ids)
    | (.ok r, ids) =>
      let r := Record.reservedLast r
      (.ok (.replace (records.set i r) r), ids)
  | none => saveStep schema now (.object patch) records ids

def deleteStep (id : String) (records : List Record) (ids : IdSupply) :
    Except StoreError (Change (Option Record)) × IdSupply :=
  match records.findIdx? fun r => Record.id? r == some id with
  | none => (.ok (.keep none), ids)
  | some i => (.ok (.replace (records.eraseIdx i) records[i]?), ids)

/-- What is wrong with the arguments of an operation; this is said before anything is loaded. -/
def Operation.fault? : Operation → Option StoreError
  | .findOne query | .find query =>
    match queryOf query with
    | .error e => some e
    | .ok _ => none
  | .aggregate pipeline =>
    match Stage.decodeAll pipeline with
    | .error fault => some (.invalidStage fault)
    | .ok _ => none
  | .update _ patch =>
    match patchOf patch with
    | .error e => some e
    | .ok _ => none
  | .upsert filter patch =>
    match queryOf filter with
    | .error e => some e
    | .ok _ =>
      match patchOf patch with
      | .error e => some e
      | .ok _ => none
  | _ => none

namespace Effect

/-- An answer from the records as they are. -/
def answering (answer : Answer) (ids : IdSupply) (random : WordSource) : Effect :=
  ⟨.ok (.keep answer), ids, random, []⟩

/-- A decision of a step that may replace the records. -/
def ofStep {α : Type} (f : α → Answer) (step : Except StoreError (Change α) × IdSupply)
    (random : WordSource) : Effect :=
  ⟨step.1.map (Change.map f), step.2, random, []⟩

end Effect

/-- What an operation decides once the records are loaded. -/
def Operation.effect (op : Operation) (schema : Schema) (now : Json) (records : List Record)
    (ids : IdSupply) (random : WordSource) : Effect :=
  match op with
  | .load => .answering .done ids random
  | .getAll => .answering (.records records) ids random
  | .count => .answering (.count records.length) ids random
  | .findById id =>
    .answering (.record (records.find? fun r => Record.id? r == some id)) ids random
  | .findOne query =>
    match queryOf query with
    | .error e => ⟨.error e, ids, random, []⟩
    | .ok query =>
      .answering (.record (records.find? fun r => Record.matchesQuery r query)) ids random
  | .find query =>
    match queryOf query with
    | .error e => ⟨.error e, ids, random, []⟩
    | .ok query =>
      .answering (.records (records.filter fun r => Record.matchesQuery r query)) ids random
  | .checkIntegrity => .answering (.issues (Validation.checkIntegrity schema records)) ids random
  | .aggregate pipeline =>
    match Stage.decodeAll pipeline with
    | .error fault => ⟨.error (.invalidStage fault), ids, random, []⟩
    | .ok stages =>
      ⟨.ok (.keep (.records (Stage.applyAll stages records random).1)), ids,
        (Stage.applyAll stages records random).2, Stage.warnings stages⟩
  | .save raw => .ofStep (fun r => .record (some r)) (saveStep schema now raw records ids) random
  | .update id patch =>
    match patchOf patch with
    | .error e => ⟨.error e, ids, random, []⟩
    | .ok patch => .ofStep .record (updateStep schema now id patch records ids) random
  | .upsert filter patch =>
    match queryOf filter with
    | .error e => ⟨.error e, ids, random, []⟩
    | .ok query =>
      match patchOf patch with
      | .error e => ⟨.error e, ids, random, []⟩
      | .ok patch =>
        .ofStep (fun r => .record (some r)) (upsertStep schema now query patch records ids) random
  | .delete id => .ofStep .record (deleteStep id records ids) random

/-- Puts what was decided into effect: the supplies, the file, and then memory. -/
def settle (c : Collection) (w : World) (e : Effect) : Outcome Answer :=
  let (c, w) := c.withIdSupply ({ w with random := e.random }.warn e.warnings) e.ids
  match e.result with
  | .error e => ⟨.error e, c, w⟩
  | .ok change => commit c w change

-- ---------------------------------------------------------------------------
-- Performing
-- ---------------------------------------------------------------------------

/-- Putting the supply of ids back as it is changes nothing. -/
theorem withIdSupply_idSupply (c : Collection) (w : World) :
    c.withIdSupply w (c.idSupply w) = (c, w) := by
  obtain ⟨name, schema, path, own, state⟩ := c
  cases own with
  | none => rfl
  | some ids => rfl

/-- An answer from the records as they are changes nothing. -/
theorem settle_answering (c : Collection) (w : World) (answer : Answer) :
    settle c w (.answering answer (c.idSupply w) w.random) = ⟨.ok answer, c, w⟩ := by
  have hw : ({ w with random := w.random } : World).warn [] = w := by
    rw [World.warn, List.append_nil]
  rw [settle, Effect.answering]
  dsimp only
  rw [hw, withIdSupply_idSupply]
  rfl

/-- An operation that only reads is a failed load, or an answer that is settled. -/
theorem asAnswer_reading {α : Type} (c : Collection) (w : World) (f : List Record → α)
    (g : α → Answer) :
    asAnswer g (c.reading w f) =
      match (c.load w).answer with
      | .error e => ⟨.error e, (c.load w).collection, (c.load w).world⟩
      | .ok records =>
        settle (c.load w).collection (c.load w).world
          (.answering (g (f records)) ((c.load w).collection.idSupply (c.load w).world)
            (c.load w).world.random) := by
  rw [asAnswer, reading]
  dsimp only
  cases hload : (c.load w).answer with
  | error e => rfl
  | ok records =>
    dsimp only
    rw [settle_answering]
    rfl

/-- The form of an answer does not matter to what is put in place of the records. -/
theorem asAnswer_commit {α : Type} (c : Collection) (w : World) (change : Change α)
    (g : α → Answer) : asAnswer g (commit c w change) = commit c w (change.map g) := by
  cases change with
  | keep a => rfl
  | replace records a =>
    rw [Change.map, commit, commit]
    cases c.writeFile records w.files with
    | none => rfl
    | some files => rfl

/-- An operation that may write is a failed load, or a step that is settled. -/
theorem asAnswer_writing {α : Type} (c : Collection) (w : World)
    (f : List Record → IdSupply → Except StoreError (Change α) × IdSupply) (g : α → Answer) :
    asAnswer g (c.writing w f) =
      match (c.load w).answer with
      | .error e => ⟨.error e, (c.load w).collection, (c.load w).world⟩
      | .ok records =>
        settle (c.load w).collection (c.load w).world
          (.ofStep g (f records ((c.load w).collection.idSupply (c.load w).world))
            (c.load w).world.random) := by
  rw [writing]
  dsimp only
  cases hload : (c.load w).answer with
  | error e => rfl
  | ok records =>
    -- a step draws nothing and warns of nothing, so the world is what loading left
    have hw : ({ (c.load w).world with random := (c.load w).world.random } : World).warn [] =
        (c.load w).world := by
      rw [World.warn, List.append_nil]
    dsimp only
    rw [settle, Effect.ofStep]
    dsimp only
    rw [hw]
    cases hstep : f records ((c.load w).collection.idSupply (c.load w).world) with
    | mk result ids =>
      dsimp only
      cases result with
      | error e => rfl
      | ok change => exact asAnswer_commit _ _ change g

/-- Loading leaves the schema. -/
theorem load_schema (c : Collection) (w : World) : (c.load w).collection.schema = c.schema := by
  rw [load]
  split
  · rfl
  · split <;> rfl

/-- Loading leaves the path. -/
theorem load_path (c : Collection) (w : World) : (c.load w).collection.path = c.path := by
  rw [load]
  split
  · rfl
  · split <;> rfl

/-- **Every operation is a refusal, a failed load, or an effect that is settled.** -/
theorem perform_eq (c : Collection) (w : World) (op : Operation) :
    c.perform w op =
      match op.fault? with
      | some e => ⟨.error e, c, w⟩
      | none =>
        match (c.load w).answer with
        | .error e => ⟨.error e, (c.load w).collection, (c.load w).world⟩
        | .ok records =>
          settle (c.load w).collection (c.load w).world
            (op.effect c.schema w.now records ((c.load w).collection.idSupply (c.load w).world)
              (c.load w).world.random) := by
  cases op with
  | load =>
    have hload : asAnswer (fun _ => .done) (c.load w) =
        asAnswer (fun _ => .done) (c.reading w fun _ => ()) := by
      rw [asAnswer, asAnswer, reading]
      cases (c.load w).answer <;> rfl
    rw [perform, hload]
    exact asAnswer_reading c w _ fun _ => .done
  | getAll => exact asAnswer_reading c w id .records
  | count => exact asAnswer_reading c w List.length .count
  | findById id => exact asAnswer_reading c w _ .record
  | findOne query =>
    simp only [perform, findOne, Operation.fault?, Operation.effect]
    cases queryOf query with
    | error e => rfl
    | ok query => exact asAnswer_reading c w _ .record
  | find query =>
    simp only [perform, find, Operation.fault?, Operation.effect]
    cases queryOf query with
    | error e => rfl
    | ok query => exact asAnswer_reading c w _ .records
  | checkIntegrity => exact asAnswer_reading c w _ .issues
  | aggregate pipeline =>
    simp only [perform, aggregate, Operation.fault?, Operation.effect]
    cases Stage.decodeAll pipeline with
    | error fault => rfl
    | ok stages =>
      dsimp only
      cases (c.load w).answer with
      | error e => rfl
      | ok records =>
        dsimp only
        rw [settle]
        dsimp only
        -- the supply of ids is no part of what the pipeline leaves
        have hids := fun random => withIdSupply_idSupply (c.load w).collection
          ({ (c.load w).world with random := random }.warn (Stage.warnings stages))
        unfold idSupply World.warn at hids ⊢
        rw [hids]
        rfl
  | save raw => exact asAnswer_writing c w (saveStep c.schema w.now raw) fun r => .record (some r)
  | update id patch =>
    simp only [perform, update, Operation.fault?, Operation.effect]
    cases patchOf patch with
    | error e => rfl
    | ok patch => exact asAnswer_writing c w (updateStep c.schema w.now id patch) .record
  | upsert filter update =>
    simp only [perform, upsert, Operation.fault?, Operation.effect]
    cases queryOf filter with
    | error e => rfl
    | ok query =>
      cases patchOf update with
      | error e => rfl
      | ok patch =>
        exact asAnswer_writing c w (upsertStep c.schema w.now query patch) fun r => .record (some r)
  | delete id => exact asAnswer_writing c w (deleteStep id) .record

theorem perform_fault {op : Operation} {e : StoreError} (h : op.fault? = some e) (c : Collection)
    (w : World) : c.perform w op = ⟨.error e, c, w⟩ := by
  rw [perform_eq, h]

theorem perform_of_load_error {op : Operation} (h : op.fault? = none) {c c' : Collection}
    {w w' : World} {e : StoreError} (hload : c.load w = ⟨.error e, c', w'⟩) :
    c.perform w op = ⟨.error e, c', w'⟩ := by
  rw [perform_eq, h, hload]

/-- Once the records are loaded, the decision of the operation is settled. -/
theorem perform_of_load {op : Operation} (h : op.fault? = none) {c c' : Collection} {w w' : World}
    {records : List Record} (hload : c.load w = ⟨.ok records, c', w'⟩) :
    c.perform w op =
      settle c' w' (op.effect c.schema w.now records (c'.idSupply w') w'.random) := by
  rw [perform_eq, h, hload]

-- ---------------------------------------------------------------------------
-- What settling leaves
-- ---------------------------------------------------------------------------

/-- What is left once a decision is settled. -/
structure Settled (c : Collection) (w : World) (e : Effect) (o : Outcome Answer) : Prop where
  schema : o.collection.schema = c.schema
  path : o.collection.path = c.path
  ids : o.collection.idSupply o.world = e.ids
  /-- Memory and file change together, or not at all. -/
  records : (o.collection.state = c.state ∧ o.world.files = w.files) ∨
    ∃ records answer, e.result = .ok (.replace records answer) ∧
      o.collection.state = .loaded records ∧ c.writeFile records w.files = some o.world.files

/-- Replacing the supply touches nothing else. -/
theorem withIdSupply_eq (c : Collection) (w : World) (ids : IdSupply) :
    c.withIdSupply w ids =
      ({ c with ownIds := c.ownIds.map fun _ => ids },
        { w with ids := if c.ownIds.isSome then w.ids else ids }) := by
  obtain ⟨name, schema, path, own, state⟩ := c
  cases own with
  | none => rfl
  | some own => rfl

/-- Settling a replacement comes to whether it can be written. -/
theorem settle_of_replace (c : Collection) (w : World) {e : Effect} {records : List Record}
    {answer : Answer} (h : e.result = .ok (.replace records answer)) :
    let spent : Collection := { c with ownIds := c.ownIds.map fun _ => e.ids }
    let around : World :=
      { w with ids := if c.ownIds.isSome then w.ids else e.ids, random := e.random,
               warnings := w.warnings ++ e.warnings }
    settle c w e =
      match c.writeFile records w.files with
      | none => ⟨.error .file, spent, around⟩
      | some files =>
        ⟨.ok answer, { spent with state := .loaded records }, { around with files := files }⟩ := by
  intro spent around
  rw [settle, withIdSupply_eq, h]
  rfl

/-- **A settled effect leaves records and file, or replaces both.** -/
theorem settled (c : Collection) (w : World) (e : Effect) : Settled c w e (settle c w e) := by
  -- the supply is the collection's own or that of the world, and is put back where it was taken
  -- from
  have hids : (c.ownIds.map fun _ => e.ids).getD (if c.ownIds.isSome then w.ids else e.ids) =
      e.ids := by
    cases c.ownIds <;> rfl
  rw [settle, withIdSupply_eq]
  dsimp only
  split
  · exact ⟨rfl, rfl, hids, Or.inl ⟨rfl, rfl⟩⟩
  · rename_i change hresult
    unfold commit
    split
    · exact ⟨rfl, rfl, hids, Or.inl ⟨rfl, rfl⟩⟩
    · rename_i records answer
      split
      · exact ⟨rfl, rfl, hids, Or.inl ⟨rfl, rfl⟩⟩
      · -- only here, where the file was written, does memory change
        rename_i files hwrite
        exact ⟨rfl, rfl, hids, Or.inr ⟨records, answer, hresult, rfl, hwrite⟩⟩

/-- An operation that succeeds answers what it decided. -/
theorem answer_settle {c : Collection} {w : World} {e : Effect} {answer : Answer}
    (h : (settle c w e).answer = .ok answer) :
    ∃ change, e.result = .ok change ∧ change.answer = answer := by
  rw [settle, withIdSupply_eq] at h
  cases hresult : e.result with
  | error reason =>
    rw [hresult] at h
    cases h
  | ok change =>
    rw [hresult] at h
    refine ⟨change, rfl, ?_⟩
    cases change with
    | keep a => exact Except.ok.inj h
    | replace records a =>
      unfold commit at h
      dsimp only at h
      split at h
      · cases h
      · exact Except.ok.inj h

-- ---------------------------------------------------------------------------
-- Steps that succeed
-- ---------------------------------------------------------------------------

variable {schema : Schema} {now : Json} {records records' : List Record} {ids : IdSupply}

/-- A save that succeeds has added its record at the end. -/
theorem saveStep_eq_ok {raw : Json} {change : Change Record}
    (h : (saveStep schema now raw records ids).1 = .ok change) :
    ∃ r, inserted schema now records raw ids = (.ok r, (saveStep schema now raw records ids).2) ∧
      change = .replace (records ++ [r]) r := by
  unfold saveStep at h ⊢
  split at h
  · simp at h
  · rename_i r ids' hinserted
    rw [hinserted]
    exact ⟨r, rfl, (Except.ok.inj h).symm⟩

/-- An update that succeeds has found no record with the id, or has replaced the first one by what
it merged. -/
theorem updateStep_eq_ok {id : String} {patch : Record} {change : Change (Option Record)}
    (h : (updateStep schema now id patch records ids).1 = .ok change) :
    (records.findIdx? fun r => Record.id? r == some id) = none ∧ change = .keep none ∨
      ∃ i r, (records.findIdx? fun r => Record.id? r == some id) = some i ∧
        merged schema now records (records.getD i []) patch ids =
          (.ok r, (updateStep schema now id patch records ids).2) ∧
        change = .replace (records.set i r) (some r) := by
  unfold updateStep at h ⊢
  split at h
  · rename_i hnone
    exact Or.inl ⟨hnone, (Except.ok.inj h).symm⟩
  · rename_i i hi
    split at h
    · simp at h
    · rename_i r ids' hmerged
      rw [hi]
      exact Or.inr ⟨i, r, rfl, hmerged, (Except.ok.inj h).symm⟩

/-- An upsert that succeeds has replaced the first record that matches, with its reserved fields at
the end, or has saved the patch as a new one. -/
theorem upsertStep_eq_ok {query patch : Record} {change : Change Record}
    (h : (upsertStep schema now query patch records ids).1 = .ok change) :
    (∃ i r, (records.findIdx? fun r => Record.matchesQuery r query) = some i ∧
        merged schema now records (records.getD i []) patch ids =
          (.ok r, (upsertStep schema now query patch records ids).2) ∧
        change = .replace (records.set i (Record.reservedLast r)) (Record.reservedLast r)) ∨
      (records.findIdx? fun r => Record.matchesQuery r query) = none ∧
        ∃ r, inserted schema now records (.object patch) ids =
            (.ok r, (upsertStep schema now query patch records ids).2) ∧
          change = .replace (records ++ [r]) r := by
  unfold upsertStep at h ⊢
  split at h
  · rename_i i hi
    split at h
    · simp at h
    · rename_i r ids' hmerged
      rw [hi]
      exact Or.inl ⟨i, r, rfl, hmerged, (Except.ok.inj h).symm⟩
  · rename_i hnone
    rw [hnone]
    exact Or.inr ⟨rfl, saveStep_eq_ok h⟩

/-- A deletion that succeeds has found no record with the id, or has taken the first one out. -/
theorem deleteStep_eq_ok {id : String} {change : Change (Option Record)}
    (h : (deleteStep id records ids).1 = .ok change) :
    (records.findIdx? fun r => Record.id? r == some id) = none ∧ change = .keep none ∨
      ∃ i, (records.findIdx? fun r => Record.id? r == some id) = some i ∧
        change = .replace (records.eraseIdx i) records[i]? := by
  unfold deleteStep at h
  split at h
  · rename_i hnone
    exact Or.inl ⟨hnone, (Except.ok.inj h).symm⟩
  · rename_i i hi
    exact Or.inr ⟨i, hi, (Except.ok.inj h).symm⟩

theorem deleteStep_ids (id : String) (records : List Record) (ids : IdSupply) :
    (deleteStep id records ids).2 = ids := by
  unfold deleteStep
  split <;> rfl

/-- A decision that succeeds comes from a step that does. -/
theorem ofStep_eq_ok {α : Type} {f : α → Answer} {step : Except StoreError (Change α) × IdSupply}
    {random : WordSource} {change : Change Answer}
    (h : (Effect.ofStep f step random).result = .ok change) :
    ∃ made, step.1 = .ok made ∧ change = made.map f := by
  obtain ⟨result, ids⟩ := step
  cases result with
  | error e => simp [Effect.ofStep, Except.map] at h
  | ok made => exact ⟨made, rfl, (Except.ok.inj h).symm⟩

-- ---------------------------------------------------------------------------
-- What a decision may put in place of the records
-- ---------------------------------------------------------------------------

/-- Arguments as callers can give them: JSON values. -/
def Operation.WellFormed : Operation → Prop
  | .findOne v | .find v | .aggregate v | .save v | .update _ v => v.WellFormed
  | .upsert filter patch => filter.WellFormed ∧ patch.WellFormed
  | _ => True

/-- The ways in which records are replaced, and what each takes from the supply of ids. -/
inductive Rewrites (schema : Schema) (now : Json) (records : List Record) (ids : IdSupply) :
    List Record → IdSupply → Prop
  | append {raw : Json} {r : Record} {ids' : IdSupply} (hraw : raw.WellFormed)
      (h : inserted schema now records raw ids = (.ok r, ids')) :
      Rewrites schema now records ids (records ++ [r]) ids'
  | set {i : Nat} {existing patch r : Record} {ids' : IdSupply}
      (hi : records[i]? = some existing) (hpatch : Json.WellFormed (.object patch))
      (h : merged schema now records existing patch ids = (.ok r, ids')) :
      Rewrites schema now records ids (records.set i r) ids'
  | setLast {i : Nat} {existing patch r : Record} {ids' : IdSupply}
      (hi : records[i]? = some existing) (hpatch : Json.WellFormed (.object patch))
      (h : merged schema now records existing patch ids = (.ok r, ids')) :
      Rewrites schema now records ids (records.set i (Record.reservedLast r)) ids'
  | erase (i : Nat) : Rewrites schema now records ids (records.eraseIdx i) ids

/-- A patch that is accepted is an object. -/
theorem patchOf_eq_ok {v : Json} {patch : Record} (h : patchOf v = .ok patch) :
    v = .object patch := by
  cases v with
  | object members => rw [Except.ok.inj h]
  | _ => simp [patchOf] at h

/-- The record at the place that was found. -/
theorem getElem?_of_findIdx? {p : Record → Bool} {i : Nat} (h : records.findIdx? p = some i) :
    records[i]? = some (records.getD i []) := by
  obtain ⟨hi, -⟩ := List.findIdx?_eq_some_iff_findIdx_eq.mp h
  rw [List.getD_eq_getElem?_getD, List.getElem?_eq_getElem hi]
  rfl

/-- A save adds a record that was laid out for it. -/
theorem saveStep_rewrites {raw : Json} (hraw : raw.WellFormed) {r : Record}
    (h : (saveStep schema now raw records ids).1 = .ok (.replace records' r)) :
    Rewrites schema now records ids records' (saveStep schema now raw records ids).2 := by
  obtain ⟨s, hinserted, heq⟩ := saveStep_eq_ok h
  obtain ⟨rfl, -⟩ := Change.replace.inj heq
  exact .append hraw hinserted

/-- An update replaces a record by one that was merged with it. -/
theorem updateStep_rewrites {id : String} {patch : Record}
    (hpatch : Json.WellFormed (.object patch)) {r : Option Record}
    (h : (updateStep schema now id patch records ids).1 = .ok (.replace records' r)) :
    Rewrites schema now records ids records' (updateStep schema now id patch records ids).2 := by
  rcases updateStep_eq_ok h with ⟨-, hkeep⟩ | ⟨i, s, hi, hmerged, heq⟩
  · cases hkeep
  · obtain ⟨rfl, -⟩ := Change.replace.inj heq
    exact .set (getElem?_of_findIdx? hi) hpatch hmerged

/-- An upsert does one or the other, and moves reserved fields to the end where it replaces. -/
theorem upsertStep_rewrites {query patch : Record} (hpatch : Json.WellFormed (.object patch))
    {r : Record}
    (h : (upsertStep schema now query patch records ids).1 = .ok (.replace records' r)) :
    Rewrites schema now records ids records' (upsertStep schema now query patch records ids).2 := by
  rcases upsertStep_eq_ok h with ⟨i, s, hi, hmerged, heq⟩ | ⟨-, s, hinserted, heq⟩
  · obtain ⟨rfl, -⟩ := Change.replace.inj heq
    exact .setLast (getElem?_of_findIdx? hi) hpatch hmerged
  · obtain ⟨rfl, -⟩ := Change.replace.inj heq
    exact .append hpatch hinserted

/-- A deletion takes a record out. -/
theorem deleteStep_rewrites {id : String} {r : Option Record}
    (h : (deleteStep id records ids).1 = .ok (.replace records' r)) :
    Rewrites schema now records ids records' (deleteStep id records ids).2 := by
  rw [deleteStep_ids]
  rcases deleteStep_eq_ok h with ⟨-, hkeep⟩ | ⟨i, -, heq⟩
  · cases hkeep
  · obtain ⟨rfl, -⟩ := Change.replace.inj heq
    exact .erase i

/-- A decision that replaces records comes from a step that replaces them. -/
theorem ofStep_replace {α : Type} {f : α → Answer} {step : Except StoreError (Change α) × IdSupply}
    {random : WordSource} {answer : Answer}
    (h : (Effect.ofStep f step random).result = .ok (.replace records' answer)) :
    ∃ r, step.1 = .ok (.replace records' r) := by
  obtain ⟨made, hmade, heq⟩ := ofStep_eq_ok h
  cases made with
  | keep a => cases heq
  | replace rs a =>
    obtain ⟨rfl, -⟩ := Change.replace.inj heq
    exact ⟨a, hmade⟩

/-- The step by which an operation replaces records, and what it leaves of the supply of ids. -/
inductive ReplacedBy (schema : Schema) (now : Json) (records : List Record) (ids : IdSupply)
    (records' : List Record) (ids' : IdSupply) : Operation → Prop
  | save {raw : Json} {r : Record}
      (h : (saveStep schema now raw records ids).1 = .ok (.replace records' r))
      (hids : (saveStep schema now raw records ids).2 = ids') :
      ReplacedBy schema now records ids records' ids' (.save raw)
  | update {id : String} {patch : Record} {r : Option Record}
      (h : (updateStep schema now id patch records ids).1 = .ok (.replace records' r))
      (hids : (updateStep schema now id patch records ids).2 = ids') :
      ReplacedBy schema now records ids records' ids' (.update id (.object patch))
  | upsert {filter : Json} {query patch r : Record} (hquery : queryOf filter = .ok query)
      (h : (upsertStep schema now query patch records ids).1 = .ok (.replace records' r))
      (hids : (upsertStep schema now query patch records ids).2 = ids') :
      ReplacedBy schema now records ids records' ids' (.upsert filter (.object patch))
  | delete {id : String} {r : Option Record}
      (h : (deleteStep id records ids).1 = .ok (.replace records' r))
      (hids : (deleteStep id records ids).2 = ids') :
      ReplacedBy schema now records ids records' ids' (.delete id)

/-- **Records are only replaced by the steps of the four mutations.** -/
theorem effect_replacedBy {op : Operation} {random : WordSource} {answer : Answer}
    (h : (op.effect schema now records ids random).result = .ok (.replace records' answer)) :
    ReplacedBy schema now records ids records' (op.effect schema now records ids random).ids op := by
  cases op with
  | save raw =>
    obtain ⟨r, hstep⟩ := ofStep_replace h
    exact .save hstep rfl
  | update id v =>
    simp only [Operation.effect] at h ⊢
    split at h
    · simp at h
    · rename_i patch hpatch
      obtain ⟨r, hstep⟩ := ofStep_replace h
      rw [patchOf_eq_ok hpatch]
      exact .update hstep rfl
  | upsert filter v =>
    simp only [Operation.effect] at h ⊢
    split at h
    · simp at h
    · rename_i query hquery
      split at h
      · simp at h
      · rename_i patch hpatch
        obtain ⟨r, hstep⟩ := ofStep_replace h
        rw [patchOf_eq_ok hpatch]
        exact .upsert hquery hstep rfl
  | delete id =>
    obtain ⟨r, hstep⟩ := ofStep_replace h
    exact .delete hstep rfl
  -- find v | aggregate v | what only reads keeps the records, whatever it answers
  | findOne v | find v | aggregate v =>
    simp only [Operation.effect] at h
    split at h <;> simp [Effect.answering] at h
  | _ => simp [Operation.effect, Effect.answering] at h

/-- **Whatever an operation puts in place of the records** comes from one of the four rewrites. -/
theorem effect_rewrites {op : Operation} (hop : op.WellFormed) {random : WordSource}
    {answer : Answer} (h : (op.effect schema now records ids random).result =
      .ok (.replace records' answer)) :
    Rewrites schema now records ids records' (op.effect schema now records ids random).ids := by
  rcases effect_replacedBy h with
    ⟨hstep, hids⟩ | ⟨hstep, hids⟩ | ⟨-, hstep, hids⟩ | ⟨hstep, hids⟩
  · exact hids ▸ saveStep_rewrites hop hstep
  · exact hids ▸ updateStep_rewrites hop hstep
  · exact hids ▸ upsertStep_rewrites hop.2 hstep
  · exact hids ▸ deleteStep_rewrites hstep

end DocStore.Collection
