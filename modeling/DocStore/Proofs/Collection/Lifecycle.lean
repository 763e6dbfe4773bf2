import DocStore.Proofs.Collection.Reopening
import DocStore.Proofs.Collection.Writing
/-!
# The life of a collection

Calls are made one after another while somebody else changes the files. A collection that could not
read its file fails and tries again with the next call; one that has read it never looks again, and
answers from memory whatever becomes of the file.

Memory is three cells that are written one by one: a status, the records and the reason of the last
failure. Nothing is left in them of an attempt that failed or of the failure before a success, so
they always show one of the states of `LoadState`.

* `Cells.call_of`: a call writes into the cells what the state of the collection becomes.
* `loaded_events`, `Quiet.events`: what never changes once the records are in memory.
* `call_reopened`: a call that has to look into the file is that of a fresh collection.
* `lifecycle`: whole runs.
-/

namespace DocStore.Collection

-- ---------------------------------------------------------------------------
-- What happens
-- ---------------------------------------------------------------------------

/-- One thing that happens: a call, or a change of the files by somebody else. -/
inductive Event where
  | call (k : Call)
  | outside (files : FileTree)

/-- The collection and the world after one thing that happens. -/
def event (c : Collection) (w : World) : Event → Collection × World
  | .call k => ((c.call w k).collection, (c.call w k).world)
  | .outside files => (c, { w with files := files })

/-- The collection and the world after several things in turn. -/
def events (c : Collection) (w : World) : List Event → Collection × World
  | [] => (c, w)
  | e :: rest => events (c.event w e).1 (c.event w e).2 rest

/-- No mutation that succeeds. -/
def Event.Keeps (c : Collection) (w : World) : Event → Prop
  | .call k => KeepsRecords c { w with clock := k.clock } k.op
  | .outside _ => True

/-- Nothing that happens is a mutation that succeeds. -/
def Quiet (c : Collection) (w : World) : List Event → Prop
  | [] => True
  | e :: rest => e.Keeps c w ∧ Quiet (c.event w e).1 (c.event w e).2 rest

variable {c c' : Collection} {w w' : World} {k : Call} {records : List Record}

-- ---------------------------------------------------------------------------
-- Memory cell by cell
-- ---------------------------------------------------------------------------

/-- What a collection says of its state. -/
inductive LoadStatus where
  | unloaded
  | loaded
  | failed
deriving DecidableEq

/-- The name of a status as it is shown. -/
def LoadStatus.name : LoadStatus → String
  | .unloaded => "unloaded"
  | .loaded => "loaded"
  | .failed => "failed"

/-- The memory of a collection, cell by cell. -/
structure Cells where
  status : LoadStatus
  records : List Record
  lastError : Option String

namespace Cells

/-- The cells of a new collection. -/
def fresh : Cells := ⟨.unloaded, [], none⟩

/-- The cells that show a state. -/
def of : LoadState → Cells
  | .unloaded => fresh
  | .loaded records => ⟨.loaded, records, none⟩
  | .failed e => ⟨.failed, [], some e.message⟩

/-- How many records are in memory, if they are. -/
def loadedCount (m : Cells) : Option Nat :=
  if m.status = .loaded then some m.records.length else none

/-- Unless the records are there, they are those that were found, or all there is is why none were. -/
def ensureLoaded (m : Cells) (found : Except StoreError (List Record)) : Cells :=
  if m.status = .loaded then m
  else
    match found with
    | .ok records => { m with records := records, status := .loaded, lastError := none }
    | .error e => { m with records := [], status := .failed, lastError := some e.message }

/-- What a call writes into the cells: what loading leaves, and then the new records, once they are
in the file. Status and error are not written again. -/
def call (m : Cells) (c : Collection) (w : World) (k : Call) : Cells :=
  match k.op.fault? with
  | some _ => m
  | none =>
    let files := if m.status = .loaded then w.files else (c.ensureFile w.files).1
    let m := m.ensureLoaded (c.stored w.files)
    if m.status = .loaded then
      match (k.op.effect c.schema k.now m.records (c.idSupply w) w.random).result with
      | .ok (.replace records _) =>
        if (c.writeFile records files).isSome then { m with records := records } else m
      | _ => m
    else m

/-- The cells after several things in turn. -/
def events (m : Cells) (c : Collection) (w : World) : List Event → Cells
  | [] => m
  | .call k :: rest => (m.call c w k).events (c.call w k).collection (c.call w k).world rest
  | .outside files :: rest => m.events c { w with files := files } rest

/-- Each cell holds something only in the status it belongs to, and the collection shows the cells. -/
structure Shown (m : Cells) (c : Collection) : Prop where
  count : m.loadedCount.isSome ↔ m.status = .loaded
  error : m.lastError.isSome ↔ m.status = .failed
  records : m.status ≠ .loaded → m.records = []
  sameStatus : c.stateName = m.status.name
  sameCount : c.loadedCount = m.loadedCount
  sameError : c.lastError = m.lastError

/-- The cells that show a state agree with it. -/
theorem shown_of (c : Collection) : (of c.state).Shown c := by
  obtain ⟨name, schema, path, own, state⟩ := c
  cases state with
  | unloaded =>
    exact ⟨by simp [of, fresh, Cells.loadedCount], by simp [of, fresh], fun _ => rfl, rfl, rfl, rfl⟩
  | loaded records =>
    exact ⟨iff_of_true rfl rfl, by simp [of], fun h => absurd rfl h, rfl, rfl, rfl⟩
  | failed e =>
    exact ⟨by simp [of, Cells.loadedCount], iff_of_true rfl rfl, fun _ => rfl, rfl, rfl, rfl⟩

/-- The cells do not say loaded where nothing is in memory. -/
theorem status_of_notLoaded {c : Collection} (h : c.NotLoaded) : (of c.state).status ≠ .loaded := by
  rw [NotLoaded, loaded?] at h
  cases hstate : c.state with
  | loaded records =>
    rw [hstate] at h
    cases h
  | unloaded | failed e => simp [of, fresh]

end Cells

/-- The state that is left when a decision on loaded records is settled. -/
theorem state_settle (h : c.state = .loaded records) (w : World) (e : Effect) :
    Cells.of (settle c w e).collection.state =
      match e.result with
      | .ok (.replace records' _) =>
        if (c.writeFile records' w.files).isSome then ⟨.loaded, records', none⟩
        else ⟨.loaded, records, none⟩
      | _ => ⟨.loaded, records, none⟩ := by
  cases hresult : e.result with
  | error reason =>
    rw [settle, withIdSupply_eq, hresult]
    exact congrArg Cells.of h
  | ok change =>
    cases change with
    | keep answer =>
      rw [settle, withIdSupply_eq, hresult]
      exact congrArg Cells.of h
    | replace records' answer =>
      rw [settle_of_replace c w hresult]
      dsimp only
      cases c.writeFile records' w.files with
      | none => exact congrArg Cells.of h
      | some files => rfl

/-- On loaded records a call writes into the cells what the state becomes. -/
theorem Cells.call_of_loaded (h : c.state = .loaded records) (w : World) (k : Call) :
    (⟨.loaded, records, none⟩ : Cells).call c w k = .of (c.call w k).collection.state := by
  rw [Cells.call]
  cases hfault : k.op.fault? with
  | some e =>
    rw [call_fault hfault]
    exact (congrArg Cells.of h).symm
  | none =>
    rw [Collection.call, perform_of_load hfault (load_of_loaded h _), state_settle h]
    rfl

/-- **A call writes into the cells what the state of the collection becomes.** -/
theorem Cells.call_of (c : Collection) (w : World) (k : Call) :
    (Cells.of c.state).call c w k = .of (c.call w k).collection.state := by
  rcases notLoaded_or_loaded c with hnot | ⟨records, hstate⟩
  · have hstatus : (Cells.of c.state).status ≠ .loaded := Cells.status_of_notLoaded hnot
    cases hfault : k.op.fault? with
    | some e =>
      rw [Cells.call, hfault, call_fault hfault]
    | none =>
      cases hstored : c.stored w.files with
      | error e =>
        rw [Cells.call, hfault, call_of_stored_error hfault hnot hstored]
        simp only [Cells.ensureLoaded, if_neg hstatus, hstored]
        rfl
      | ok records =>
        -- a call that loads is the same call on the records that were found
        have hloaded := Cells.call_of_loaded (c := { c with state := .loaded records }) rfl
          { w with files := (c.ensureFile w.files).1,
                   warnings := w.warnings ++ c.loadWarnings records } k
        rw [call_of_notLoaded hfault hnot hstored, ← hloaded, Cells.call, Cells.call, hfault]
        simp only [Cells.ensureLoaded, if_neg hstatus, hstored]
        rfl
  · rw [hstate]
    exact Cells.call_of_loaded hstate w k

/-- **The cells always show the state**, whatever happens. -/
theorem Cells.events_of (c : Collection) (w : World) (es : List Event) :
    (Cells.of c.state).events c w es = .of (c.events w es).1.state := by
  -- over what happens, for any state to begin with
  induction es generalizing c w with
  | nil => rfl
  | cons e rest ih =>
    cases e with
    | call k =>
      rw [Cells.events, Cells.call_of]
      exact ih ..
    | outside files => exact ih ..

-- ---------------------------------------------------------------------------
-- Once the records are in memory
-- ---------------------------------------------------------------------------

/-- A call never puts loaded records out of memory, and keeps them unless it is a mutation that
succeeds. -/
theorem loaded_call (h : c.state = .loaded records) (w : World) (k : Call) :
    (∃ records', (c.call w k).collection.state = .loaded records') ∧
      (KeepsRecords c { w with clock := k.clock } k.op →
        (c.call w k).collection.state = .loaded records) := by
  cases hfault : k.op.fault? with
  | some e =>
    rw [call_fault hfault]
    exact ⟨⟨records, h⟩, fun _ => h⟩
  | none =>
    have hload := load_of_loaded h { w with clock := k.clock }
    have hperform := perform_of_records hfault (congrArg Outcome.answer hload)
    rw [hload] at hperform
    have hkept : KeepsRecords c { w with clock := k.clock } k.op →
        (c.call w k).collection.state = .loaded records := by
      intro hkeeps
      rw [call, (hperform.1 hkeeps).collection]
      exact h
    refine ⟨?_, hkept⟩
    -- a call that succeeds with a mutation has other records in memory, but has records
    by_cases hkeeps : KeepsRecords c { w with clock := k.clock } k.op
    · exact ⟨records, hkept hkeeps⟩
    · obtain ⟨records', hstate, -⟩ := (hperform.2 hkeeps).file
      exact ⟨records', hstate⟩

/-- **What was loaded stays loaded**, whatever happens. -/
theorem loaded_events (h : c.state = .loaded records) (w : World) (es : List Event) :
    ∃ records', (c.events w es).1.state = .loaded records' := by
  induction es generalizing c w records with
  | nil => exact ⟨records, h⟩
  | cons e rest ih =>
    cases e with
    | call k =>
      obtain ⟨records', hstate⟩ := (loaded_call h w k).1
      exact ih hstate _
    | outside files => exact ih h _

/-- Nothing that happens changes the schema. -/
theorem events_schema (c : Collection) (w : World) (es : List Event) :
    (c.events w es).1.schema = c.schema := by
  induction es generalizing c w with
  | nil => rfl
  | cons e rest ih =>
    cases e with
    | call k => exact (ih ..).trans (call_schema c w k)
    | outside files => exact ih ..

/-- Records stay the same until a mutation succeeds. -/
theorem Quiet.events {es : List Event} (hquiet : Quiet c w es) (h : c.state = .loaded records) :
    (c.events w es).1.state = .loaded records := by
  induction es generalizing c w with
  | nil => exact h
  | cons e rest ih =>
    cases e with
    | call k => exact ih hquiet.2 ((loaded_call h w k).2 hquiet.1)
    | outside files => exact ih hquiet.2 h

/-- What a read answers is worked out from the records and the random words alone. -/
theorem effect_of_read {op : Operation} (hread : op.IsRead) (hfault : op.fault? = none)
    (schema : Schema) (records : List Record) (random : WordSource) :
    ∃ answer random' warnings, ∀ now ids, op.effect schema now records ids random =
      ⟨.ok (.keep answer), ids, random', warnings⟩ := by
  cases op with
  | save _ | update _ _ | upsert _ _ | delete _ => exact hread.elim
  | findOne v | find v | aggregate v =>
    simp only [Operation.fault?] at hfault
    simp only [Operation.effect]
    split at hfault
    · cases hfault
    · exact ⟨_, _, _, fun _ _ => rfl⟩
  | _ => exact ⟨_, _, _, fun _ _ => rfl⟩

/-- **Reads answer from memory**, whatever became of the file, the supply of ids and the time. -/
theorem call_answer_of_read (hread : k.op.IsRead) (h : c.state = .loaded records)
    (h' : c'.state = .loaded records) (hschema : c'.schema = c.schema)
    (hrandom : w'.random = w.random) : (c'.call w' k).answer = (c.call w k).answer := by
  cases hfault : k.op.fault? with
  | some e => rw [call_fault hfault, call_fault hfault]
  | none =>
    obtain ⟨answer, random', warnings, heffect⟩ :=
      effect_of_read hread hfault c.schema records w.random
    rw [call, call, perform_of_load hfault (load_of_loaded h _),
      perform_of_load hfault (load_of_loaded h' _)]
    dsimp only
    rw [hschema, hrandom, heffect, heffect, settle, settle, withIdSupply_eq, withIdSupply_eq]
    rfl

-- ---------------------------------------------------------------------------
-- As long as they are not
-- ---------------------------------------------------------------------------

/-- **A call that has to look into the file is that of a fresh collection**: nothing is left of the
attempts before. -/
theorem call_reopened (h : c.NotLoaded) (hfault : k.op.fault? = none) (w : World) :
    c.call w k = c.reopened.call w k := by
  have hfresh : c.reopened.NotLoaded := rfl
  -- a fresh collection reads the same file, since its path is the same
  have hsame : c.reopened.stored w.files = c.stored w.files := stored_eq_of_path (by rfl) w.files
  have hensure : c.reopened.ensureFile w.files = c.ensureFile w.files :=
    ensureFile_eq_of_path (by rfl) w.files
  cases hstored : c.stored w.files with
  | error e =>
    rw [call_of_stored_error hfault h hstored,
      call_of_stored_error hfault hfresh (hsame.trans hstored), hensure]
    rfl
  | ok records =>
    rw [call_of_notLoaded hfault h hstored,
      call_of_notLoaded hfault hfresh (hsame.trans hstored), hensure]
    rfl

-- ---------------------------------------------------------------------------
-- Whole runs
-- ---------------------------------------------------------------------------

/-- **The life of a collection**, whatever is called and whatever becomes of its file.

Memory shows one of three states. Once the records are loaded they stay so, and as long as no
mutation succeeds they are the same and every read answers as before. As long as they are not, a call
that gets past its arguments does what it would do on a fresh collection: it gives the same answer
and leaves the same memory, files and supplies. -/
theorem lifecycle (h : c.state = .unloaded) (w : World) (es : List Event) :
    let after := c.events w es
    (Cells.fresh.events c w es).Shown after.1 ∧
    (∀ records more, after.1.state = .loaded records →
      let later := after.1.events after.2 more
      (∃ records', later.1.state = .loaded records') ∧
      (Quiet after.1 after.2 more → later.1.state = .loaded records ∧
        ∀ k, k.op.IsRead → (later.1.call later.2 k).answer =
          (after.1.call { after.2 with random := later.2.random } k).answer)) ∧
    (after.1.NotLoaded → ∀ k, k.op.fault? = none →
      after.1.call after.2 k = after.1.reopened.call after.2 k) := by
  intro after
  refine ⟨?_, ?_, ?_⟩
  · -- cells that start with those of a new collection are the cells of its state all along
    have hcells := Cells.events_of c w es
    rw [h] at hcells
    rw [show Cells.fresh.events c w es = Cells.of after.1.state from hcells]
    exact Cells.shown_of after.1
  · intro records more hstate later
    refine ⟨loaded_events hstate after.2 more, ?_⟩
    intro hquiet
    have hlater : later.1.state = .loaded records := hquiet.events hstate
    exact ⟨hlater, fun k hread => call_answer_of_read hread hstate hlater
      (events_schema after.1 after.2 more) rfl⟩
  · intro hnot k hfault
    exact call_reopened hnot hfault after.2

namespace Sample

/-- Files in which the collection finds no records. -/
def corrupt : FileTree :=
  ⟨[(["home"], .directory), (["home", "mail.json"], .text "[")], ["home"]⟩

/-- A count fails on a corrupt file, and then the file is taken away. -/
def repair : List Event := [.outside corrupt, .call ⟨0, .count⟩, .outside (.fresh ["home"])]

def recovery : List Event := repair ++ [.call (saving "a")]

end Sample

/-- A collection that failed saves its first record as a fresh one would, and then counts one record
whatever the files have become. -/
theorem lifecycle_repair :
    let failed := Sample.collection.events Sample.world Sample.repair
    let saved := Sample.collection.events Sample.world Sample.recovery
    failed.1.lastError = some StoreError.json.message ∧
      failed.1.call failed.2 (Sample.saving "a") =
        failed.1.reopened.call failed.2 (Sample.saving "a") ∧
      saved.1.lastError = none ∧
      ∀ files, (saved.1.call { saved.2 with files := files } ⟨0, .count⟩).answer =
        .ok (.count 1) := by
  intro failed saved
  have hunloaded : Sample.collection.state = .unloaded := rfl
  have hnot : failed.1.NotLoaded := rfl
  obtain ⟨records, hstate⟩ : ∃ records, saved.1.state = .loaded records := ⟨_, rfl⟩
  have hcount : (saved.1.call saved.2 ⟨0, .count⟩).answer = .ok (.count 1) := rfl
  refine ⟨rfl, (lifecycle hunloaded Sample.world Sample.repair).2.2 hnot _ rfl, rfl, ?_⟩
  intro files
  have hlater := (lifecycle hunloaded Sample.world Sample.recovery).2.1 records [.outside files]
    hstate
  exact ((hlater.2 ⟨trivial, trivial⟩).2 ⟨0, .count⟩ trivial).trans hcount

end DocStore.Collection
