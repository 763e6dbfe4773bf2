import DocStore.Proofs.Collection.Run
/-!
# Reopening a collection cannot be observed

Memory is a copy of the file: whatever is in memory is what a fresh handle would read. So a handle
may be replaced by a fresh one before any call, and the calls answer the same, the records are the
same and the file is the same to the last byte. Only warnings about stored records may be given
more often.

* `Agree`: what a handle has in common with one that was replaced now and then.
* `Agree.call`: a call answers the same on both and keeps the agreement.
* `callsReopening_eq`: whole rows of calls.
-/

namespace DocStore.Collection

/-- A fresh handle on the same path and schema, with the same supply of ids. -/
def reopened (c : Collection) : Collection := { c with state := .unloaded }

/-- Carries out calls in turn and replaces the handle before those that are marked. -/
def callsReopening (c : Collection) (w : World) : List (Bool × Call) →
    List (Except StoreError Answer) × Collection × World
  | [] => ([], c, w)
  | (reopen, k) :: rest =>
    let o := (if reopen then c.reopened else c).call w k
    let (answers, c, w) := callsReopening o.collection o.world rest
    (o.answer :: answers, c, w)

/-- At no time do calls leave records in memory whose file is too deep to be read. -/
def StaysReadable (c : Collection) (w : World) : List Call → Prop
  | [] => True
  | k :: rest =>
    (∀ records, (c.call w k).collection.state = .loaded records →
      (RecordFile.value records).depth ≤ Json.maxDepth) ∧
    StaysReadable (c.call w k).collection (c.call w k).world rest

/-- A fresh handle would read these records. -/
def Synced (c : Collection) (files : FileTree) (records : List Record) : Prop :=
  files.fileExists c.path = true ∧ c.stored files = .ok records

/-- A handle, and one that was replaced now and then: they differ in warnings and in what is loaded
already, and what is in memory is what is in the file. -/
structure Agree (c : Collection) (w : World) (c' : Collection) (w' : World) : Prop where
  handle : c' = { c with state := c'.state }
  world : w' = { w with warnings := w'.warnings }
  records : (c.NotLoaded ∧ c'.NotLoaded) ∨
    ∃ records, c.state = .loaded records ∧ Synced c w.files records ∧
      (c'.state = .loaded records ∨ c'.NotLoaded)

variable {c c' : Collection} {w w' : World} {k : Call} {records : List Record}

-- ---------------------------------------------------------------------------
-- Warnings
-- ---------------------------------------------------------------------------

/-- What is settled does not depend on the warnings given so far. -/
theorem settle_warnings (c : Collection) (w : World) (e : Effect) (warnings : List String) :
    settle c { w with warnings := warnings } e =
      { settle c w e with
        world := { (settle c w e).world with warnings := warnings ++ e.warnings } } := by
  obtain ⟨name, schema, path, own, state⟩ := c
  obtain ⟨result, ids, random, given⟩ := e
  cases own <;> cases result with
  | error e => rfl
  | ok change =>
    cases change with
    | keep answer => rfl
    | replace records answer =>
      simp only [settle, withIdSupply, commit, World.warn]
      split <;> rfl

/-- On loaded records a call does not depend on the warnings given so far. -/
theorem call_warnings (h : c.state = .loaded records) (w : World) (k : Call)
    (warnings : List String) :
    ∃ more, c.call { w with warnings := warnings } k =
      { c.call w k with world := { (c.call w k).world with warnings := more } } := by
  cases hfault : k.op.fault? with
  | some e =>
    rw [call_fault hfault, call_fault hfault]
    exact ⟨warnings, rfl⟩
  | none =>
    rw [call, call, perform_of_load hfault (load_of_loaded h _),
      perform_of_load hfault (load_of_loaded h _)]
    exact ⟨_, settle_warnings c { w with clock := k.clock } _ warnings⟩

-- ---------------------------------------------------------------------------
-- One call
-- ---------------------------------------------------------------------------

/-- What is loaded is what is in the file. -/
theorem synced_load (hstored : c.stored w.files = .ok records) :
    Synced c (c.ensureFile w.files).1 records := by
  have hmade : (c.ensureFile w.files).2 = true := by
    rw [stored] at hstored
    split at hstored
    · assumption
    · simp at hstored
  exact ⟨fileExists_ensureFile hmade, by rw [stored_ensureFile, hstored]⟩

/-- After a call, too, memory is what is in the file. -/
theorem synced_call (hschema : c.schema.WellFormed) (hstate : c.state = .loaded records)
    (hsynced : Synced c w.files records) (hop : k.op.WellFormed)
    (hdepth : ∀ records, (c.call w k).collection.state = .loaded records →
      (RecordFile.value records).depth ≤ Json.maxDepth) :
    ∃ records', (c.call w k).collection.state = .loaded records' ∧
      Synced (c.call w k).collection (c.call w k).world.files records' := by
  have hcalled : Called c w k records (c.call w k) := call_of_loaded hop hstate
  rcases hcalled.records with ⟨hsame, hfiles⟩ | ⟨records', hrewrites, hstate', hwrite⟩
  · refine ⟨records, hsame, ?_⟩
    rw [Synced, hfiles, hcalled.path, stored_eq_of_path hcalled.path]
    exact hsynced
  · refine ⟨records', hstate', ?_⟩
    -- the file was written with these records, and they are not too deep to be read from it
    have hwf := hrewrites.wellFormed hschema k.wellFormed_now (wellFormed_of_stored hsynced.2).1
    rw [Synced, hcalled.path, stored_eq_of_path hcalled.path, stored_writeFile hwf hwrite,
      if_pos (hdepth records' hstate')]
    exact ⟨fileExists_writeFile hwrite, rfl⟩

/-- Two handles with the same records in memory. -/
theorem agree_call_of_loaded (hschema : c.schema.WellFormed) (hstate : c.state = .loaded records)
    (hsynced : Synced c w.files records) (hworld : w' = { w with warnings := w'.warnings })
    (hop : k.op.WellFormed)
    (hdepth : ∀ records, (c.call w k).collection.state = .loaded records →
      (RecordFile.value records).depth ≤ Json.maxDepth) :
    (c.call w' k).answer = (c.call w k).answer ∧
      Agree (c.call w k).collection (c.call w k).world (c.call w' k).collection
        (c.call w' k).world := by
  obtain ⟨more, hcall⟩ := call_warnings hstate w k w'.warnings
  rw [← hworld] at hcall
  rw [hcall]
  obtain ⟨records', hstate', hsynced'⟩ := synced_call hschema hstate hsynced hop hdepth
  exact ⟨rfl, rfl, rfl, Or.inr ⟨records', hstate', hsynced', Or.inl hstate'⟩⟩

/-- **A call answers the same on both handles** and keeps the agreement. -/
theorem Agree.call (h : Agree c w c' w') (hschema : c.schema.WellFormed) (hop : k.op.WellFormed)
    (hdepth : ∀ records, (c.call w k).collection.state = .loaded records →
      (RecordFile.value records).depth ≤ Json.maxDepth) :
    (c'.call w' k).answer = (c.call w k).answer ∧
      Agree (c.call w k).collection (c.call w k).world (c'.call w' k).collection
        (c'.call w' k).world := by
  obtain ⟨state', rfl⟩ : ∃ s, c' = { c with state := s } := ⟨_, h.handle⟩
  obtain ⟨warnings, rfl⟩ : ∃ ws, w' = { w with warnings := ws } := ⟨_, h.world⟩
  have hsame : ({ c with state := state' } : Collection).stored w.files = c.stored w.files :=
    stored_eq_of_path (by rfl) w.files
  have hensure : ({ c with state := state' } : Collection).ensureFile w.files =
      c.ensureFile w.files := ensureFile_eq_of_path (by rfl) w.files
  cases hfault : k.op.fault? with
  | some e =>
    rw [call_fault hfault, call_fault hfault]
    exact ⟨rfl, rfl, rfl, h.records⟩
  | none =>
    rcases h.records with ⟨hnot, hnot'⟩ | ⟨records, hstate, hsynced, hstate' | hnot'⟩
    · -- neither is loaded: both read the same file, and fail or go on alike
      cases hstored : c.stored w.files with
      | error e =>
        rw [call_of_stored_error hfault hnot hstored,
          call_of_stored_error (w := { w with warnings := warnings }) hfault hnot'
            (hsame.trans hstored), hensure]
        exact ⟨rfl, rfl, rfl, Or.inl ⟨rfl, rfl⟩⟩
      | ok records =>
        rw [call_of_notLoaded hfault hnot hstored] at hdepth ⊢
        rw [call_of_notLoaded (w := { w with warnings := warnings }) hfault hnot'
          (hsame.trans hstored), hensure]
        have hsynced := synced_load hstored
        have hloaded :
            Synced { c with state := .loaded records } (c.ensureFile w.files).1 records :=
          ⟨hsynced.1, (stored_eq_of_path (by rfl) _).trans hsynced.2⟩
        exact agree_call_of_loaded (c := { c with state := .loaded records }) hschema rfl hloaded
          rfl hop hdepth
    · obtain rfl : state' = .loaded records := hstate'
      have heq : ({ c with state := .loaded records } : Collection) = c := by rw [← hstate]
      rw [heq]
      exact agree_call_of_loaded hschema hstate hsynced rfl hop hdepth
    · -- the fresh handle reads what the other has in memory, and leaves the file alone
      have hload : (c.ensureFile w.files) = (w.files, true) := ensureFile_of_fileExists hsynced.1
      have heq : ({ c with state := .loaded records } : Collection) = c := by rw [← hstate]
      rw [call_of_notLoaded (w := { w with warnings := warnings }) hfault hnot'
        (hsame.trans hsynced.2), hensure, hload]
      dsimp only
      rw [heq]
      exact agree_call_of_loaded hschema hstate hsynced rfl hop hdepth

-- ---------------------------------------------------------------------------
-- Rows of calls
-- ---------------------------------------------------------------------------

theorem agree_refl (h : c.NotLoaded) (w : World) : Agree c w c w :=
  ⟨rfl, rfl, Or.inl ⟨h, h⟩⟩

/-- Replacing the handle keeps the agreement. -/
theorem Agree.reopened (h : Agree c w c' w') : Agree c w c'.reopened w' := by
  refine ⟨?_, h.world, ?_⟩
  · rw [Collection.reopened, h.handle]
  · rcases h.records with ⟨hnot, -⟩ | ⟨records, hstate, hsynced, -⟩
    · exact Or.inl ⟨hnot, rfl⟩
    · exact Or.inr ⟨records, hstate, hsynced, Or.inr rfl⟩

theorem Agree.files (h : Agree c w c' w') : w'.files = w.files := by
  rw [h.world]

/-- Collections that agree find the same records. -/
theorem Agree.load (h : Agree c w c' w') : (c'.load w').answer = (c.load w).answer := by
  have hstored : c'.stored w'.files = c.stored w.files := by
    rw [h.files]
    exact stored_eq_of_path (by rw [h.handle]) _
  rcases h.records with ⟨hnot, hnot'⟩ | ⟨records, hstate, hsynced, hstate' | hnot'⟩
  · rw [answer_load hnot, answer_load hnot', hstored]
  · rw [load_of_loaded hstate, load_of_loaded hstate']
  · rw [load_of_loaded hstate, answer_load hnot', hstored, hsynced.2]

/-- **Whole rows of calls answer the same**, wherever handles are replaced in between. -/
theorem Agree.calls {steps : List (Bool × Call)} (h : Agree c w c' w')
    (hschema : c.schema.WellFormed) (hops : ∀ s ∈ steps, s.2.op.WellFormed)
    (hdepth : StaysReadable c w (steps.map Prod.snd)) :
    (c'.callsReopening w' steps).1 = (c.calls w (steps.map Prod.snd)).1 ∧
      Agree (c.calls w (steps.map Prod.snd)).2.1 (c.calls w (steps.map Prod.snd)).2.2
        (c'.callsReopening w' steps).2.1 (c'.callsReopening w' steps).2.2 := by
  -- over the calls, for any two handles that agree
  induction steps generalizing c w c' w' with
  | nil => exact ⟨rfl, h⟩
  | cons s rest ih =>
    obtain ⟨reopen, k⟩ := s
    rw [List.forall_mem_cons] at hops
    have hbefore : Agree c w (if reopen then c'.reopened else c') w' := by
      cases reopen with
      | true => exact h.reopened
      | false => exact h
    obtain ⟨hanswer, hafter⟩ := hbefore.call hschema hops.1 hdepth.1
    have hrest := ih hafter (by rw [call_schema]; exact hschema) hops.2 hdepth.2
    simp only [List.map_cons, Collection.calls, callsReopening]
    exact ⟨by rw [hanswer, hrest.1], hrest.2⟩

/-- **Reopening cannot be observed**: not in the answers, not in the file, and not in the records
that are there at the end. -/
theorem callsReopening_eq {steps : List (Bool × Call)} (hstart : c.NotLoaded)
    (hschema : c.schema.WellFormed) (hops : ∀ s ∈ steps, s.2.op.WellFormed)
    (hdepth : StaysReadable c w (steps.map Prod.snd)) :
    let plain := c.calls w (steps.map Prod.snd)
    let reopening := c.callsReopening w steps
    reopening.1 = plain.1 ∧ reopening.2.2.files = plain.2.2.files ∧
      (reopening.2.1.load reopening.2.2).answer = (plain.2.1.load plain.2.2).answer := by
  intro plain reopening
  obtain ⟨hanswers, hagree⟩ := (agree_refl hstart w).calls hschema hops hdepth
  exact ⟨hanswers, hagree.files, hagree.load⟩

/-- A second record saved through a fresh handle. -/
theorem callsReopening_second_save :
    (Sample.collection.callsReopening Sample.world
        [(false, Sample.saving "a"), (true, Sample.saving "b")]).1 =
      (Sample.collection.calls Sample.world [Sample.saving "a", Sample.saving "b"]).1 := by
  -- two records of one field nest two containers in the file
  have hreadable : ∀ {o : Outcome Answer},
      (o.collection.loaded?.map fun records => (RecordFile.value records).depth) = some 2 →
        ∀ records, o.collection.state = .loaded records →
          (RecordFile.value records).depth ≤ Json.maxDepth := by
    intro o ho records hstate
    rw [loaded?, hstate] at ho
    have htwo : (RecordFile.value records).depth = 2 := Option.some.inj ho
    rw [htwo]
    decide
  have hdepth : StaysReadable Sample.collection Sample.world
      ([(false, Sample.saving "a"), (true, Sample.saving "b")].map Prod.snd) :=
    ⟨hreadable (o := Sample.first) rfl, hreadable (o := Sample.second) rfl, trivial⟩
  have hops : ∀ s ∈ [(false, Sample.saving "a"), (true, Sample.saving "b")],
      s.2.op.WellFormed := by
    simp [Sample.wellFormed_saving]
  exact (callsReopening_eq (notLoaded_unloaded ..) Sample.wellFormed_schema hops hdepth).1

end DocStore.Collection
