import DocStore.Proofs.Collection.Run
/-!
# What an operation leaves in memory and in files

Only a mutation that succeeds writes, and then the file is the text of what is in memory. A read, a
failure and an update or a delete of an id that no record has leave a loaded collection and all
files as they are.

A collection that is not loaded looks for its file first and makes it if it is missing. It looks
before it makes the directories around the file, so a path that leads out of a missing directory
again (`new/../mail.json`) may come upon a file that is there all the same, and that file is emptied.
No other file loses a byte.

* `effect_replaces_iff`: which operations replace records.
* `onlyMade_ensureFile`: what looking for the file leaves.
* `perform_leaves`: every operation on every collection.
-/

namespace DocStore.Collection

-- ---------------------------------------------------------------------------
-- Which operations replace records
-- ---------------------------------------------------------------------------

/-- An operation that only answers from the records. -/
def Operation.IsRead : Operation → Prop
  | .save _ | .update _ _ | .upsert _ _ | .delete _ => False
  | _ => True

/-- An update or a delete of an id that none of these records has. -/
def Operation.MissesId (records : List Record) : Operation → Prop
  | .update id _ | .delete id => ∀ r ∈ records, Record.id? r ≠ some id
  | _ => False

/-- Whether other records take the place of the old ones. -/
def Change.Replaces {α : Type} : Change α → Prop
  | .keep _ => False
  | .replace _ _ => True

section Decisions

variable {α : Type} {schema : Schema} {now : Json} {records : List Record} {ids : IdSupply}

/-- An id is not found where no record has it. -/
theorem findIdx?_id_eq_none_iff {id : String} :
    (records.findIdx? fun r => Record.id? r == some id) = none ↔
      ∀ r ∈ records, Record.id? r ≠ some id := by
  rw [List.findIdx?_eq_none_iff]
  simp only [beq_eq_false_iff_ne]

theorem saveStep_replaces {raw : Json} {change : Change Record}
    (h : (saveStep schema now raw records ids).1 = .ok change) : change.Replaces := by
  obtain ⟨r, -, rfl⟩ := saveStep_eq_ok h
  trivial

/-- An upsert that succeeds replaces the records. -/
theorem upsertStep_replaces {query patch : Record} {change : Change Record}
    (h : (upsertStep schema now query patch records ids).1 = .ok change) : change.Replaces := by
  rcases upsertStep_eq_ok h with ⟨i, r, -, -, rfl⟩ | ⟨-, r, -, rfl⟩
  · trivial
  · trivial

/-- An update replaces records if one has the id. -/
theorem updateStep_replaces_iff {id : String} {patch : Record} {change : Change (Option Record)}
    (h : (updateStep schema now id patch records ids).1 = .ok change) :
    change.Replaces ↔ ¬ ∀ r ∈ records, Record.id? r ≠ some id := by
  rw [← findIdx?_id_eq_none_iff]
  rcases updateStep_eq_ok h with ⟨hnone, rfl⟩ | ⟨i, r, hi, -, rfl⟩
  · exact iff_of_false not_false (not_not_intro hnone)
  · rw [hi]
    exact iff_of_true trivial (Option.some_ne_none i)

/-- A deletion replaces records if one has the id. -/
theorem deleteStep_replaces_iff {id : String} {change : Change (Option Record)}
    (h : (deleteStep id records ids).1 = .ok change) :
    change.Replaces ↔ ¬ ∀ r ∈ records, Record.id? r ≠ some id := by
  rw [← findIdx?_id_eq_none_iff]
  rcases deleteStep_eq_ok h with ⟨hnone, rfl⟩ | ⟨i, hi, rfl⟩
  · exact iff_of_false not_false (not_not_intro hnone)
  · rw [hi]
    exact iff_of_true trivial (Option.some_ne_none i)

/-- The effect of a step replaces records where the step does. -/
theorem ofStep_replaces_iff {f : α → Answer} {step : Except StoreError (Change α) × IdSupply}
    {random : WordSource} {change : Change Answer}
    (h : (Effect.ofStep f step random).result = .ok change) :
    ∃ made, step.1 = .ok made ∧ (change.Replaces ↔ made.Replaces) := by
  obtain ⟨made, hmade, rfl⟩ := ofStep_eq_ok h
  exact ⟨made, hmade, by cases made <;> exact Iff.rfl⟩

/-- **Records are replaced by what is no read and misses no id.** -/
theorem effect_replaces_iff {op : Operation} {random : WordSource} {change : Change Answer}
    (h : (op.effect schema now records ids random).result = .ok change) :
    change.Replaces ↔ ¬ (op.IsRead ∨ op.MissesId records) := by
  -- what is answered from the records as they are comes from a read
  have hkept : ∀ {answer : Answer}, .ok (.keep answer) = (.ok change : Except StoreError _) →
      op.IsRead → (change.Replaces ↔ ¬ (op.IsRead ∨ op.MissesId records)) := by
    intro answer hkeep hread
    rw [← Except.ok.inj hkeep]
    exact iff_of_false not_false (not_not_intro (Or.inl hread))
  cases op with
  | save raw =>
    obtain ⟨made, hmade, hiff⟩ := ofStep_replaces_iff h
    rw [hiff]
    exact iff_of_true (saveStep_replaces hmade) (by simp [Operation.IsRead, Operation.MissesId])
  | update id v =>
    simp only [Operation.effect] at h
    split at h
    · simp at h
    · obtain ⟨made, hmade, hiff⟩ := ofStep_replaces_iff h
      rw [hiff, updateStep_replaces_iff hmade]
      simp [Operation.IsRead, Operation.MissesId]
  | upsert filter v =>
    simp only [Operation.effect] at h
    split at h
    · simp at h
    · split at h
      · simp at h
      · obtain ⟨made, hmade, hiff⟩ := ofStep_replaces_iff h
        rw [hiff]
        exact iff_of_true (upsertStep_replaces hmade)
          (by simp [Operation.IsRead, Operation.MissesId])
  | delete id =>
    obtain ⟨made, hmade, hiff⟩ := ofStep_replaces_iff h
    rw [hiff, deleteStep_replaces_iff hmade]
    simp [Operation.IsRead, Operation.MissesId]
  | findOne v | find v | aggregate v =>
    simp only [Operation.effect] at h
    split at h
    · simp at h
    · exact hkept h trivial
  | _ => exact hkept h trivial

end Decisions

-- ---------------------------------------------------------------------------
-- What settling a decision leaves
-- ---------------------------------------------------------------------------

/-- Records, status and files are as before. Ids may have been taken from the supply. -/
structure Untouched (c : Collection) (w : World) (o : Outcome Answer) : Prop where
  collection : o.collection = { c with ownIds := o.collection.ownIds }
  files : o.world.files = w.files

/-- The file is the text of what is in memory, and nothing stands differently elsewhere. -/
structure Written (path : String) (w : World) (o : Outcome Answer) : Prop where
  file : ∃ records, o.collection.state = .loaded records ∧
    o.world.files.readText? path = some (RecordFile.text records)
  elsewhere : ∀ q, o.world.files.locate path ≠ some q →
    o.world.files.node? q = w.files.node? q

/-- The operation fails. -/
def Fails (o : Outcome Answer) : Prop := ∃ e, o.answer = .error e

theorem settle_of_error {c : Collection} {w : World} {e : Effect} {reason : StoreError}
    (h : e.result = .error reason) : Fails (settle c w e) := by
  rw [settle, h]
  exact ⟨reason, rfl⟩

/-- **A settled decision changes nothing, or it replaces records in memory and in the file.** The
file is written first, so nothing is changed either if that fails. -/
theorem settle_cases (c : Collection) (w : World) (e : Effect) :
    Untouched c w (settle c w e) ∧
        (∀ change, e.result = .ok change → change.Replaces → Fails (settle c w e)) ∨
      ∃ records answer, e.result = .ok (.replace records answer) ∧
        (settle c w e).answer = .ok answer ∧ (settle c w e).collection.state = .loaded records ∧
          c.writeFile records w.files = some (settle c w e).world.files := by
  cases hresult : e.result with
  | error reason =>
    refine Or.inl ⟨?_, fun change hchange => by cases hchange⟩
    rw [settle, withIdSupply_eq, hresult]
    exact ⟨rfl, rfl⟩
  | ok change =>
    cases change with
    | keep answer =>
      rw [settle, withIdSupply_eq, hresult]
      refine Or.inl ⟨⟨rfl, rfl⟩, fun change hchange hreplaces => ?_⟩
      rw [← Except.ok.inj hchange] at hreplaces
      exact hreplaces.elim
    | replace records answer =>
      rw [settle_of_replace c w hresult]
      dsimp only
      -- records are replaced in memory only once the file is written
      cases hwrite : c.writeFile records w.files with
      | none => exact Or.inl ⟨⟨rfl, rfl⟩, fun _ _ _ => ⟨.file, rfl⟩⟩
      | some files => exact Or.inr ⟨records, answer, rfl, rfl, rfl, hwrite⟩

/-- A file that was written is where its path leads, before and after. -/
theorem locate_writeFile {c : Collection} {records : List Record} {files files' : FileTree}
    (h : c.writeFile records files = some files') :
    ∃ place, files.locate c.path = some place ∧ files'.locate c.path = some place ∧
      files.isDirectory place = false ∧ FileTree.endsInDirectory c.path = false ∧
        files' = files.put place (.text (RecordFile.text records)) := by
  obtain ⟨place, hplace, hdir, hends, rfl⟩ := FileTree.writeFile?_eq_some h
  exact ⟨place, hplace, FileTree.locate_put hdir _ hplace, hdir, hends, rfl⟩

/-- A write that succeeds leaves the text of the records there, and nothing else changed. -/
theorem written_of_writeFile {c : Collection} {w : World} {o : Outcome Answer}
    {records : List Record} (hstate : o.collection.state = .loaded records)
    (hwrite : c.writeFile records w.files = some o.world.files) : Written c.path w o := by
  refine ⟨⟨records, hstate, FileTree.readText?_writeFile? hwrite⟩, ?_⟩
  intro q hq
  obtain ⟨place, -, hplace, -, -, hput⟩ := locate_writeFile hwrite
  rw [hplace] at hq
  rw [hput]
  exact FileTree.node?_put_of_ne _ (fun heq => hq (congrArg some heq.symm)) _

-- ---------------------------------------------------------------------------
-- Looking for the file
-- ---------------------------------------------------------------------------

/-- The file of a collection without records. -/
def emptyFile : Node := .text (RecordFile.text [])

/-- At most directories around a path and an empty file at its end were made. Whatever stood at a
place stands there still, unless the path could not be followed and now leads to that place. -/
structure OnlyMade (path : String) (before after : FileTree) : Prop where
  current : after.current = before.current
  made : ∀ q, before.node? q = none → after.node? q = none ∨
    (after.node? q = some .directory ∧ q ∈ before.around path) ∨
      (after.node? q = some emptyFile ∧ after.locate path = some q)
  kept : ∀ q n, before.node? q = some n → after.node? q = some n ∨
    (after.node? q = some emptyFile ∧ after.locate path = some q ∧ before.locate path = none)

/-- A path without double points never leads to what it did not lead to before. -/
theorem OnlyMade.node?_of_closed {path : String} {before after : FileTree}
    (h : OnlyMade path before after) (hclosed : before.Closed)
    (hdots : ".." ∉ FileTree.steps path) {q : Place} {n : Node} (hn : before.node? q = some n) :
    after.node? q = some n := by
  rcases h.kept q n hn with hkept | ⟨-, hafter, hbefore⟩
  · exact hkept
  · rw [FileTree.locate_of_closed hclosed h.current hdots hafter hn] at hbefore
    simp at hbefore

/-- Where places are kept, or are directories made around the path, no more is made than that. -/
theorem onlyMade_of_keepsOrMakes {path : String} {before after : FileTree}
    (hcurrent : after.current = before.current)
    (h : ∀ q, FileTree.KeepsOrMakes (before.around path) before after q) :
    OnlyMade path before after := by
  refine ⟨hcurrent, ?_, ?_⟩
  · intro q hnone
    rcases h q with hsame | ⟨-, hmade, hmem⟩
    · exact Or.inl (hsame.trans hnone)
    · exact Or.inr (Or.inl ⟨hmade, hmem⟩)
  · intro q n hn
    rcases h q with hsame | ⟨hnone, -, -⟩
    · exact Or.inl (hsame.trans hn)
    · rw [hnone] at hn
      simp at hn

/-- The empty file is written where the path leads once the directories around it are made. -/
theorem onlyMade_writeFile {c : Collection} {files files' : FileTree}
    (hmissing : files.fileExists c.path = false)
    (hwrite : c.writeFile [] (files.createParent c.path).1 = some files') :
    OnlyMade c.path files files' := by
  have hcurrent := FileTree.current_createParent files c.path
  obtain ⟨place, haround, hplace, hdir, hends, hput⟩ := locate_writeFile hwrite
  have hself : files'.node? place = some emptyFile := by
    rw [hput]
    exact FileTree.node?_put_self _ (FileTree.ne_root hdir) _
  have hother : ∀ q, q ≠ place → FileTree.KeepsOrMakes (files.around c.path) files files' q := by
    intro q hq
    have hsame := FileTree.node?_put_of_ne (files.createParent c.path).1 hq emptyFile
    have hmade := FileTree.node?_createParent files c.path q
    rw [FileTree.KeepsOrMakes, ← hsame] at hmade
    rw [hput]
    exact hmade
  -- a path that could be followed before leads to the same place, where nothing stood
  have hlost : ∀ n, files.node? place = some n → files.locate c.path = none := by
    intro n hn
    cases hlocate : files.locate c.path with
    | none => rfl
    | some before =>
      have hsame := FileTree.locate_of_isDirectory hcurrent
        (fun _ hq => FileTree.isDirectory_createParent hq c.path) hlocate
      rw [haround] at hsame
      rw [← Option.some.inj hsame] at hlocate
      rw [FileTree.node?_of_fileExists hends hlocate hmissing] at hn
      simp at hn
  refine ⟨by rw [hput, FileTree.current_put, hcurrent], ?_, ?_⟩
  · intro q hnone
    -- the file is new at its own place, and elsewhere no more than directories were made
    by_cases hq : q = place
    · rw [hq]
      exact Or.inr (Or.inr ⟨hself, hplace⟩)
    · exact (hother q hq).elim (fun hsame => Or.inl (hsame.trans hnone))
        fun hmade => Or.inr (Or.inl hmade.2)
  · intro q n hn
    by_cases hq : q = place
    · rw [hq] at hn ⊢
      exact Or.inr ⟨hself, hplace, hlost n hn⟩
    · exact (hother q hq).elim (fun hsame => Or.inl (hsame.trans hn))
        fun hmade => absurd (hmade.1.symm.trans hn) (by simp)

/-- **What looking for the file leaves.** -/
theorem onlyMade_ensureFile (c : Collection) (files : FileTree) :
    OnlyMade c.path files (c.ensureFile files).1 := by
  have haround := onlyMade_of_keepsOrMakes (FileTree.current_createParent files c.path)
    (FileTree.node?_createParent files c.path)
  unfold ensureFile
  split
  · -- the file is there, and nothing is made
    exact onlyMade_of_keepsOrMakes rfl fun _ => Or.inl rfl
  · rename_i hmissing
    rw [Bool.not_eq_true] at hmissing
    dsimp only
    split
    · split
      · rename_i files' hwrite
        exact onlyMade_writeFile hmissing hwrite
      · exact haround
    · exact haround

-- ---------------------------------------------------------------------------
-- Every operation
-- ---------------------------------------------------------------------------

/-- The operation has nothing to write: it is a read, misses its id, or fails. -/
def KeepsRecords (c : Collection) (w : World) (op : Operation) : Prop :=
  op.IsRead ∨ (∃ records, (c.load w).answer = .ok records ∧ op.MissesId records) ∨
    Fails (c.perform w op)

/-- Loading leaves the files as looking for the collection's file does. -/
theorem files_load {c : Collection} (h : c.NotLoaded) (w : World) :
    (c.load w).world.files = (c.ensureFile w.files).1 := by
  cases hstored : c.stored w.files with
  | ok records => rw [load_of_stored h hstored]
  | error e => rw [load_of_stored_error h hstored]

section Finding

variable {c : Collection} {w : World} {op : Operation} {records : List Record}

/-- What an operation decides on the records it finds. -/
def decision (c : Collection) (w : World) (op : Operation) (records : List Record) : Effect :=
  op.effect c.schema w.now records (c.idSupply w) (c.load w).world.random

/-- An operation on records that are found settles what it decides on them. -/
theorem perform_of_found (hfault : op.fault? = none) (hload : (c.load w).answer = .ok records) :
    c.perform w op =
      settle (c.load w).collection (c.load w).world (c.decision w op records) := by
  rw [perform_of_load hfault (by rw [← hload]), idSupply_load]
  rfl

/-- An operation whose decision is refused fails. -/
theorem fails_of_decision (hload : (c.load w).answer = .ok records) {e : StoreError}
    (h : (c.decision w op records).result = .error e) : Fails (c.perform w op) := by
  cases hfault : op.fault? with
  | some fault => exact ⟨fault, by rw [perform_fault hfault]⟩
  | none =>
    rw [perform_of_found hfault hload]
    exact settle_of_error h

/-- An operation that is answered has found records and decided on them. -/
theorem decision_of_answer {answer : Answer} (h : (c.perform w op).answer = .ok answer) :
    ∃ records change, (c.load w).answer = .ok records ∧
      (c.decision w op records).result = .ok change ∧ change.answer = answer := by
  cases hfault : op.fault? with
  | some e =>
    rw [perform_fault hfault] at h
    cases h
  | none =>
    cases hload : (c.load w).answer with
    | error e =>
      rw [perform_eq, hfault, hload] at h
      cases h
    | ok records =>
      rw [perform_of_found hfault hload] at h
      obtain ⟨change, hresult, hanswer⟩ := answer_settle h
      exact ⟨records, change, rfl, hresult, hanswer⟩

/-- An operation that answers has put the records it decided on into memory. -/
theorem state_of_answer {answer decided : Answer} {records' : List Record}
    (h : (c.perform w op).answer = .ok answer) (hload : (c.load w).answer = .ok records)
    (hresult : (c.decision w op records).result = .ok (.replace records' decided)) :
    (c.perform w op).collection.state = .loaded records' := by
  cases hfault : op.fault? with
  | some e =>
    rw [perform_fault hfault] at h
    cases h
  | none =>
    rw [perform_of_found hfault hload] at h ⊢
    rcases settle_cases (c.load w).collection (c.load w).world (c.decision w op records) with
      ⟨-, hreplaces⟩ | ⟨replaced, _, hreplaced, -, hstate, -⟩
    · -- a replacement that could not be written would have failed
      obtain ⟨e, he⟩ := hreplaces _ hresult trivial
      rw [h] at he
      cases he
    · rw [hresult] at hreplaced
      rw [hstate, (Change.replace.inj (Except.ok.inj hreplaced)).1]

/-- On records that could be loaded, an operation that has nothing to write leaves all as it is, and
every other one writes. -/
theorem perform_of_records (hfault : op.fault? = none) (hload : (c.load w).answer = .ok records) :
    (KeepsRecords c w op →
      Untouched (c.load w).collection (c.load w).world (c.perform w op)) ∧
    (¬ KeepsRecords c w op → Written c.path (c.load w).world (c.perform w op)) := by
  have hperform := perform_of_found hfault hload
  rcases settle_cases (c.load w).collection (c.load w).world (c.decision w op records) with
    ⟨huntouched, hreplaces⟩ | ⟨records', answer, hresult, hanswer, hstate, hwrite⟩
  · -- nothing was written, so there was nothing to write or the call failed
    rw [← hperform] at huntouched hreplaces
    refine ⟨fun _ => huntouched, fun hnot => absurd ?_ hnot⟩
    cases hresult : (c.decision w op records).result with
    | error e => exact Or.inr (Or.inr (fails_of_decision hload hresult))
    | ok change =>
      by_cases hkeeps : op.IsRead ∨ op.MissesId records
      · exact hkeeps.imp id fun hmiss => Or.inl ⟨records, hload, hmiss⟩
      · exact Or.inr (Or.inr
          (hreplaces change hresult ((effect_replaces_iff hresult).mpr hkeeps)))
  · rw [← hperform] at hanswer hstate hwrite
    constructor
    · -- what replaces records is no read, misses no id, and did not fail
      rintro (hread | ⟨found, hfound, hmiss⟩ | ⟨e, he⟩)
      · exact absurd (Or.inl hread) ((effect_replaces_iff hresult).mp trivial)
      · rw [hload] at hfound
        rw [← Except.ok.inj hfound] at hmiss
        exact absurd (Or.inr hmiss) ((effect_replaces_iff hresult).mp trivial)
      · rw [hanswer] at he
        cases he
    · intro _
      have hwritten := written_of_writeFile (w := (c.load w).world) hstate hwrite
      rw [load_path] at hwritten
      exact hwritten

end Finding

/-- **Only a mutation that succeeds writes.** In a loaded collection everything else leaves records,
status and files as they are. A collection that is not loaded looks for its file besides, and makes
it if it is missing; a file is lost by that only if the path could not be followed before, which
takes double points in it. -/
theorem perform_leaves (c : Collection) (w : World) (op : Operation) :
    (∀ records, c.state = .loaded records →
      (KeepsRecords c w op → Untouched c w (c.perform w op)) ∧
      (¬ KeepsRecords c w op → Written c.path w (c.perform w op))) ∧
    (c.NotLoaded → KeepsRecords c w op →
      OnlyMade c.path w.files (c.perform w op).world.files ∧
      (w.files.Closed → ".." ∉ FileTree.steps c.path → ∀ q n, w.files.node? q = some n →
        (c.perform w op).world.files.node? q = some n)) := by
  constructor
  · intro records hstate
    cases hfault : op.fault? with
    | some e =>
      rw [perform_fault hfault]
      exact ⟨fun _ => ⟨rfl, rfl⟩,
        fun hnot => absurd (Or.inr (Or.inr ⟨e, by rw [perform_fault hfault]⟩)) hnot⟩
    | none =>
      have hload := load_of_loaded hstate w
      have h := perform_of_records (w := w) hfault (show (c.load w).answer = .ok records by rw [hload])
      rw [hload] at h
      exact h
  · -- a collection that is not loaded has looked for its file before anything else
    intro hnot hkeeps
    have hmade : OnlyMade c.path w.files (c.perform w op).world.files := by
      cases hfault : op.fault? with
      | some e =>
        rw [perform_fault hfault]
        exact onlyMade_of_keepsOrMakes rfl fun _ => Or.inl rfl
      | none =>
        have hfiles : (c.perform w op).world.files = (c.load w).world.files := by
          cases hload : (c.load w).answer with
          | error e =>
            rw [perform_eq, hfault, hload]
          | ok records => exact ((perform_of_records hfault hload).1 hkeeps).files
        rw [hfiles, files_load hnot]
        exact onlyMade_ensureFile c w.files
    exact ⟨hmade, fun hclosed hdots q n hn => hmade.node?_of_closed hclosed hdots hn⟩

namespace Sample

/-- A directory stands where the file should. -/
def blocked : World :=
  { world with files :=
      ⟨[(["home"], .directory), (["home", "mail.json"], .directory)], ["home"]⟩ }

def loaded : Collection := { collection with state := .loaded [] }

/-- A record that is stored already. -/
def stored : World :=
  { world with files :=
      ⟨[(["home"], .directory),
        (["home", "mail.json"], .text (RecordFile.text [[("email", .string "a")]]))], ["home"]⟩ }

/-- A path through a missing directory, and out of it again. -/
def detour : Collection := .unloaded "mail" schema "new/../mail.json"

end Sample

/-- A save that cannot write changes nothing, one that can leaves its record in the file, and a count
through a missing directory empties a file that was there. -/
theorem perform_leaves_sample :
    Untouched Sample.loaded Sample.blocked
      (Sample.loaded.perform Sample.blocked (Sample.saving "a").op) ∧
    Written "mail.json" Sample.world (Sample.loaded.perform Sample.world (Sample.saving "a").op) ∧
    (Sample.stored.files.readText? "mail.json" = some (RecordFile.text [[("email", .string "a")]]) ∧
      OnlyMade "new/../mail.json" Sample.stored.files
        (Sample.detour.perform Sample.stored .count).world.files ∧
      (Sample.detour.perform Sample.stored .count).world.files.readText? "mail.json" =
        some (RecordFile.text [])) := by
  have hfails : KeepsRecords Sample.loaded Sample.blocked (Sample.saving "a").op :=
    Or.inr (Or.inr ⟨.file, rfl⟩)
  have hwrites : ¬ KeepsRecords Sample.loaded Sample.world (Sample.saving "a").op := by
    rintro (hread | ⟨records, -, hmiss⟩ | ⟨e, he⟩)
    · exact hread
    · exact hmiss
    · obtain ⟨answer, hok⟩ : ∃ answer,
          (Sample.loaded.perform Sample.world (Sample.saving "a").op).answer = .ok answer := ⟨_, rfl⟩
      rw [he] at hok
      cases hok
  refine ⟨?_, ?_, rfl, ?_, rfl⟩
  · exact ((perform_leaves Sample.loaded Sample.blocked (Sample.saving "a").op).1 [] rfl).1 hfails
  · exact ((perform_leaves Sample.loaded Sample.world (Sample.saving "a").op).1 [] rfl).2 hwrites
  · exact ((perform_leaves Sample.detour Sample.stored .count).2 rfl (Or.inl trivial)).1

end DocStore.Collection
