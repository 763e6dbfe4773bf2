import DocStore.Collection.Operation
import DocStore.Proofs.FileTree
import DocStore.Proofs.RecordFile
/-!
# Loading a collection

What a collection that is not in memory finds in its file, and what is left once it has looked.

* `load_of_stored`, `load_of_stored_error`: loading as one step, by what the file holds.
* `stored_ensureFile`: looking a second time finds what was found the first time.
* `stored_writeFile`: what is found in a file that was written.
-/

namespace DocStore.Collection

/-- The records a collection that is not in memory finds in these files. -/
def stored (c : Collection) (files : FileTree) : Except StoreError (List Record) :=
  if (c.ensureFile files).2 then c.parseFile (c.ensureFile files).1 else .error .file

/-- The warnings given when these records are loaded. -/
def loadWarnings (c : Collection) (records : List Record) : List String :=
  (Validation.checkIntegrity c.schema records).map c.issueWarning

/-- Whether nothing is in memory: loading looks into the file. -/
def NotLoaded (c : Collection) : Prop := c.loaded? = none

-- ---------------------------------------------------------------------------
-- Loading as one step
-- ---------------------------------------------------------------------------

theorem notLoaded_unloaded (name : String) (schema : Schema) (path : String) :
    (unloaded name schema path).NotLoaded := rfl

/-- A collection has its records in memory, or has to look into the file for them. -/
theorem notLoaded_or_loaded (c : Collection) :
    c.NotLoaded ∨ ∃ records, c.state = .loaded records := by
  rw [NotLoaded, loaded?]
  cases c.state with
  | loaded records => exact Or.inr ⟨records, rfl⟩
  | _ => exact Or.inl rfl

theorem load_of_loaded {c : Collection} {records : List Record} (h : c.state = .loaded records)
    (w : World) : c.load w = ⟨.ok records, c, w⟩ := by
  rw [load, h]

/-- A collection that is not loaded reads its file, whether it never did or failed to. -/
theorem load_of_notLoaded {c : Collection} (h : c.NotLoaded) (w : World) :
    c.load w =
      match c.readFile w with
      | (.ok records, w) => ⟨.ok records, { c with state := .loaded records }, w⟩
      | (.error e, w) => ⟨.error e, { c with state := .failed e }, w⟩ := by
  rw [load]
  split
  · rename_i records hstate
    rw [NotLoaded, loaded?, hstate] at h
    simp at h
  · rfl

/-- **Loading records**: they are in memory then, the file is there, and each of their issues is
warned about. -/
theorem load_of_stored {c : Collection} (h : c.NotLoaded) {w : World} {records : List Record}
    (hstored : c.stored w.files = .ok records) :
    c.load w =
      ⟨.ok records, { c with state := .loaded records },
        { w with files := (c.ensureFile w.files).1,
                 warnings := w.warnings ++ c.loadWarnings records }⟩ := by
  rw [stored] at hstored
  split at hstored
  · rename_i hmade
    rw [load_of_notLoaded h, readFile]
    dsimp only
    rw [if_pos hmade, hstored]
    rfl
  · simp at hstored

/-- **Failing to load**: the reason is in memory then, and directories may have been made on the way
to the file. -/
theorem load_of_stored_error {c : Collection} (h : c.NotLoaded) {w : World} {e : StoreError}
    (hstored : c.stored w.files = .error e) :
    c.load w =
      ⟨.error e, { c with state := .failed e },
        { w with files := (c.ensureFile w.files).1 }⟩ := by
  rw [stored] at hstored
  split at hstored
  · rename_i hmade
    rw [load_of_notLoaded h, readFile]
    dsimp only
    rw [if_pos hmade, hstored]
  · -- without a file there is nothing to read, and the reason is the missing file
    rename_i hmade
    rw [load_of_notLoaded h, readFile]
    dsimp only
    rw [if_neg hmade]
    cases hstored
    rfl

/-- A collection that is not loaded is answered what its file holds. -/
theorem answer_load {c : Collection} (h : c.NotLoaded) (w : World) :
    (c.load w).answer = c.stored w.files := by
  cases hstored : c.stored w.files with
  | ok records => rw [load_of_stored h hstored]
  | error e => rw [load_of_stored_error h hstored]

/-- Loading takes no id from the supply. -/
theorem idSupply_load (c : Collection) (w : World) :
    (c.load w).collection.idSupply (c.load w).world = c.idSupply w := by
  rcases notLoaded_or_loaded c with hnot | ⟨records, hstate⟩
  · cases hstored : c.stored w.files with
    | ok records =>
      rw [load_of_stored hnot hstored]
      rfl
    | error e =>
      rw [load_of_stored_error hnot hstored]
      rfl
  · rw [load_of_loaded hstate]

/-- What is found does not depend on the time. -/
theorem load_answer_clock (c : Collection) (w : World) (clock : Nat) :
    (c.load { w with clock := clock }).answer = (c.load w).answer := by
  rcases notLoaded_or_loaded c with hnot | ⟨records, hstate⟩
  · rw [answer_load hnot, answer_load hnot]
  · rw [load_of_loaded hstate, load_of_loaded hstate]

/-- Records that are answered are in memory. -/
theorem state_load {c : Collection} {w : World} {records : List Record}
    (h : (c.load w).answer = .ok records) :
    (c.load w).collection.state = .loaded records := by
  rcases notLoaded_or_loaded c with hnot | ⟨found, hstate⟩
  · cases hstored : c.stored w.files with
    | ok found =>
      rw [load_of_stored hnot hstored] at h ⊢
      rw [Except.ok.inj h]
    | error e =>
      rw [load_of_stored_error hnot hstored] at h
      cases h
  · rw [load_of_loaded hstate] at h ⊢
    rw [hstate, Except.ok.inj h]

-- ---------------------------------------------------------------------------
-- The file
-- ---------------------------------------------------------------------------

theorem ensureFile_eq_of_path {c c' : Collection} (h : c'.path = c.path) (files : FileTree) :
    c'.ensureFile files = c.ensureFile files := by
  unfold ensureFile writeFile
  rw [h]

/-- What is found in the file depends on the path alone. -/
theorem stored_eq_of_path {c c' : Collection} (h : c'.path = c.path) (files : FileTree) :
    c'.stored files = c.stored files := by
  rw [stored, stored, ensureFile_eq_of_path h, parseFile, parseFile, h]

theorem ensureFile_of_fileExists {c : Collection} {files : FileTree}
    (h : files.fileExists c.path = true) : c.ensureFile files = (files, true) := by
  rw [ensureFile, if_pos h]

theorem stored_of_fileExists {c : Collection} {files : FileTree}
    (h : files.fileExists c.path = true) : c.stored files = c.parseFile files := by
  rw [stored, ensureFile_of_fileExists h]
  rfl

/-- In a text one finds the records that are read from it, if it can be read. -/
theorem stored_of_text {c : Collection} {files : FileTree} {text : String}
    (h : files.readText? c.path = some text) :
    c.stored files = (RecordFile.read? text).elim (.error .json) .ok := by
  rw [stored_of_fileExists (FileTree.fileExists_of_readText? h), parseFile, h]
  dsimp only
  cases RecordFile.read? text with
  | none => rfl
  | some records => rfl

theorem fileExists_writeFile {c : Collection} {records : List Record} {files files' : FileTree}
    (h : c.writeFile records files = some files') : files'.fileExists c.path = true :=
  FileTree.fileExists_writeFile? h

/-- Where there is a text in the file, a file can be written. -/
theorem exists_writeFile {c : Collection} (records : List Record) {files : FileTree}
    (h : (files.readText? c.path).isSome) : ∃ files', c.writeFile records files = some files' := by
  cases hwrite : c.writeFile records files with
  | some files' => exact ⟨files', rfl⟩
  | none =>
    rw [FileTree.readText?_of_writeFile? hwrite] at h
    cases h

/-- What is found in a file that was written: the records, unless they are too deep to be read. -/
theorem stored_writeFile {c : Collection} {records : List Record} {files files' : FileTree}
    (hwf : RecordFile.WellFormed records) (h : c.writeFile records files = some files') :
    c.stored files' =
      if (RecordFile.value records).depth ≤ Json.maxDepth then .ok records else .error .json := by
  rw [stored_of_text (FileTree.readText?_writeFile? h), RecordFile.read?_text hwf]
  split
  · rfl
  · rfl

/-- Records are only found in a text. -/
theorem readText?_ensureFile {c : Collection} {files : FileTree} {records : List Record}
    (h : c.stored files = .ok records) : ((c.ensureFile files).1.readText? c.path).isSome := by
  rw [stored] at h
  split at h
  · rw [parseFile] at h
    split at h
    · cases h
    · -- records were read, so there was a text to read them from
      rename_i text htext
      rw [htext]
      rfl
  · cases h

/-- Records that are found are JSON values, and no deeper than the reader goes. -/
theorem wellFormed_of_stored {c : Collection} {files : FileTree} {records : List Record}
    (h : c.stored files = .ok records) :
    RecordFile.WellFormed records ∧ (RecordFile.value records).depth ≤ Json.maxDepth := by
  rw [stored] at h
  split at h
  · rw [parseFile] at h
    split at h
    · simp at h
    · split at h
      · simp at h
      · rename_i hread
        cases h
        exact RecordFile.read?_sound hread
  · simp at h

-- ---------------------------------------------------------------------------
-- Looking a second time
-- ---------------------------------------------------------------------------

/-- A file that could not be made cannot be made or read later either. -/
theorem stored_of_not_made {c : Collection} {files : FileTree}
    (h : (c.ensureFile files).2 = false) : c.stored (c.ensureFile files).1 = .error .file := by
  unfold ensureFile at h ⊢
  split at h
  · simp at h
  · rename_i hmissing
    rw [Bool.not_eq_true] at hmissing
    rw [if_neg (by simp [hmissing])]
    cases hcreate : files.createParent c.path with
    | mk around made =>
      rw [hcreate] at h
      have hagain := FileTree.createParent_again hcreate
      cases made with
      | false =>
        have hlost := FileTree.fileExists_createParent hmissing hcreate
        simp [stored, ensureFile, hlost, hagain]
      | true =>
        dsimp only at h ⊢
        rw [if_pos rfl] at h ⊢
        split at h
        · simp at h
        · rename_i hwrite
          -- the directories are there and no file can be written: what stands there is no text
          dsimp only
          by_cases hexists : around.fileExists c.path = true
          · rw [stored_of_fileExists hexists, parseFile, FileTree.readText?_of_writeFile? hwrite]
          · simp [stored, ensureFile, hexists, hagain, hwrite]

/-- Once it has been looked for, the file is there. -/
theorem fileExists_ensureFile {c : Collection} {files : FileTree}
    (h : (c.ensureFile files).2 = true) : (c.ensureFile files).1.fileExists c.path = true := by
  unfold ensureFile at h ⊢
  split at h
  · rename_i hexists
    rw [if_pos hexists]
    exact hexists
  · rename_i hmissing
    rw [if_neg hmissing]
    dsimp only at h ⊢
    split at h
    · rename_i hmade
      rw [if_pos hmade]
      split at h
      · rename_i hwrite
        exact fileExists_writeFile hwrite
      · simp at h
    · simp at h

/-- **Looking a second time finds what was found the first time**, be it records or a failure. -/
theorem stored_ensureFile (c : Collection) (files : FileTree) :
    c.stored (c.ensureFile files).1 = c.stored files := by
  cases hmade : (c.ensureFile files).2 with
  | true =>
    rw [stored_of_fileExists (fileExists_ensureFile hmade), stored, if_pos hmade]
  | false =>
    rw [stored_of_not_made hmade, stored, hmade]
    rfl

/-- After loading failed, it fails again for the same reason. -/
theorem load_answer_of_error {c : Collection} {w : World} {e : StoreError}
    (h : (c.load w).answer = .error e) :
    ((c.load w).collection.load (c.load w).world).answer = .error e := by
  rcases notLoaded_or_loaded c with hnot | ⟨found, hstate⟩
  · rw [answer_load hnot] at h
    have hfailed : NotLoaded { c with state := .failed e } := rfl
    have hpath : ({ c with state := .failed e } : Collection).path = c.path := rfl
    rw [load_of_stored_error hnot h, answer_load hfailed, stored_eq_of_path hpath,
      stored_ensureFile, h]
  · rw [load_of_loaded hstate] at h
    cases h

/-- A collection whose file is missing starts without records. -/
theorem stored_of_missing {c : Collection} {files : FileTree}
    (h : files.fileExists c.path = false) :
    c.stored files = if (c.ensureFile files).2 then .ok [] else .error .file := by
  rw [stored]
  split
  · rename_i hmade
    rw [← stored_of_fileExists (fileExists_ensureFile hmade)]
    unfold ensureFile at hmade ⊢
    rw [if_neg (by simp [h])] at hmade ⊢
    dsimp only at hmade ⊢
    split at hmade
    · rename_i haround
      rw [if_pos haround]
      split at hmade
      · rename_i hwrite
        -- the file was made just now, and an empty list of records was written into it
        exact stored_writeFile RecordFile.wellFormed_nil hwrite
      · simp at hmade
    · simp at hmade
  · rfl

end DocStore.Collection
