import DocStore.Proofs.Collection.Run
/-!
# Collections that start empty never have issues

Every record of such a collection went through an operation, so the scan of the stored records has
nothing to report at any time, whatever was called and whether it succeeded or failed. Two things
are needed of the outside: the schema leaves the reserved names alone, and an id that is handed out
is not one that is stored already.

* `Maintains.call`: every call maintains a property of the records that no rewrite takes away.
* `Maintains.load`: such a property holds of whatever is loaded.
* `checkIntegrity_of_reaches`: no issues are ever reported.
-/

namespace DocStore.Collection

/-- Nothing is in memory, and the file is missing or holds no records. -/
def StartsEmpty (c : Collection) (w : World) : Prop :=
  c.state = .unloaded ∧
    (w.files.fileExists c.path = false ∨
      ∃ text, w.files.readText? c.path = some text ∧ RecordFile.read? text = some [])

/-- A call with JSON values for arguments, in which no id is handed out that is stored. -/
def HandsOutNewIds (c : Collection) (w : World) (k : Call) : Prop :=
  k.op.WellFormed ∧ ∀ records, (c.load w).answer = .ok records →
    HandsOutNew records (c.idSupply w) ((c.call w k).collection.idSupply (c.call w k).world)

/-- Where nothing is stored yet, no id is. -/
theorem handsOutNewIds_of_no_records {c : Collection} {w : World} {k : Call}
    (hop : k.op.WellFormed) (hload : (c.load w).answer = .ok []) : HandsOutNewIds c w k := by
  refine ⟨hop, ?_⟩
  intro records hrecords
  rw [hload] at hrecords
  rw [← Except.ok.inj hrecords]
  exact fun _ _ _ r hr => absurd hr List.not_mem_nil

/-- A property of records that an empty collection has and no rewrite takes away. -/
structure KeptByRewrites (schema : Schema) (P : List Record → Prop) : Prop where
  nil : P []
  rewrites : ∀ {now : Json} {records records' : List Record} {ids ids' : IdSupply},
    now.WellFormed → P records → Rewrites schema now records ids records' ids' →
      HandsOutNew records ids ids' → P records'

/-- What holds between calls of a collection of this schema and path whose records have a property;
`made` says whether its file could be made. -/
structure Maintains (P : List Record → Prop) (schema : Schema) (path : String) (made : Bool)
    (c : Collection) (w : World) : Prop where
  sameSchema : c.schema = schema
  samePath : c.path = path
  /-- Records are in memory only if there is a text in the file, so a file can be written there. -/
  records : (c.NotLoaded ∧ c.stored w.files = if made then .ok [] else .error .file) ∨
    ∃ records, c.state = .loaded records ∧ made = true ∧ P records ∧
      (w.files.readText? path).isSome

variable {schema : Schema} {path : String} {made : Bool} {c c₀ : Collection} {w w₀ : World}
  {P : List Record → Prop}

theorem StartsEmpty.notLoaded (h : c.StartsEmpty w) : c.NotLoaded := by
  rw [NotLoaded, loaded?, h.1]

/-- A collection that starts empty finds no records in its file, or can make no file. -/
theorem stored_of_startsEmpty (h : c.StartsEmpty w) :
    c.stored w.files = if (c.ensureFile w.files).2 then .ok [] else .error .file := by
  rcases h.2 with hmissing | ⟨text, htext, hempty⟩
  · exact stored_of_missing hmissing
  · rw [stored_of_text htext, hempty,
      ensureFile_of_fileExists (FileTree.fileExists_of_readText? htext)]
    rfl

/-- A collection that starts empty has no records, unless its file cannot be made. -/
theorem load_of_startsEmpty (h : c.StartsEmpty w) :
    (c.load w).answer = if (c.ensureFile w.files).2 then .ok [] else .error .file := by
  rw [answer_load h.notLoaded, stored_of_startsEmpty h]

theorem maintains_start (P : List Record → Prop) (h : c.StartsEmpty w) :
    Maintains P c.schema c.path (c.ensureFile w.files).2 c w :=
  ⟨rfl, rfl, Or.inl ⟨h.notLoaded, stored_of_startsEmpty h⟩⟩

/-- A call on records with the property leaves records with the property. -/
theorem maintains_call_of_loaded (hP : KeptByRewrites schema P) {records : List Record}
    (hs : c.schema = schema) (hp : c.path = path) (hstate : c.state = .loaded records)
    (hrecords : P records) (hfile : (w.files.readText? path).isSome) {k : Call}
    (hop : k.op.WellFormed) (hnew : HandsOutNew records (c.idSupply w)
      ((c.call w k).collection.idSupply (c.call w k).world)) :
    Maintains P schema path true (c.call w k).collection (c.call w k).world := by
  have hcalled : Called c w k records (c.call w k) := call_of_loaded hop hstate
  refine ⟨hcalled.schema.trans hs, hcalled.path.trans hp, Or.inr ?_⟩
  rcases hcalled.records with ⟨hsame, hfiles⟩ | ⟨records', hrewrites, hstate', hwrite⟩
  · refine ⟨records, hsame, rfl, hrecords, ?_⟩
    rw [hfiles]
    exact hfile
  · rw [hs] at hrewrites
    refine ⟨records', hstate', rfl, hP.rewrites k.wellFormed_now hrecords hrewrites hnew, ?_⟩
    -- the file was written, so there is a text to be written over the next time
    rw [← hp, FileTree.readText?_writeFile? hwrite]
    rfl

/-- **Every call maintains the property**, whether it succeeds or fails. -/
theorem Maintains.call (hP : KeptByRewrites schema P) (h : Maintains P schema path made c w)
    {k : Call} (hk : HandsOutNewIds c w k) :
    Maintains P schema path made (c.call w k).collection (c.call w k).world := by
  obtain ⟨hop, hnew⟩ := hk
  rcases h.records with ⟨hnot, hstored⟩ | ⟨records, hstate, rfl, hrecords, hfile⟩
  · cases hfault : k.op.fault? with
    | some e =>
      rw [call_fault hfault]
      exact ⟨h.sameSchema, h.samePath, Or.inl ⟨hnot, hstored⟩⟩
    | none =>
      cases made with
      | false =>
        -- the file could not be made, and cannot be made the next time
        rw [call_of_stored_error hfault hnot hstored]
        refine ⟨h.sameSchema, h.samePath, Or.inl ⟨rfl, ?_⟩⟩
        have hagain := stored_ensureFile c w.files
        rw [hstored] at hagain
        exact (stored_eq_of_path (by rfl) _).trans hagain
      | true =>
        -- loading comes first, and finds no records; then the call is one on a loaded collection
        have hload := load_of_stored hnot hstored
        have hfile := readText?_ensureFile hstored
        rw [h.samePath] at hfile
        have hnew := hnew [] (by rw [hload])
        rw [call_of_notLoaded hfault hnot hstored] at hnew ⊢
        exact maintains_call_of_loaded (c := { c with state := .loaded [] })
          (w := { w with files := (c.ensureFile w.files).1,
                         warnings := w.warnings ++ c.loadWarnings [] })
          hP h.sameSchema h.samePath rfl hP.nil hfile hop hnew
  · have hload := load_of_loaded hstate w
    exact maintains_call_of_loaded hP h.sameSchema h.samePath hstate hrecords hfile hop
      (hnew records (by rw [hload]))

/-- **At any time the property holds**, whatever was called. -/
theorem maintains_of_reaches (hP : KeptByRewrites c₀.schema P) (hstart : c₀.StartsEmpty w₀)
    (h : Reaches HandsOutNewIds c₀ w₀ c w) :
    Maintains P c₀.schema c₀.path (c₀.ensureFile w₀.files).2 c w := by
  induction h with
  | start => exact maintains_start P hstart
  | step k _ hk ih => exact ih.call hP hk

theorem keptByRewrites_kept (hschema : schema.WellFormed) (hreserved : schema.ReservedFree) :
    KeptByRewrites schema (Validation.Kept schema) :=
  ⟨Validation.kept_nil, fun hnow hkept hrewrites hnew =>
    hrewrites.kept hschema hreserved hnow hkept hnew⟩

/-- What is loaded then: records with the property, unless the file could not be made. -/
theorem Maintains.load (hP : KeptByRewrites schema P) (h : Maintains P schema path made c w) :
    (made = true ∧ ∃ records, (c.load w).answer = .ok records ∧ P records) ∨
      made = false ∧ (c.load w).answer = .error .file := by
  rcases h.records with ⟨hnot, hstored⟩ | ⟨records, hstate, hmade, hrecords, -⟩
  · cases made with
    | true => exact Or.inl ⟨rfl, [], by rw [load_of_stored hnot hstored], hP.nil⟩
    | false => exact Or.inr ⟨rfl, by rw [load_of_stored_error hnot hstored]⟩
  · exact Or.inl ⟨hmade, records, by rw [load_of_loaded hstate], hrecords⟩

/-- **A collection that starts empty never has issues**: at any time the scan answers the empty
list, and the records are consistent with the schema. Only where the file cannot be made does the
scan fail, and then it always does. -/
theorem checkIntegrity_of_reaches (hschema : c₀.schema.WellFormed)
    (hreserved : c₀.schema.ReservedFree) (hstart : c₀.StartsEmpty w₀)
    (h : Reaches HandsOutNewIds c₀ w₀ c w) :
    (c.checkIntegrity w).answer =
        (if (c₀.ensureFile w₀.files).2 then .ok [] else .error .file) ∧
      ∀ records, (c.load w).answer = .ok records →
        Validation.Consistent c₀.schema records := by
  have hrewrites := keptByRewrites_kept hschema hreserved
  have hmaintains := maintains_of_reaches hrewrites hstart h
  rw [checkIntegrity, reading]
  dsimp only
  rcases hmaintains.load hrewrites with ⟨hmade, records, hload, hkept⟩ | ⟨hmade, hload⟩
  · rw [hload, hmade]
    refine ⟨?_, ?_⟩
    · rw [Except.map, hmaintains.sameSchema, hkept.checkIntegrity hreserved]
      rfl
    · intro records' hrecords'
      rw [← Except.ok.inj hrecords']
      exact hkept.consistent hreserved
  · rw [hload, hmade]
    exact ⟨rfl, fun records hrecords => by simp at hrecords⟩

/-- Two records saved into a file that was missing: the second gets an id that is not stored. -/
theorem checkIntegrity_second_save :
    (Sample.second.collection.checkIntegrity Sample.second.world).answer = .ok [] := by
  have hreserved : Sample.collection.schema.ReservedFree := by
    unfold Schema.ReservedFree
    decide
  have hstart : Sample.collection.StartsEmpty Sample.world := ⟨rfl, Or.inl rfl⟩
  have hfirst : HandsOutNewIds Sample.collection Sample.world (Sample.saving "a") := by
    refine ⟨Sample.wellFormed_saving "a", ?_⟩
    intro records hrecords
    have hload : (Sample.collection.load Sample.world).answer = .ok [] := rfl
    rw [hload] at hrecords
    obtain rfl := Except.ok.inj hrecords
    intro k _ _ r hr
    exact absurd hr List.not_mem_nil
  have hsecond : HandsOutNewIds Sample.first.collection Sample.first.world (Sample.saving "b") := by
    refine ⟨Sample.wellFormed_saving "b", ?_⟩
    intro records hrecords k hle hlt r hr
    have hids : (Sample.first.collection.load Sample.first.world).answer.map
        (List.map Record.id?) = .ok [some (IdSupply.numberedId 1)] := rfl
    rw [hrecords] at hids
    have hid : Record.id? r = some (IdSupply.numberedId 1) :=
      List.mem_singleton.mp (Except.ok.inj hids ▸ List.mem_map_of_mem hr)
    have hbefore : (Sample.first.collection.idSupply Sample.first.world).used = 1 := rfl
    have hafter : (Sample.second.collection.idSupply Sample.second.world).used = 2 := rfl
    -- the second call takes the id after that of the first record
    have hk : k = 1 := by
      rw [hbefore] at hle
      have hlt2 : k < 2 := hafter ▸ hlt
      omega
    rw [hk, hid]
    decide
  have hmade : (Sample.collection.ensureFile Sample.world.files).2 = true := rfl
  have h := (checkIntegrity_of_reaches Sample.wellFormed_schema hreserved hstart
    (.step (Sample.saving "b") (.step (Sample.saving "a") .start hfirst) hsecond)).1
  rw [hmade] at h
  exact h

end DocStore.Collection
