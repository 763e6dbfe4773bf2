import DocStore.Proofs.Collection.Writing
import DocStore.Proofs.Config
import DocStore.Proofs.Store.Handles
/-!
# Collections do not touch each other

A name that a store accepts is the name of a file directly in its directory, and two names are those
of two files. An operation writes at the place of its own file and nowhere else, but for directories
that are missing around it. So what is done through one handle leaves all other collections as they
are, in memory and in their files.

* `FileTree.LeavesOthers`: what may change when the file of a path is looked for and written.
* `leavesOthers_perform`: every operation, whether it succeeds or fails.
* `stored_of_leavesOthers`: what is found in the file of another collection.
* `Registry`: what the bindings of a store keep, and `collections_isolated`: whole rows of calls.
-/

namespace DocStore

-- ---------------------------------------------------------------------------
-- What is left of the tree
-- ---------------------------------------------------------------------------

namespace FileTree

/-- All places but that of a path are left as they are, but for directories that are made around the
path. -/
structure LeavesOthers (path : String) (before after : FileTree) : Prop where
  current : after.current = before.current
  directories : ∀ q, before.isDirectory q = true → after.isDirectory q = true
  others : ∀ q, after.locate path = some q ∨ KeepsOrMakes (before.around path) before after q

variable {path : String} {t t' t'' : FileTree}

theorem LeavesOthers.refl (path : String) (t : FileTree) : LeavesOthers path t t :=
  ⟨rfl, fun _ hq => hq, fun _ => .inr (.inl rfl)⟩

theorem around_eq (hcurrent : t'.current = t.current) (path : String) :
    t'.around path = t.around path := by
  rw [around, around, start_eq hcurrent]

/-- What is done for one path in two steps leaves the others as well. -/
theorem LeavesOthers.trans (h : LeavesOthers path t t') (h' : LeavesOthers path t' t'') :
    LeavesOthers path t t'' := by
  refine ⟨h'.current.trans h.current, fun q hq => h'.directories q (h.directories q hq), ?_⟩
  intro q
  rcases h'.others q with hpath | hlater
  · exact .inl hpath
  rcases h.others q with hpath | hearlier
  · exact .inl (locate_of_isDirectory h'.current h'.directories hpath)
  rw [around_eq h.current] at hlater
  refine .inr ?_
  rcases hearlier with hsame | ⟨hnone, hmade, hmem⟩
  · rwa [KeepsOrMakes, hsame] at hlater
  · -- a directory that was made before is still there
    have hkept := h'.directories q (isDirectory_iff.mpr hmade)
    exact .inr ⟨hnone, isDirectory_iff.mp hkept, hmem⟩

theorem leavesOthers_createParent (t : FileTree) (path : String) :
    LeavesOthers path t (t.createParent path).1 :=
  ⟨current_createParent t path, fun _ hq => isDirectory_createParent hq path,
    fun q => .inr (node?_createParent t path q)⟩

/-- Writing a file leaves all others. -/
theorem leavesOthers_writeFile? {n : Node} (h : t.writeFile? path n = some t') :
    LeavesOthers path t t' := by
  obtain ⟨place, hplace, hdir, -, rfl⟩ := writeFile?_eq_some h
  refine ⟨current_put .., fun _ hq => isDirectory_put hdir hq n, fun q => ?_⟩
  by_cases hq : q = place
  · rw [hq]
    exact .inl (locate_put hdir n hplace)
  · exact .inr (.inl (node?_put_of_ne t hq n))

/-- A text is read if the path leads to a place where it stands. -/
theorem readText?_eq_some_iff {text : String} : t.readText? path = some text ↔
    endsInDirectory path = false ∧ ∃ q, t.locate path = some q ∧ t.node? q = some (.text text) := by
  constructor
  · intro h
    unfold FileTree.readText? at h
    split at h
    · rename_i content hfind
      obtain rfl := Option.some.inj h
      rw [find?] at hfind
      split at hfind
      · cases hfind
      · split at hfind
        · cases hfind
        · -- a path that ends in a slash leads to no text
          rename_i hends
          exact ⟨Bool.not_eq_true _ ▸ hends, Option.bind_eq_some_iff.mp hfind⟩
    · cases h
  · rintro ⟨hends, q, hq, hnode⟩
    rw [FileTree.readText?, find?, hq, Option.bind_some, hnode, hends]
    rfl

/-- A text at another place is still read there. -/
theorem LeavesOthers.readText? (h : LeavesOthers path t t') {other text : String}
    (hother : ∀ q, t.locate other = some q → t'.locate path ≠ some q)
    (hread : t.readText? other = some text) : t'.readText? other = some text := by
  obtain ⟨hends, q, hq, hnode⟩ := readText?_eq_some_iff.mp hread
  refine readText?_eq_some_iff.mpr
    ⟨hends, q, locate_of_isDirectory h.current h.directories hq, ?_⟩
  rcases h.others q with hpath | hsame | ⟨hnone, -⟩
  · exact absurd hpath (hother q hq)
  · exact hsame.trans hnode
  · rw [hnone] at hnode
    cases hnode

/-- **Below a directory that is there** a path leads where it led, and what stands there is the
same. -/
theorem LeavesOthers.node? (h : LeavesOthers path t t') {other : String}
    (hpath : (t.parent path).isSome = true) (hparent : (t.parent other).isSome = true)
    (hother : ∀ q, t.locate other = some q → t'.locate path ≠ some q) :
    t'.locate other = t.locate other ∧
      ∀ q, t.locate other = some q → t'.node? q = t.node? q := by
  refine ⟨locate_of_parent h.current h.directories hparent, fun q hq => ?_⟩
  rcases h.others q with hown | hsame | ⟨hnone, -, haround⟩
  · exact absurd hown (hother q hq)
  · exact hsame
  · have hdir := isDirectory_iff.mp (isDirectory_of_mem_around hpath haround)
    rw [hnone] at hdir
    cases hdir

end FileTree

-- ---------------------------------------------------------------------------
-- What operations leave of the tree
-- ---------------------------------------------------------------------------

namespace Collection

open FileTree (LeavesOthers)

/-- Looking for the file of a collection leaves all other files. -/
theorem leavesOthers_ensureFile (c : Collection) (files : FileTree) :
    LeavesOthers c.path files (c.ensureFile files).1 := by
  have hparent := FileTree.leavesOthers_createParent files c.path
  rw [ensureFile]
  split
  · exact .refl c.path files
  · dsimp only
    split
    · split
      · rename_i files' hwrite
        exact hparent.trans (FileTree.leavesOthers_writeFile? hwrite)
      · exact hparent
    · exact hparent

/-- Loading a collection leaves all other files. -/
theorem leavesOthers_load (c : Collection) (w : World) :
    LeavesOthers c.path w.files (c.load w).world.files := by
  rcases notLoaded_or_loaded c with hnot | ⟨records, hstate⟩
  · rw [files_load hnot]
    exact leavesOthers_ensureFile c w.files
  · rw [load_of_loaded hstate]
    exact .refl c.path w.files

/-- Settling what was decided leaves all other files. -/
theorem leavesOthers_settle (c : Collection) (w : World) (e : Effect) :
    LeavesOthers c.path w.files (settle c w e).world.files := by
  rcases settle_cases c w e with ⟨huntouched, -⟩ | ⟨records, answer, -, -, -, hwrite⟩
  · rw [huntouched.files]
    exact .refl c.path w.files
  · exact FileTree.leavesOthers_writeFile? hwrite

/-- **Every operation leaves all files but its own**, whether it succeeds or fails. -/
theorem leavesOthers_perform (c : Collection) (w : World) (op : Operation) :
    LeavesOthers c.path w.files (c.perform w op).world.files := by
  have hload := leavesOthers_load c w
  rw [perform_eq]
  split
  · exact .refl c.path w.files
  · split
    · exact hload
    · refine hload.trans ?_
      rw [← load_path c w]
      exact leavesOthers_settle ..

/-- Whether a missing file can be made where the directory around it is there. -/
theorem ensureFile_of_parent {c : Collection} {files : FileTree}
    (hparent : (files.parent c.path).isSome = true) (hmissing : files.fileExists c.path = false) :
    (c.ensureFile files).2 = (FileTree.isPath ("/".intercalate (FileTree.steps c.path).dropLast) &&
      (c.writeFile [] files).isSome) := by
  rw [ensureFile, hmissing, FileTree.createParent_of_parent hparent]
  dsimp only
  cases FileTree.isPath ("/".intercalate (FileTree.steps c.path).dropLast) with
  | false => rfl
  | true =>
    cases c.writeFile [] files with
    | none => rfl
    | some files' => rfl

/-- **What is found in the file of another collection stays the same**, as long as the directories
of both files are there. -/
theorem stored_of_leavesOthers {d : Collection} {path : String} {files files' : FileTree}
    (h : LeavesOthers path files files') (hpath : (files.parent path).isSome = true)
    (hparent : (files.parent d.path).isSome = true)
    (hother : ∀ q, files.locate d.path = some q → files'.locate path ≠ some q) :
    d.stored files' = d.stored files := by
  obtain ⟨hlocate, hnode⟩ := h.node? hpath hparent hother
  -- the path leads where it led, and there stands what stood there
  have hfind : files'.find? d.path = files.find? d.path := by
    rw [FileTree.find?, FileTree.find?, hlocate]
    cases hplace : files.locate d.path with
    | none => rfl
    | some q => rw [Option.bind_some, Option.bind_some, hnode q hplace]
  have hexists : files'.fileExists d.path = files.fileExists d.path := by
    rw [FileTree.fileExists, hfind, FileTree.fileExists]
  have hparent' : (files'.parent d.path).isSome = true := by
    obtain ⟨around, haround⟩ := Option.isSome_iff_exists.mp hparent
    rw [FileTree.parent_of_isDirectory h.current h.directories haround]
    rfl
  -- a file that is missing can be made if and only if it could be made before
  have hwrite : (d.writeFile [] files').isSome = (d.writeFile [] files).isSome := by
    have hdir : ∀ q, files.locate d.path = some q →
        files'.isDirectory q = files.isDirectory q := by
      intro q hq
      rw [FileTree.isDirectory, FileTree.isDirectory, hnode q hq]
    rw [Bool.eq_iff_iff, Option.isSome_iff_exists, Option.isSome_iff_exists]
    simp only [writeFile, FileTree.writeFile?_eq_some_iff]
    constructor
    · rintro ⟨-, -, q, hq, hfile, hends, -⟩
      rw [hlocate] at hq
      exact ⟨_, hparent, q, hq, hdir q hq ▸ hfile, hends, rfl⟩
    · rintro ⟨-, -, q, hq, hfile, hends, -⟩
      exact ⟨_, hparent', q, hlocate.trans hq, (hdir q hq).trans hfile, hends, rfl⟩
  cases hfound : files.fileExists d.path with
  | true =>
    rw [hfound] at hexists
    rw [stored_of_fileExists hexists, stored_of_fileExists hfound, parseFile, parseFile,
      FileTree.readText?, FileTree.readText?, hfind]
  | false =>
    rw [hfound] at hexists
    rw [stored_of_missing hexists, stored_of_missing hfound, ensureFile_of_parent hparent' hexists,
      ensureFile_of_parent hparent hfound, hwrite]

/-- The records that are found in another collection stay the same. -/
theorem load_of_leavesOthers {d : Collection} {path : String} {w w' : World}
    (h : LeavesOthers path w.files w'.files) (hpath : (w.files.parent path).isSome = true)
    (hparent : (w.files.parent d.path).isSome = true)
    (hother : ∀ q, w.files.locate d.path = some q → w'.files.locate path ≠ some q) :
    (d.load w').answer = (d.load w).answer := by
  rcases notLoaded_or_loaded d with hnot | ⟨records, hstate⟩
  · rw [answer_load hnot, answer_load hnot, stored_of_leavesOthers h hpath hparent hother]
  · rw [load_of_loaded hstate, load_of_loaded hstate]

end Collection

namespace Store

open Collection (Binding)

variable {s s' : Store} {schemaFor? : String → Option Schema} {visits : List Visit}

-- ---------------------------------------------------------------------------
-- The files of a store
-- ---------------------------------------------------------------------------

/-- A name that a store accepts is that of a file. -/
theorem isFileName_of_validName {name : String} (h : validName name = true) :
    FileTree.IsFileName (name ++ ".json") := by
  -- the ending alone is longer than the names that stand for directories
  have hlength : ∀ other : String, other.length < 5 → name ++ ".json" ≠ other := by
    intro other hshort hsame
    have hlong := congrArg String.length hsame
    rw [String.length_append] at hlong
    have hending : ".json".length = 5 := rfl
    omega
  refine ⟨?_, hlength "" (by decide), hlength "." (by decide), hlength ".." (by decide)⟩
  simp only [validName, Bool.and_eq_true, List.all_eq_true, bne_iff_ne] at h
  rw [String.toList_append, List.mem_append]
  rintro (hslash | hslash)
  · exact (h.2 '/' hslash).1.1 rfl
  · exact absurd hslash (by decide)

section Paths

variable {name other : String} {t t' : FileTree} {q : Place}

/-- The file of a name stands directly in the directory. -/
theorem place_of_locate (config : Config) (hvalid : validName name = true)
    (hq : t.locate (config.collectionPath name) = some q) :
    q = t.place config.dataDir ++ [name ++ ".json"] := by
  rw [FileTree.eq_place_of_locate hq]
  exact Config.place_join t config.dataDir (isFileName_of_validName hvalid)

/-- **Two names have two paths.** -/
theorem collectionPath_injective {config : Config} (hvalid : validName name = true)
    (hother : validName other = true)
    (hsame : config.collectionPath name = config.collectionPath other) : name = other := by
  have hfiles := Config.join_injective config.dataDir (isFileName_of_validName hvalid)
    (isFileName_of_validName hother) hsame
  exact (String.append_left_inj ".json").mp hfiles

/-- The files of two names stand at different places. -/
theorem locate_ne (config : Config) (hne : name ≠ other) (hvalid : validName name = true)
    (hother : validName other = true) (hq : t.locate (config.collectionPath name) = some q) :
    t'.locate (config.collectionPath other) ≠ some q := by
  intro hown
  have hsame := (place_of_locate config hvalid hq).symm.trans (place_of_locate config hother hown)
  exact hne ((String.append_left_inj ".json").mp
    (List.cons.inj (List.append_inj_right' hsame rfl)).1)

/-- All collections of a store have one directory. -/
theorem parent_collectionPath (t : FileTree) (config : Config) (hvalid : validName name = true)
    (hother : validName other = true) :
    t.parent (config.collectionPath name) = t.parent (config.collectionPath other) := by
  rw [Config.collectionPath, Config.collectionPath,
    Config.parent_join t _ (isFileName_of_validName hvalid),
    Config.parent_join t _ (isFileName_of_validName hother)]

end Paths

/-- The names of a store are accepted ones and distinct, and each is bound to its own file. -/
structure Registry (s : Store) : Prop where
  valid : ∀ b ∈ s.bindings, validName b.name = true
  path : ∀ b ∈ s.bindings, b.path = s.config.collectionPath b.name
  distinct : (s.bindings.map Binding.name).Nodup

/-- Nothing is bound in an empty store. -/
theorem registry_of_no_collections (h : s.collections = []) : Registry s := by
  have hnone : s.bindings = [] := by
    rw [bindings, h]
    rfl
  refine ⟨?_, ?_, ?_⟩ <;> rw [hnone]
  · exact fun b hb => absurd hb List.not_mem_nil
  · exact fun b hb => absurd hb List.not_mem_nil
  · exact List.nodup_nil

/-- A free name that is accepted may be bound. -/
theorem Registry.bound (hs : Registry s) {name : String} (hvalid : validName name = true)
    (hfree : s.handle? name = none) (schema : Schema) : Registry (s.bound name schema) := by
  have hbindings : (s.bound name schema).bindings =
      s.bindings ++ [⟨name, schema, s.config.collectionPath name⟩] := List.map_append
  refine ⟨?_, ?_, ?_⟩ <;> rw [hbindings]
  · intro b hb
    rcases List.mem_append.mp hb with hb | hb
    · exact hs.valid b hb
    · rw [List.mem_singleton.mp hb]
      exact hvalid
  · intro b hb
    rcases List.mem_append.mp hb with hb | hb
    · exact hs.path b hb
    · rw [List.mem_singleton.mp hb]
      rfl
  · rw [List.map_append, List.nodup_append]
    refine ⟨hs.distinct, List.nodup_singleton _, ?_⟩
    intro a ha b hb hsame
    obtain ⟨old, hold, rfl⟩ := List.mem_map.mp ha
    -- an old binding of this name would have been found
    rw [handle?_eq, List.findIdx?_eq_none_iff] at hfree
    have hother := hfree old hold
    rw [hsame, List.mem_singleton.mp hb, beq_self_eq_true] at hother
    cases hother

/-- A step keeps the names distinct, and each bound to its own file. -/
theorem Registry.step (hs : Registry s) (h : Step schemaFor? s visits s') : Registry s' := by
  cases h with
  | bind hvalid hfree => exact hs.bound hvalid hfree _
  | @visit h c w op hget =>
    have hsame : (s.put h (c.perform w op).collection).bindings = s.bindings :=
      bindings_put hget (Collection.binding_perform ..)
    refine ⟨?_, ?_, ?_⟩ <;> rw [hsame]
    · exact hs.valid
    · exact hs.path
    · exact hs.distinct

theorem Registry.steps (hs : Registry s) (h : Steps schemaFor? s visits s') : Registry s' := by
  induction h with
  | done s => exact hs
  | next hstep _ ih => exact ih (hs.step hstep)

/-- **Any calls keep the names distinct**, and each bound to its own file. -/
theorem Registry.calls (hs : Registry s) (w : World) (ks : List Call) :
    Registry (s.calls w ks).2.1 := by
  induction ks generalizing s w with
  | nil => exact hs
  | cons k rest ih => exact ih (hs.steps (steps_call s w k)) _

/-- A collection has an accepted name, and the path of that name. -/
theorem Registry.of_get? (hs : Registry s) {h : Handle} {c : Collection}
    (hget : s.get? h = some c) :
    validName c.name = true ∧ c.path = s.config.collectionPath c.name := by
  have hmem : c.binding ∈ s.bindings := List.mem_map_of_mem (List.mem_of_getElem? hget)
  exact ⟨hs.valid _ hmem, hs.path _ hmem⟩

/-- Behind different handles are different names. -/
theorem Registry.name_ne (hs : Registry s) {h i : Handle} {c d : Collection} (hne : i ≠ h)
    (hc : s.get? h = some c) (hd : s.get? i = some d) : d.name ≠ c.name := by
  have hname : ∀ {j : Handle} {e : Collection}, s.get? j = some e →
      (s.bindings.map Binding.name)[j]? = some e.name := by
    intro j e he
    rw [List.getElem?_map, ← map_get?, he]
    rfl
  intro hsame
  have hi := hname hd
  rw [hsame, ← hname hc] at hi
  have hlt := (List.getElem?_eq_some_iff.mp (hname hd)).1
  exact hne ((List.getElem?_inj hlt hs.distinct).mp hi)

/-- **Collections do not touch each other.** The path of every name that a store accepts leads to a
place directly in the store's directory, another one for each name. In a store that was opened and
has served any calls, an operation through one handle, whether it succeeds or fails, leaves all
places but that of its own file as they are, apart from directories that are made around it, and
leaves every other collection as it is in memory and the text in its file. As long as the directory
of the store is there, the same records are found in it as before. -/
theorem collections_isolated {config : Config} {files files' : FileTree} {s₀ : Store}
    (hopen : openWith config files = (.ok s₀, files')) (w : World) (ks : List Call) :
    (∀ name, validName name = true →
      FileTree.steps (config.collectionPath name) =
          FileTree.steps config.dataDir ++ [name ++ ".json"] ∧
        ∀ (t : FileTree) q, t.locate (config.collectionPath name) = some q →
          q = t.place config.dataDir ++ [name ++ ".json"]) ∧
    (∀ name other, validName name = true → validName other = true →
      config.collectionPath name = config.collectionPath other → name = other) ∧
    let s := (s₀.calls w ks).2.1
    ∀ h c, s.get? h = some c → ∀ w' op,
      let after := (s.serve w' (.perform h op)).2
      validName c.name = true ∧ c.path = config.collectionPath c.name ∧
        FileTree.LeavesOthers c.path w'.files after.2.files ∧
        ∀ i d, i ≠ h → s.get? i = some d →
          d.path ≠ c.path ∧ after.1.get? i = some d ∧
          (∀ q, w'.files.locate d.path = some q → after.2.files.locate c.path ≠ some q) ∧
          (∀ text, w'.files.readText? d.path = some text →
            after.2.files.readText? d.path = some text) ∧
          ((w'.files.parent c.path).isSome = true →
            (d.load after.2).answer = (d.load w').answer) := by
  refine ⟨fun name hvalid => ⟨Config.steps_join _ (isFileName_of_validName hvalid),
    fun t q hq => place_of_locate config hvalid hq⟩, fun _ _ => collectionPath_injective, ?_⟩
  intro s h c hget w' op after
  have hregistry : Registry s := (registry_of_no_collections (openWith_eq_ok hopen).2).calls w ks
  have hconfig : s.config = config :=
    (grows_calls s₀ w ks).config.trans (openWith_eq_ok hopen).1
  have hafter : after = (s.put h (c.perform w' op).collection, (c.perform w' op).world) :=
    congrArg Prod.snd (serve_perform hget w' op)
  obtain ⟨hvalid, hpath⟩ := hregistry.of_get? hget
  have hleaves := Collection.leavesOthers_perform c w' op
  rw [hafter, ← hconfig]
  refine ⟨hvalid, hpath, hleaves, ?_⟩
  intro i d hne hd
  obtain ⟨hvalid', hpath'⟩ := hregistry.of_get? hd
  have hname : d.name ≠ c.name := hregistry.name_ne hne hget hd
  -- the two files stand at two places of one directory
  have hapart : ∀ q, w'.files.locate d.path = some q →
      (c.perform w' op).world.files.locate c.path ≠ some q := by
    rw [hpath, hpath']
    exact fun q hq => locate_ne s.config hname hvalid' hvalid hq
  refine ⟨?_, ?_, hapart, fun text hread => hleaves.readText? hapart hread, fun hparent => ?_⟩
  · rw [hpath, hpath']
    exact fun hsame => hname (collectionPath_injective hvalid' hvalid hsame)
  · rw [Store.get?, put, List.getElem?_set_ne (Ne.symm hne)]
    exact hd
  · have hparent' : (w'.files.parent d.path).isSome = true := by
      rw [hpath', parent_collectionPath w'.files s.config hvalid' hvalid, ← hpath]
      exact hparent
    exact Collection.load_of_leavesOthers hleaves hparent hparent' hapart

namespace Sample

/-- Two names are bound, and a record is saved under the first. -/
def filling : List Call :=
  [⟨0, .model "mail" Collection.Sample.schema⟩, ⟨0, .model "post" Collection.Sample.schema⟩,
    ⟨0, .perform 0 (Collection.Sample.saving "a").op⟩]

def filled : Store × World := (store.calls world filling).2

/-- A record is saved under the second name. -/
def saved : Store × World :=
  (filled.1.serve filled.2 (.perform 1 (Collection.Sample.saving "b").op)).2

end Sample

/-- Saving a record under one name leaves the text that was saved under the other. -/
theorem collections_isolated_saved :
    ∃ text, Sample.filled.2.files.readText? "data/mail.json" = some text ∧
      Sample.saved.2.files.readText? "data/mail.json" = some text ∧
      (Sample.saved.2.files.readText? "data/post.json").isSome := by
  have hopen : openWith Sample.config (.fresh ["home"]) = (.ok Sample.store, Sample.world.files) :=
    rfl
  have hfirst : (Sample.filled.1.get? 0).map Collection.path = some "data/mail.json" := by
    decide +kernel
  have hsecond : (Sample.filled.1.get? 1).map Collection.path = some "data/post.json" := by
    decide +kernel
  have htext : (Sample.filled.2.files.readText? "data/mail.json").isSome = true := by
    decide +kernel
  obtain ⟨d, hd, hpath⟩ := Option.map_eq_some_iff.mp hfirst
  obtain ⟨c, hc, -⟩ := Option.map_eq_some_iff.mp hsecond
  obtain ⟨text, hread⟩ := Option.isSome_iff_exists.mp htext
  obtain ⟨-, -, hoperation⟩ := collections_isolated hopen Sample.world Sample.filling
  have hothers := (hoperation 1 c hc Sample.filled.2 (Collection.Sample.saving "b").op).2.2.2
  have hkept := (hothers 0 d (by decide) hd).2.2.2.1 text
  rw [hpath] at hkept
  exact ⟨text, hread, hkept hread, by decide +kernel⟩

end Store
end DocStore
