import Mathlib.Data.List.Induction
import DocStore.FileTree
/-!
# Writing a file and reading it back

A path passes through directories only, and no file is written in place of a directory, so writing
a file changes no path to any place.

* `locate_put`: writing a file leaves what every path names.
* `find?_writeFile?`: a file that was written is found at its path.
* `createParent_again`: making the directories around a path a second time changes nothing, whether
  it worked or not.
* `readText?_of_writeFile?`: where no file can be written, none is read.
* `node?_createParent`: making directories fills missing places around the path and no others.
* `createParent_of_parent`, `locate_of_parent`: where the directories are there already.
* `locate_of_closed`: a path without double points leads to whatever stands at its place.
-/

namespace DocStore.FileTree

theorem current_put (t : FileTree) (p : Place) (n : Node) : (t.put p n).current = t.current := rfl

/-- The root is a directory. -/
theorem ne_root {t : FileTree} {p : Place} (h : t.isDirectory p = false) : p ≠ [] := by
  rintro rfl
  exact absurd h (by simp [isDirectory, node?])

/-- Writing where no directory stands leaves every directory. -/
theorem isDirectory_put {t : FileTree} {p : Place} (hp : t.isDirectory p = false) {q : Place}
    (hq : t.isDirectory q = true) (n : Node) : (t.put p n).isDirectory q = true := by
  have hne : q ≠ p := by
    rintro rfl
    rw [hp] at hq
    exact absurd hq (by decide)
  unfold isDirectory at hq ⊢
  rw [node?_put_of_ne t hne]
  exact hq

/-- Names lead where they led as long as the directories are there. -/
theorem walk_of_isDirectory {t t' : FileTree}
    (hkept : ∀ p, t.isDirectory p = true → t'.isDirectory p = true) {from_ q : Place}
    {names : List String} (h : t.walk from_ names = some q) : t'.walk from_ names = some q := by
  induction names generalizing from_ with
  | nil => exact h
  | cons name rest ih =>
    rw [walk] at h ⊢
    -- a name is followed if its directory is there; this one is, and stays
    split at h
    · simp at h
    · rename_i hstep
      simp only [Bool.or_eq_true, Bool.not_eq_eq_eq_not, Bool.not_true, not_or,
        Bool.not_eq_false] at hstep
      rw [if_neg (by simp [hkept _ hstep.1, hstep.2])]
      split at h
      · rename_i hup
        rw [if_pos hup]
        exact ih h
      · rename_i hdown
        rw [if_neg hdown]
        exact ih h

theorem start_eq {t t' : FileTree} (h : t'.current = t.current) (path : String) :
    t'.start path = t.start path := by
  rw [start, start, h]

/-- A path names what it named as long as the directories are there. -/
theorem locate_of_isDirectory {t t' : FileTree} (hcurrent : t'.current = t.current)
    (hkept : ∀ p, t.isDirectory p = true → t'.isDirectory p = true) {path : String} {q : Place}
    (h : t.locate path = some q) : t'.locate path = some q := by
  unfold locate at h ⊢
  split at h
  · simp at h
  · rename_i hpath
    rw [if_neg hpath, start_eq hcurrent]
    exact walk_of_isDirectory hkept h

/-- **Writing a file leaves what every path names.** -/
theorem locate_put {t : FileTree} {p : Place} (hp : t.isDirectory p = false) (n : Node)
    {path : String} {q : Place} (h : t.locate path = some q) :
    (t.put p n).locate path = some q :=
  locate_of_isDirectory (current_put t p n) (fun _ hq => isDirectory_put hp hq n) h

/-- **When a file can be written**: the directory around it is there, and no directory is in its
place. -/
theorem writeFile?_eq_some_iff {t t' : FileTree} {path : String} {n : Node} :
    t.writeFile? path n = some t' ↔
      (t.parent path).isSome ∧ ∃ place, t.locate path = some place ∧ t.isDirectory place = false ∧
        endsInDirectory path = false ∧ t' = t.put place n := by
  unfold writeFile?
  simp only [Option.bind_eq_bind, Option.bind_eq_some_iff]
  constructor
  · rintro ⟨around, haround, place, hplace, h⟩
    split at h
    · cases h
    · rename_i hguard
      simp only [Bool.or_eq_true, not_or, Bool.not_eq_true] at hguard
      have hparent : (t.parent path).isSome = true := by rw [haround]; rfl
      exact ⟨hparent, place, hplace, hguard.2, hguard.1, (Option.some.inj h).symm⟩
  · rintro ⟨hparent, place, hplace, hdir, hends, rfl⟩
    obtain ⟨around, haround⟩ := Option.isSome_iff_exists.mp hparent
    refine ⟨around, haround, place, hplace, ?_⟩
    rw [hends, hdir]
    rfl

/-- What a successful write does: it puts the file where the path leads. -/
theorem writeFile?_eq_some {t t' : FileTree} {path : String} {n : Node}
    (h : t.writeFile? path n = some t') :
    ∃ place, t.locate path = some place ∧ t.isDirectory place = false ∧
      endsInDirectory path = false ∧ t' = t.put place n :=
  (writeFile?_eq_some_iff.mp h).2

/-- A file that was written is found at its path. -/
theorem find?_writeFile? {t t' : FileTree} {path : String} {n : Node}
    (h : t.writeFile? path n = some t') : t'.find? path = some n := by
  obtain ⟨place, hplace, hdir, hends, rfl⟩ := writeFile?_eq_some h
  rw [find?, locate_put hdir n hplace, Option.bind_some, node?_put_self t (ne_root hdir)]
  cases n with
  | directory => rfl
  | _ => simp [hends]

theorem readText?_writeFile? {t t' : FileTree} {path content : String}
    (h : t.writeFile? path (.text content) = some t') : t'.readText? path = some content := by
  rw [readText?, find?_writeFile? h]

theorem fileExists_writeFile? {t t' : FileTree} {path : String} {n : Node}
    (h : t.writeFile? path n = some t') : t'.fileExists path = true := by
  rw [fileExists, find?_writeFile? h]
  rfl

/-- A file that is read is there. -/
theorem fileExists_of_readText? {t : FileTree} {path content : String}
    (h : t.readText? path = some content) : t.fileExists path = true := by
  unfold readText? at h
  unfold fileExists
  split at h
  · rename_i hfind
    rw [hfind]
    rfl
  · simp at h

-- ---------------------------------------------------------------------------
-- Writing a file over
-- ---------------------------------------------------------------------------

/-- Of two nodes written at one place the second stays. -/
theorem putNode_putNode (p : Place) (m n : Node) (nodes : List (Place × Node)) :
    putNode p n (putNode p m nodes) = putNode p n nodes := by
  induction nodes with
  | nil => simp [putNode]
  | cons e rest ih =>
    obtain ⟨q, old⟩ := e
    by_cases h : q = p
    · simp [putNode, h]
    · simp [putNode, h, ih]

theorem put_put (t : FileTree) (p : Place) (m n : Node) : (t.put p m).put p n = t.put p n := by
  rw [put, put, put, putNode_putNode]

/-- The directory around a path is the same in all trees that keep the directories. -/
theorem parent_of_isDirectory {t t' : FileTree} (hcurrent : t'.current = t.current)
    (hkept : ∀ p, t.isDirectory p = true → t'.isDirectory p = true) {path : String}
    {around : Place} (h : t.parent path = some around) : t'.parent path = some around := by
  unfold parent at h ⊢
  rw [Option.filter_eq_some_iff] at h ⊢
  rw [start_eq hcurrent]
  exact ⟨walk_of_isDirectory hkept h.1, hkept around h.2⟩

theorem parent_put {t : FileTree} {p : Place} (hp : t.isDirectory p = false) (n : Node)
    {path : String} {around : Place} (h : t.parent path = some around) :
    (t.put p n).parent path = some around :=
  parent_of_isDirectory (current_put t p n) (fun _ hq => isDirectory_put hp hq n) h

/-- Whether a file can be written does not depend on what is in it. -/
theorem isSome_writeFile? (t : FileTree) (path : String) (m n : Node) :
    (t.writeFile? path m).isSome = (t.writeFile? path n).isSome := by
  rw [Bool.eq_iff_iff, Option.isSome_iff_exists, Option.isSome_iff_exists]
  simp only [writeFile?_eq_some_iff]
  constructor
  · rintro ⟨-, hparent, place, hplace, hdir, hends, -⟩
    exact ⟨_, hparent, place, hplace, hdir, hends, rfl⟩
  · rintro ⟨-, hparent, place, hplace, hdir, hends, -⟩
    exact ⟨_, hparent, place, hplace, hdir, hends, rfl⟩

/-- A text that is written over leaves nothing of itself. -/
theorem writeFile?_over {t t' t'' : FileTree} {path content : String} {n : Node}
    (h : t.writeFile? path (.text content) = some t') (hn : t.writeFile? path n = some t'') :
    t'.writeFile? path n = some t'' := by
  obtain ⟨hparent, place, hplace, hdir, hends, rfl⟩ := writeFile?_eq_some_iff.mp h
  obtain ⟨place', hplace', -, -, rfl⟩ := writeFile?_eq_some hn
  obtain rfl : place = place' := Option.some.inj (hplace.symm.trans hplace')
  obtain ⟨around, haround⟩ := Option.isSome_iff_exists.mp hparent
  -- the text that was written stands there now, and is no directory
  have hfile : (t.put place (.text content)).isDirectory place = false := by
    rw [isDirectory, node?_put_self t (ne_root hdir)]
  have hparent' : ((t.put place (.text content)).parent path).isSome = true := by
    rw [parent_put hdir _ haround]
    rfl
  exact writeFile?_eq_some_iff.mpr
    ⟨hparent', place, locate_put hdir _ hplace, hfile, hends, (put_put ..).symm⟩

-- ---------------------------------------------------------------------------
-- Making directories
-- ---------------------------------------------------------------------------

theorem isDirectory_iff {t : FileTree} {p : Place} :
    t.isDirectory p = true ↔ t.node? p = some .directory := by
  rw [isDirectory]
  split <;> simp_all

/-- Following names in two rows is following them in one. -/
theorem walk_append (t : FileTree) (from_ : Place) (a b : List String) :
    t.walk from_ (a ++ b) = (t.walk from_ a).bind fun p => t.walk p b := by
  induction a generalizing from_ with
  | nil => rfl
  | cons name rest ih =>
    rw [List.cons_append, walk, walk]
    split
    · rfl
    · split
      · exact ih _
      · exact ih _

/-- Where a name is followed from is a directory. -/
theorem isDirectory_of_walk_concat {t : FileTree} {from_ p : Place} {names : List String}
    {last : String} (h : t.walk from_ (names ++ [last]) = some p) :
    ∃ around, t.walk from_ names = some around ∧ t.isDirectory around = true := by
  rw [walk_append, Option.bind_eq_some_iff] at h
  obtain ⟨around, haround, h⟩ := h
  refine ⟨around, haround, ?_⟩
  rw [walk] at h
  split at h
  · simp at h
  · rename_i hguard
    simp only [Bool.or_eq_true, not_or, Bool.not_eq_eq_eq_not, Bool.not_true,
      Bool.not_eq_false] at hguard
    exact hguard.1

/-- Making directories does not change the working directory. -/
theorem current_makeDirectories (t : FileTree) (from_ : Place) (names : List String) :
    (t.makeDirectories from_ names).1.current = t.current := by
  induction names generalizing t from_ with
  | nil => rfl
  | cons name rest ih =>
    rw [makeDirectories]
    split
    · exact ih _ _
    · dsimp only
      split
      · exact ih _ _
      · rfl
      · split
        · exact ih _ _
        · rfl

/-- Making directories leaves the directories there are. -/
theorem isDirectory_makeDirectories {t : FileTree} {q : Place} (hq : t.isDirectory q = true)
    (from_ : Place) (names : List String) :
    (t.makeDirectories from_ names).1.isDirectory q = true := by
  induction names generalizing t from_ with
  | nil => exact hq
  | cons name rest ih =>
    rw [makeDirectories]
    split
    · exact ih hq _
    · dsimp only
      split
      · exact ih hq _
      · exact hq
      · rename_i hnone
        split
        · refine ih (isDirectory_put ?_ hq _) _
          rw [isDirectory, hnone]
        · exact hq

/-- Where directories could not be made, no path leads through them. -/
theorem walk_makeDirectories {t t' : FileTree} {from_ : Place} {names : List String}
    (h : t.makeDirectories from_ names = (t', false)) {more : List String} (hmore : more ≠ []) :
    t'.walk from_ (names ++ more) = none := by
  induction names generalizing t from_ with
  | nil => simp [makeDirectories] at h
  | cons name rest ih =>
    rw [List.cons_append, walk]
    split
    · rfl
    · rename_i hguard
      rw [makeDirectories] at h
      split at h
      · rename_i hup
        rw [if_pos hup]
        exact ih h
      · rename_i hdown
        rw [if_neg hdown]
        dsimp only at h
        split at h
        · exact ih h
        · -- a file is in the way, and the names that follow cannot be followed through it
          rename_i n hother hnode
          obtain ⟨rfl, -⟩ := Prod.mk.inj h
          have hfile : t.isDirectory (from_ ++ [name]) = false := by
            rw [isDirectory, hnode]
            cases n with
            | directory => exact (hother rfl).elim
            | _ => rfl
          cases hrest : rest ++ more with
          | nil => exact absurd (List.append_eq_nil_iff.mp hrest).2 hmore
          | cons next others => rw [walk, hfile]; rfl
        · split at h
          · exact ih h
          · rename_i hname
            -- the name is too long to be one, and then it is not followed either
            exact absurd hguard (by simp [hname])

/-- Directories that were made are there to stay: making them again changes nothing. -/
theorem makeDirectories_again {t t' : FileTree} {from_ : Place} {names : List String} {made : Bool}
    (h : t.makeDirectories from_ names = (t', made)) :
    t'.makeDirectories from_ names = (t', made) := by
  induction names generalizing t from_ with
  | nil =>
    rw [makeDirectories] at h ⊢
    rw [(Prod.mk.inj h).2]
  | cons name rest ih =>
    rw [makeDirectories] at h ⊢
    split at h
    · rename_i hup
      rw [if_pos hup]
      exact ih h
    · rename_i hdown
      rw [if_neg hdown]
      dsimp only at h ⊢
      split at h
      · rename_i hnode
        -- a directory that was there is still there when the names are followed again
        have hkept := isDirectory_makeDirectories (isDirectory_iff.mpr hnode) (from_ ++ [name]) rest
        rw [h] at hkept
        rw [isDirectory_iff.mp hkept]
        exact ih h
      · rename_i n hother hnode
        obtain ⟨rfl, rfl⟩ := Prod.mk.inj h
        rw [hnode]
        cases n with
        | directory => exact (hother rfl).elim
        | _ => rfl
      · rename_i hnone
        split at h
        · -- so is one that was made
          have hput : (t.put (from_ ++ [name]) .directory).isDirectory (from_ ++ [name]) = true :=
            isDirectory_iff.mpr (node?_put_self t (by simp) _)
          have hkept := isDirectory_makeDirectories hput (from_ ++ [name]) rest
          rw [h] at hkept
          rw [isDirectory_iff.mp hkept]
          exact ih h
        · rename_i hname
          obtain ⟨rfl, rfl⟩ := Prod.mk.inj h
          rw [hnone, if_neg hname]

/-- Making the directories around a path a second time changes nothing, whether it worked or not. -/
theorem createParent_again {t t' : FileTree} {path : String} {made : Bool}
    (h : t.createParent path = (t', made)) : t'.createParent path = (t', made) := by
  unfold createParent at h ⊢
  dsimp only at h ⊢
  split at h
  · rename_i hpath
    have hcurrent := current_makeDirectories t (t.start path) (steps path).dropLast
    rw [h] at hcurrent
    rw [if_pos hpath, start_eq hcurrent]
    exact makeDirectories_again h
  · rename_i hpath
    obtain ⟨rfl, rfl⟩ := Prod.mk.inj h
    rw [if_neg hpath]

/-- The names of a path that can name a file, with the last one apart. -/
theorem steps_eq_concat {path : String} (h : endsInDirectory path = false) :
    ∃ last, steps path = (steps path).dropLast ++ [last] := by
  have hne : steps path ≠ [] := by
    intro hnil
    rw [endsInDirectory] at h
    split at h
    · rename_i hlast
      rw [List.getLast?_eq_none_iff, Text.split, List.map_eq_nil_iff] at hlast
      exact Text.pieces_ne_nil _ _ hlast
    · rename_i last hlast
      -- no name is left, so the last piece of the path is empty or a point
      have hdropped := List.filter_eq_nil_iff.mp hnil last (List.mem_of_getLast? hlast)
      simp only [decide_eq_false_iff_not, Bool.or_eq_false_iff] at h
      simp only [Bool.and_eq_true, bne_iff_ne, not_and, ne_eq] at hdropped
      exact hdropped h.1.1 h.1.2
  exact ⟨_, (List.dropLast_concat_getLast hne).symm⟩

/-- Where the directories around a path could not be made, it names no file. -/
theorem fileExists_createParent {t t' : FileTree} {path : String} (h : t.fileExists path = false)
    (hmade : t.createParent path = (t', false)) : t'.fileExists path = false := by
  unfold createParent at hmade
  dsimp only at hmade
  split at hmade
  · have hcurrent := current_makeDirectories t (t.start path) (steps path).dropLast
    rw [hmade] at hcurrent
    have hsteps : steps path ≠ [] := by
      intro hnil
      rw [hnil] at hmade
      simp [makeDirectories] at hmade
    -- the path leads through the place where no directory could be made
    have hlost : t'.locate path = none := by
      rw [locate]
      split
      · rfl
      · rw [start_eq hcurrent, ← List.dropLast_concat_getLast hsteps]
        exact walk_makeDirectories hmade (by simp)
    simp [fileExists, find?, hlost]
  · obtain ⟨rfl, -⟩ := Prod.mk.inj hmade
    exact h

/-- A path that no file can be written at is not read either. -/
theorem readText?_of_writeFile? {t : FileTree} {path : String} {n : Node}
    (h : t.writeFile? path n = none) : t.readText? path = none := by
  rw [readText?]
  split
  · rename_i content hfind
    rw [find?] at hfind
    split at hfind
    · simp at hfind
    · split at hfind
      · simp at hfind
      · rename_i hfile hends
        rw [Bool.not_eq_true] at hends
        obtain ⟨place, hplace, hnode⟩ := Option.bind_eq_some_iff.mp hfind
        -- what is read stands in a directory and is a file, so it could be written over
        have hwritten : t.writeFile? path n = some (t.put place n) := by
          obtain ⟨last, hsteps⟩ := steps_eq_concat hends
          have hwalk : t.walk (t.start path) (steps path) = some place := by
            rw [locate] at hplace
            split at hplace
            · simp at hplace
            · exact hplace
          rw [hsteps] at hwalk
          obtain ⟨around, haround, hdir⟩ := isDirectory_of_walk_concat hwalk
          have hparent : t.parent path = some around := by
            rw [parent, haround]
            simp [hdir]
          have hplain : t.isDirectory place = false := by
            rw [isDirectory, hnode]
          rw [writeFile?, hparent, hplace]
          simp [hends, hplain]
        rw [hwritten] at h
        simp at h
  · rfl

-- ---------------------------------------------------------------------------
-- What is left at each place
-- ---------------------------------------------------------------------------

/-- The places that names lead through from a place, whatever stands there. -/
def passed (from_ : Place) : List String → List Place
  | [] => []
  | name :: rest =>
    let next := if name = ".." then from_.dropLast else from_ ++ [name]
    next :: passed next rest

/-- The places around what a path names. -/
def around (t : FileTree) (path : String) : List Place :=
  passed (t.start path) (steps path).dropLast

/-- A place keeps what it holds, or was missing, is one of these and holds a directory now. -/
def KeepsOrMakes (places : List Place) (t t' : FileTree) (q : Place) : Prop :=
  t'.node? q = t.node? q ∨
    t.node? q = none ∧ t'.node? q = some .directory ∧ q ∈ places

theorem KeepsOrMakes.mono {places more : List Place} (hsub : places ⊆ more) {t t' : FileTree}
    {q : Place} (h : KeepsOrMakes places t t' q) : KeepsOrMakes more t t' q :=
  h.imp id fun ⟨hnone, hmade, hmem⟩ => ⟨hnone, hmade, hsub hmem⟩

/-- Making directories fills missing places that the names lead through, and changes no others. -/
theorem node?_makeDirectories (t : FileTree) (from_ : Place) (names : List String) (q : Place) :
    KeepsOrMakes (passed from_ names) t (t.makeDirectories from_ names).1 q := by
  induction names generalizing t from_ with
  | nil => exact Or.inl rfl
  | cons name rest ih =>
    rw [makeDirectories, passed]
    split
    · exact (ih t from_.dropLast).mono (List.subset_cons_self _ _)
    · have hrest := fun t' : FileTree =>
        (ih t' (from_ ++ [name])).mono (List.subset_cons_self (from_ ++ [name]) _)
      dsimp only
      split
      · exact hrest t
      · exact Or.inl rfl
      · rename_i hnone
        split
        · by_cases hq : q = from_ ++ [name]
          · -- the directory that is made here stays whatever is made below it
            have hput : (t.put q .directory).isDirectory q = true :=
              isDirectory_iff.mpr (node?_put_self t (by simp [hq]) _)
            have hkept := isDirectory_makeDirectories hput (from_ ++ [name]) rest
            rw [hq] at hkept ⊢
            exact Or.inr ⟨hnone, isDirectory_iff.mp hkept, List.mem_cons_self⟩
          · have hput := node?_put_of_ne t hq .directory
            have hmade := hrest (t.put (from_ ++ [name]) .directory)
            rw [KeepsOrMakes, hput] at hmade
            exact hmade
        · exact Or.inl rfl

/-- Making the directories around a path fills missing places around it, and changes no others. -/
theorem node?_createParent (t : FileTree) (path : String) (q : Place) :
    KeepsOrMakes (t.around path) t (t.createParent path).1 q := by
  unfold createParent
  dsimp only
  split
  · exact node?_makeDirectories ..
  · exact Or.inl rfl

theorem current_createParent (t : FileTree) (path : String) :
    (t.createParent path).1.current = t.current := by
  unfold createParent
  dsimp only
  split
  · exact current_makeDirectories ..
  · rfl

/-- Making the directories around a path leaves those there are. -/
theorem isDirectory_createParent {t : FileTree} {q : Place} (hq : t.isDirectory q = true)
    (path : String) : (t.createParent path).1.isDirectory q = true := by
  unfold createParent
  dsimp only
  split
  · exact isDirectory_makeDirectories hq ..
  · exact hq

/-- What a path names is what stands at its place, unless it can only name a directory. -/
theorem node?_of_fileExists {t : FileTree} {path : String} {q : Place}
    (hends : endsInDirectory path = false) (hq : t.locate path = some q)
    (h : t.fileExists path = false) : t.node? q = none := by
  rw [fileExists, find?, hq, Option.bind_some] at h
  split at h
  · simp at h
  · rw [hends] at h
    simpa using h

-- ---------------------------------------------------------------------------
-- Directories that are there
-- ---------------------------------------------------------------------------

/-- Names are followed from directories only, unless nothing is followed. -/
theorem isDirectory_of_walk {t : FileTree} {from_ q : Place} {names : List String}
    (h : t.walk from_ names = some q) (hq : t.isDirectory q = true) :
    t.isDirectory from_ = true := by
  cases names with
  | nil => rwa [Option.some.inj h]
  | cons name rest =>
    by_contra hfile
    rw [walk, if_pos (by simp [hfile])] at h
    cases h

/-- The places that names lead through to a directory are directories, and none is made. -/
theorem makeDirectories_of_walk {t : FileTree} {from_ q : Place} {names : List String}
    (h : t.walk from_ names = some q) (hq : t.isDirectory q = true) :
    (∀ p ∈ passed from_ names, t.isDirectory p = true) ∧
      t.makeDirectories from_ names = (t, true) := by
  induction names generalizing from_ with
  | nil => exact ⟨fun p hp => absurd hp List.not_mem_nil, rfl⟩
  | cons name rest ih =>
    rw [walk] at h
    rw [passed, List.forall_mem_cons, makeDirectories]
    split at h
    · cases h
    · -- each step starts in a directory, since the steps behind it lead to one
      by_cases hup : name = ".."
      · rw [if_pos hup] at h
        rw [if_pos hup, if_pos hup]
        exact ⟨⟨isDirectory_of_walk h hq, (ih h).1⟩, (ih h).2⟩
      · rw [if_neg hup] at h
        rw [if_neg hup, if_neg hup]
        dsimp only
        rw [isDirectory_iff.mp (isDirectory_of_walk h hq)]
        exact ⟨⟨isDirectory_of_walk h hq, (ih h).1⟩, (ih h).2⟩

theorem parent_isSome_iff {t : FileTree} {path : String} : (t.parent path).isSome = true ↔
    ∃ q, t.walk (t.start path) (steps path).dropLast = some q ∧ t.isDirectory q = true := by
  rw [parent, Option.isSome_iff_exists]
  simp only [Option.filter_eq_some_iff]

/-- Then all places around the path are directories. -/
theorem isDirectory_of_mem_around {t : FileTree} {path : String}
    (h : (t.parent path).isSome = true) {p : Place} (hp : p ∈ t.around path) :
    t.isDirectory p = true := by
  obtain ⟨q, hwalk, hq⟩ := parent_isSome_iff.mp h
  exact (makeDirectories_of_walk hwalk hq).1 p hp

/-- Where the directories around a path are there, none is made; whether they can be asked for is a
matter of the text alone. -/
theorem createParent_of_parent {t : FileTree} {path : String} (h : (t.parent path).isSome = true) :
    t.createParent path = (t, isPath ("/".intercalate (steps path).dropLast)) := by
  obtain ⟨q, hwalk, hq⟩ := parent_isSome_iff.mp h
  rw [createParent, (makeDirectories_of_walk hwalk hq).2]
  split
  · rename_i hpath
    rw [hpath]
  · rename_i hpath
    rw [Bool.eq_false_iff.mpr hpath]

/-- Below a directory that is there a path leads to the same place in all trees that keep the
directories. -/
theorem locate_of_parent {t t' : FileTree} (hcurrent : t'.current = t.current)
    (hkept : ∀ p, t.isDirectory p = true → t'.isDirectory p = true) {path : String}
    (h : (t.parent path).isSome = true) : t'.locate path = t.locate path := by
  obtain ⟨around, hwalk, hdir⟩ := parent_isSome_iff.mp h
  rw [locate, locate, start_eq hcurrent]
  rcases List.eq_nil_or_concat (steps path) with hnil | ⟨names, last, hsteps⟩
  · rw [hnil]
    rfl
  · rw [hsteps, List.concat_eq_append, List.dropLast_concat] at hwalk
    -- the last name is followed from the same directory in both trees
    have hlast : t'.walk around [last] = t.walk around [last] := by
      simp only [walk, hdir, hkept around hdir]
    rw [hsteps, List.concat_eq_append, walk_append, walk_append, hwalk,
      walk_of_isDirectory hkept hwalk, Option.bind_some, Option.bind_some, hlast]

-- ---------------------------------------------------------------------------
-- Paths without double points
-- ---------------------------------------------------------------------------

/-- Whatever stands somewhere stands in a directory. -/
def Closed (t : FileTree) : Prop :=
  ∀ p n, p ≠ [] → t.node? p = some n → t.isDirectory p.dropLast = true

/-- Everything above a place that holds something is a directory. -/
theorem Closed.isDirectory {t : FileTree} (h : t.Closed) {p below : Place} (hbelow : below ≠ [])
    {n : Node} (hn : t.node? (p ++ below) = some n) : t.isDirectory p = true := by
  -- upwards from the place that holds something
  induction below using List.reverseRecOn generalizing n with
  | nil => exact absurd rfl hbelow
  | append_singleton above last ih =>
    have habove := h (p ++ (above ++ [last])) n (by simp) hn
    rw [← List.append_assoc, List.dropLast_concat] at habove
    by_cases hnil : above = []
    · rwa [hnil, List.append_nil] at habove
    · exact ih hnil (isDirectory_iff.mp habove)

/-- Without double points names lead downwards only. -/
theorem walk_eq_append {t : FileTree} {from_ q : Place} {names : List String}
    (hdots : ".." ∉ names) (h : t.walk from_ names = some q) : q = from_ ++ names := by
  induction names generalizing from_ with
  | nil => rw [List.append_nil, Option.some.inj h]
  | cons name rest ih =>
    rw [List.mem_cons, not_or] at hdots
    rw [walk] at h
    split at h
    · simp at h
    · rw [if_neg (Ne.symm hdots.1)] at h
      rw [ih hdots.2 h, List.append_assoc, List.singleton_append]

/-- Names that lead to a place in a tree with more directories lead there before, if something
stands there already. -/
theorem walk_of_closed {t t' : FileTree} (hclosed : t.Closed) {from_ q : Place}
    {names : List String} (hdots : ".." ∉ names) (h : t'.walk from_ names = some q) {n : Node}
    (hn : t.node? q = some n) : t.walk from_ names = some q := by
  rw [walk_eq_append hdots h] at hn
  induction names generalizing from_ with
  | nil => exact h
  | cons name rest ih =>
    -- the place stands below, so the names start in a directory
    have hdir : t.isDirectory from_ = true := hclosed.isDirectory (by simp) hn
    rw [List.mem_cons, not_or] at hdots
    rw [walk] at h ⊢
    split at h
    · simp at h
    · rename_i hguard
      simp only [Bool.or_eq_true, not_or, Bool.not_eq_eq_eq_not, Bool.not_true,
        Bool.not_eq_false] at hguard
      rw [if_neg (Ne.symm hdots.1)] at h
      rw [if_neg (by simp [hdir, hguard.2]), if_neg (Ne.symm hdots.1)]
      rw [List.append_cons] at hn
      exact ih hdots.2 h hn

/-- If a path without double points leads to a place once directories are made, it leads there
before if anything stands there. -/
theorem locate_of_closed {t t' : FileTree} (hclosed : t.Closed) (hcurrent : t'.current = t.current)
    {path : String} (hdots : ".." ∉ steps path) {q : Place} (h : t'.locate path = some q) {n : Node}
    (hn : t.node? q = some n) : t.locate path = some q := by
  unfold locate at h ⊢
  split at h
  · simp at h
  · rename_i hpath
    rw [start_eq hcurrent] at h
    rw [if_neg hpath]
    exact walk_of_closed hclosed hdots h hn

end DocStore.FileTree
