import DocStore.Config
import DocStore.Proofs.FileTree
/-!
# Files directly in a directory

The path of a file in a directory leads through the directory to the file's name, whether or not
the directory's path ends in a slash. What a path leads to is told by its text and the working
directory alone; the tree only says whether it can be followed.

* `FileTree.eq_place_of_locate`: the place that a path leads to in every tree.
* `Config.steps_join`, `Config.place_join`: a file directly in a directory.
-/

namespace DocStore

namespace FileTree

-- ---------------------------------------------------------------------------
-- The names in a path
-- ---------------------------------------------------------------------------

/-- The name of a file as it may stand in a path. -/
structure IsFileName (name : String) : Prop where
  noSlash : '/' ∉ name.toList
  ne_empty : name ≠ ""
  ne_point : name ≠ "."
  ne_points : name ≠ ".."

theorem steps_append (a b : List Char) :
    steps (String.ofList (a ++ '/' :: b)) = steps (String.ofList a) ++ steps (String.ofList b) := by
  simp only [steps, Text.split, String.toList_ofList]
  rw [Text.pieces_append, List.map_append, List.filter_append]

theorem steps_of_isFileName {name : String} (h : IsFileName name) : steps name = [name] := by
  rw [steps, Text.split, Text.pieces_of_not_mem h.noSlash, List.map_singleton,
    String.ofList_toList]
  exact List.filter_cons_of_pos (by simp [h.ne_empty, h.ne_point])

-- ---------------------------------------------------------------------------
-- The place that a path leads to
-- ---------------------------------------------------------------------------

/-- The place that names lead to from a place, whatever stands there. -/
def followed (from_ : Place) : List String → Place
  | [] => from_
  | name :: rest => followed (if name = ".." then from_.dropLast else from_ ++ [name]) rest

/-- The place that a path leads to, if it can be followed. -/
def place (t : FileTree) (path : String) : Place := followed (t.start path) (steps path)

/-- Following names in two rows is following them in one. -/
theorem followed_append (from_ : Place) (a b : List String) :
    followed from_ (a ++ b) = followed (followed from_ a) b := by
  induction a generalizing from_ with
  | nil => rfl
  | cons name rest ih => exact ih _

/-- Names that can be followed lead where their text says. -/
theorem eq_followed_of_walk {t : FileTree} {from_ q : Place} {names : List String}
    (h : t.walk from_ names = some q) : q = followed from_ names := by
  induction names generalizing from_ with
  | nil => exact (Option.some.inj h).symm
  | cons name rest ih =>
    rw [walk] at h
    rw [followed]
    split at h
    · cases h
    · split at h
      · rename_i hup
        rw [if_pos hup]
        exact ih h
      · rename_i hdown
        rw [if_neg hdown]
        exact ih h

/-- **A path leads to its place or to none.** -/
theorem eq_place_of_locate {t : FileTree} {path : String} {q : Place}
    (h : t.locate path = some q) : q = t.place path := by
  unfold locate at h
  split at h
  · cases h
  · exact eq_followed_of_walk h

end FileTree

namespace Config

open FileTree (IsFileName)

variable {name : String}

theorem head?_of_isFileName (h : IsFileName name) : name.toList.head? ≠ some '/' := by
  intro hslash
  exact h.noSlash (List.mem_of_head? hslash)

/-- A path to a file in a directory, as characters. -/
theorem join_cases (dir : String) (h : IsFileName name) :
    (dir = "" ∧ join dir name = name) ∨
      (∃ before, dir.toList = before ++ ['/'] ∧
        join dir name = String.ofList (before ++ '/' :: name.toList)) ∨
      dir ≠ "" ∧ join dir name = String.ofList (dir.toList ++ '/' :: name.toList) := by
  rw [join, if_neg (head?_of_isFileName h)]
  by_cases hempty : dir = ""
  · rw [if_pos (.inl hempty), hempty, String.empty_append]
    exact .inl ⟨rfl, rfl⟩
  · by_cases hslash : dir.toList.getLast? = some '/'
    · rw [if_pos (.inr hslash)]
      obtain ⟨before, hbefore⟩ := List.getLast?_eq_some_iff.mp hslash
      refine .inr (.inl ⟨before, hbefore, ?_⟩)
      apply String.toList_injective
      rw [String.toList_append, String.toList_ofList, hbefore, List.append_assoc,
        List.singleton_append]
    · rw [if_neg (not_or.mpr ⟨hempty, hslash⟩)]
      refine .inr (.inr ⟨hempty, ?_⟩)
      apply String.toList_injective
      have hchars : "/".toList = ['/'] := by decide
      rw [String.toList_append, String.toList_append, hchars, String.toList_ofList,
        List.append_assoc, List.singleton_append]

/-- **The names in the path of a file in a directory** are those of the directory, and its own. -/
theorem steps_join (dir : String) (h : IsFileName name) :
    FileTree.steps (join dir name) = FileTree.steps dir ++ [name] := by
  have hname := FileTree.steps_of_isFileName h
  rcases join_cases dir h with ⟨rfl, hjoin⟩ | ⟨before, hbefore, hjoin⟩ | ⟨-, hjoin⟩
  · rw [hjoin, hname]
    rfl
  · -- the slash at the end of the directory adds no name
    have hdir : FileTree.steps dir = FileTree.steps (String.ofList before) := by
      rw [← String.ofList_toList (s := dir), hbefore, FileTree.steps_append]
      exact List.append_nil _
    rw [hjoin, FileTree.steps_append, String.ofList_toList, hname, hdir]
  · rw [hjoin, FileTree.steps_append, String.ofList_toList, String.ofList_toList, hname]

/-- A file in a directory is looked for from where the directory is. -/
theorem start_join (t : FileTree) (dir : String) (h : IsFileName name) :
    t.start (join dir name) = t.start dir := by
  -- both paths start with a slash or neither does
  have hhead : (join dir name).toList.head? = some '/' ↔ dir.toList.head? = some '/' := by
    rcases join_cases dir h with ⟨rfl, hjoin⟩ | ⟨before, hbefore, hjoin⟩ | ⟨hne, hjoin⟩
    · rw [hjoin]
      exact iff_of_false (head?_of_isFileName h) (by simp)
    · rw [hjoin, hbefore, String.toList_ofList]
      cases before <;> simp
    · rw [hjoin, String.toList_ofList]
      cases hdir : dir.toList with
      | nil => exact absurd (String.toList_eq_nil_iff.mp hdir) hne
      | cons c rest => simp
  unfold FileTree.start
  simp only [hhead]

/-- **A file in a directory stands directly below the directory's place.** -/
theorem place_join (t : FileTree) (dir : String) (h : IsFileName name) :
    t.place (join dir name) = t.place dir ++ [name] := by
  rw [FileTree.place, start_join t dir h, steps_join dir h, FileTree.followed_append]
  exact if_neg h.ne_points

/-- The directory around a file is the same for all files in it. -/
theorem parent_join (t : FileTree) (dir : String) (h : IsFileName name) :
    t.parent (join dir name) =
      (t.walk (t.start dir) (FileTree.steps dir)).filter t.isDirectory := by
  rw [FileTree.parent, start_join t dir h, steps_join dir h, List.dropLast_concat]

-- ---------------------------------------------------------------------------
-- The files of collections
-- ---------------------------------------------------------------------------

/-- Different files of one directory have different paths. -/
theorem join_injective {other : String} (dir : String) (h : IsFileName name)
    (hother : IsFileName other) (heq : join dir name = join dir other) : name = other := by
  have hsteps := steps_join dir h
  rw [heq, steps_join dir hother, List.append_cancel_left_eq] at hsteps
  exact (List.cons.inj hsteps).1.symm

end Config

end DocStore
