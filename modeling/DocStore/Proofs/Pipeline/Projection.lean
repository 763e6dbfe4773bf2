import DocStore.Proofs.Fields
import DocStore.Proofs.Pipeline.Grammar
import DocStore.Proofs.Pipeline.Sorting
/-!
# Kept fields

A projection writes a field under the name it was given, and every later stage but a filter reads
that name as a path. Where a path starts with a name that was kept as well, it leads to what it led
to before. Where it does not, it leads nowhere: a field kept as `a.b` is an entry of that name, and
there is no entry `a` to follow. So a second projection of the same names may lose fields of the
first, a third one loses no more, and nothing at all is lost exactly if every name that has a value
starts with a name that is kept.

* `Path.names_eq`, `Path.names_first`: a path and the name it starts with.
* `lookup_kept`, `get?_kept`: what is found in a projected record, by a path and by a name.
* `kept_kept`, `kept_kept_kept`: the second projection and the third.
* `keeping_again`: projecting records several times.
-/

namespace DocStore

namespace Path

variable {path name : String}

/-- The name that a path starts with. -/
def first (path : String) : String := (names path).headD ""

theorem names_eq (path : String) : names path = first path :: (names path).tail := by
  have hne : names path ≠ [] := List.map_eq_nil_iff.not.mpr (Text.pieces_ne_nil _ _)
  rw [first, List.headD_eq_head?_getD, List.head?_eq_some_head hne, Option.getD_some,
    List.cons_head_tail]

theorem names_of_not_mem (h : '.' ∉ name.toList) : names name = [name] := by
  rw [names, Text.split, Text.pieces_of_not_mem h, List.map_singleton, String.ofList_toList]

theorem first_of_not_mem (h : '.' ∉ name.toList) : first name = name := by
  rw [first, names_of_not_mem h, List.headD_cons]

/-- A name along a path is a path of that name alone. -/
theorem names_first (path : String) : names (first path) = [first path] := by
  have hmem : first path ∈ names path := by
    rw [names_eq path]
    exact List.mem_cons_self
  obtain ⟨piece, hpiece, heq⟩ := List.mem_map.mp hmem
  refine names_of_not_mem ?_
  rw [← heq, String.toList_ofList]
  exact Text.not_mem_of_mem_pieces hpiece

end Path

namespace Record

variable {r : Record} {params : Fields Json}

/-- A path is looked up by its first name, and the rest is followed from there. -/
theorem lookup_eq (r : Record) (path : String) :
    r.lookup path =
      (Fields.get? r (Path.first path)).bind fun v => Path.follow v (Path.names path).tail := by
  rw [lookup, Path.names_eq path]
  rfl

theorem lookup_first (r : Record) (path : String) :
    r.lookup (Path.first path) = Fields.get? r (Path.first path) := by
  rw [lookup, Path.names_first]
  exact Option.bind_fun_some _

/-- The record with the fields that the members name, each under its own name. -/
def kept (r : Record) (params : Fields Json) : Record := r.project (params.map fun m => (m.1, m.1))

/-- Every name that leads to a value is kept under itself. -/
theorem kept_eq (h : Fields.Distinct params) :
    r.kept params = params.filterMap fun m => (r.lookup m.1).map fun v => (m.1, v) := by
  have hnames := Fields.names_filterMap params fun name _ => r.lookup name
  rw [kept, project, List.filterMap_map]
  exact Fields.ofPairs_of_distinct (hnames.nodup h)

-- ---------------------------------------------------------------------------
-- What is found in a projected record
-- ---------------------------------------------------------------------------

/-- A field is written under its own name. -/
theorem get?_kept (h : Fields.Distinct params) (name : String) :
    Fields.get? (r.kept params) name =
      if name ∈ Fields.names params then r.lookup name else none := by
  rw [kept_eq h, Fields.get?_filterMap h fun name _ => r.lookup name]
  split
  · rename_i hmem
    obtain ⟨v, hv⟩ := Option.isSome_iff_exists.mp (Fields.has_iff_mem_names.mpr hmem)
    rw [hv, Option.bind_some]
  · rename_i hmem
    rw [Fields.get?_eq_none_iff.mpr hmem, Option.bind_none]

/-- A path leads on if it starts with a name that was kept. -/
theorem lookup_kept (h : Fields.Distinct params) (path : String) :
    (r.kept params).lookup path =
      if Path.first path ∈ Fields.names params then r.lookup path else none := by
  rw [lookup_eq, get?_kept h, lookup_first]
  split
  · exact (lookup_eq r path).symm
  · rfl

-- ---------------------------------------------------------------------------
-- Projecting again
-- ---------------------------------------------------------------------------

/-- A second projection leaves out the fields whose names do not start with a kept one. -/
theorem kept_kept (h : Fields.Distinct params) (r : Record) :
    (r.kept params).kept params =
      (r.kept params).filter fun e => Path.first e.1 ∈ Fields.names params := by
  -- a member finds its field again exactly if the name it starts with was kept
  have hfield (m : String × Json) :
      ((r.kept params).lookup m.1).map (fun v => (m.1, v)) =
        ((r.lookup m.1).map fun v => (m.1, v)).filter
          fun e => Path.first e.1 ∈ Fields.names params := by
    rw [lookup_kept h]
    split
    · rename_i hmem
      cases r.lookup m.1 with
      | none => rfl
      | some v => exact (Option.filter_some_pos (by simpa using hmem)).symm
    · rename_i hmem
      cases r.lookup m.1 with
      | none => rfl
      | some v => exact (Option.filter_some_neg (by simpa using hmem)).symm
  calc (r.kept params).kept params
      = params.filterMap fun m => ((r.kept params).lookup m.1).map fun v => (m.1, v) := kept_eq h
    _ = params.filterMap fun m => ((r.lookup m.1).map fun v => (m.1, v)).filter
          fun e => Path.first e.1 ∈ Fields.names params := List.filterMap_congr fun m _ => hfield m
    _ = (r.kept params).filter fun e => Path.first e.1 ∈ Fields.names params := by
        rw [← List.filter_filterMap, ← kept_eq h]

/-- **A third projection loses no more.** -/
theorem kept_kept_kept (h : Fields.Distinct params) (r : Record) :
    ((r.kept params).kept params).kept params = (r.kept params).kept params := by
  rw [kept_kept h (r.kept params), kept_kept h r, List.filter_filter]
  simp only [Bool.and_self]

/-- **A second projection loses nothing** exactly if each name with a value starts with a kept
one. -/
theorem kept_kept_eq_iff (h : Fields.Distinct params) :
    (r.kept params).kept params = r.kept params ↔
      ∀ name ∈ Fields.names params, (r.lookup name).isSome →
        Path.first name ∈ Fields.names params := by
  rw [kept_kept h, List.filter_eq_self]
  simp only [decide_eq_true_eq]
  constructor
  · intro hall name hname hsome
    obtain ⟨v, hv⟩ := Option.isSome_iff_exists.mp hsome
    refine hall (name, v) (Fields.mem_of_get? ?_)
    rw [get?_kept h, if_pos hname, hv]
  · intro hall e he
    rw [kept_eq h] at he
    obtain ⟨m, hm, heq⟩ := List.mem_filterMap.mp he
    obtain ⟨v, hv, rfl⟩ := Option.map_eq_some_iff.mp heq
    exact hall m.1 (List.mem_map_of_mem hm) (hv ▸ rfl)

end Record

namespace Stage

variable {params : Fields Json}

/-- The stage that keeps the fields of the members' names. -/
def keeping (params : Fields Json) : Stage := project (params.map fun m => (m.1, m.1))

/-- Every member keeps its field. -/
def Keeps (params : Fields Json) : Prop :=
  ∀ m ∈ params, m.2 = .bool true ∨ ∃ x, m.2 = .number x ∧ x.IsWhole 1

/-- The description of kept fields is decoded to the stage that keeps them. -/
theorem decode_keeping (h : Keeps params) :
    decode (.object [("$project", .object params)]) = .ok (keeping params) := by
  have hprojects : Projects params (params.map fun m => (m.1, m.1)) := by
    induction params with
    | nil => exact .nil
    | cons m rest ih =>
      obtain ⟨name, v⟩ := m
      have hrest := ih fun m hm => h m (List.mem_cons_of_mem _ hm)
      -- ⟨x, rfl, hx⟩ := h | true or one, in either form
      obtain rfl | ⟨x, rfl, hx⟩ := h (name, v) List.mem_cons_self
      · exact .take (.kept name) hrest
      · exact .take (.one hx) hrest
  exact decode_of_describes (.project hprojects)

theorem applyAll_keeping (params : Fields Json) (records : List Record) (source : WordSource) :
    applyAll [keeping params] records source = (records.map fun r => r.kept params, source) := rfl

/-- All runs but the first are alike. -/
theorem applyAll_keeping_again (h : Fields.Distinct params) (n : ℕ) (records : List Record)
    (source : WordSource) :
    applyAll (List.replicate (n + 2) (keeping params)) records source =
      (records.map fun r => (r.kept params).kept params, source) := by
  induction n with
  | zero =>
    rw [List.replicate_succ', applyAll_append, List.replicate_one, applyAll_keeping,
      applyAll_keeping, List.map_map]
    rfl
  | succ n ih =>
    rw [List.replicate_succ', applyAll_append, ih, applyAll_keeping, List.map_map]
    exact congrArg (·, source) (List.map_congr_left fun r _ => Record.kept_kept_kept h r)

/-- **Keeping fields again.** What a later stage finds in a record whose fields were kept, by a path
and, in a filter, by a name. A second run leaves out the fields whose names do not start with a kept
name, further runs change nothing, and the second run changes nothing either exactly if every kept
name that leads to a value in some record starts with a kept name, as every name without a point
does. -/
theorem keeping_again (hdistinct : Fields.Distinct params) (hkeeps : Keeps params) :
    decode (.object [("$project", .object params)]) = .ok (keeping params) ∧
    (∀ (r : Record) (path : String),
      (r.kept params).lookup path =
        if Path.first path ∈ Fields.names params then r.lookup path else none) ∧
    (∀ (r : Record) (name : String),
      Fields.get? (r.kept params) name =
        if name ∈ Fields.names params then r.lookup name else none) ∧
    ∀ (records : List Record) (source : WordSource),
      applyAll [keeping params] records source =
        (records.map fun r => r.kept params, source) ∧
      (∀ n, applyAll (List.replicate (n + 2) (keeping params)) records source =
        (records.map fun r =>
          (r.kept params).filter fun e => Path.first e.1 ∈ Fields.names params, source)) ∧
      (applyAll [keeping params, keeping params] records source =
          applyAll [keeping params] records source ↔
        ∀ r ∈ records, ∀ name ∈ Fields.names params, (r.lookup name).isSome →
          Path.first name ∈ Fields.names params) ∧
      ((∀ name ∈ Fields.names params, '.' ∉ name.toList) →
        applyAll [keeping params, keeping params] records source =
          applyAll [keeping params] records source) := by
  refine ⟨decode_keeping hkeeps, fun r => Record.lookup_kept hdistinct,
    fun r => Record.get?_kept hdistinct, fun records source => ?_⟩
  have honce := applyAll_keeping params records source
  have hagain (n : ℕ) := applyAll_keeping_again hdistinct n records source
  have hsame : applyAll [keeping params, keeping params] records source =
        applyAll [keeping params] records source ↔
      ∀ r ∈ records, ∀ name ∈ Fields.names params, (r.lookup name).isSome →
        Path.first name ∈ Fields.names params := by
    have htwo : applyAll [keeping params, keeping params] records source =
        (records.map fun r => (r.kept params).kept params, source) := hagain 0
    rw [htwo, honce, Prod.mk.injEq, and_iff_left rfl, List.map_inj_left]
    exact forall₂_congr fun r _ => Record.kept_kept_eq_iff hdistinct
  refine ⟨honce, fun n => ?_, hsame, fun hplain => hsame.mpr fun r _ name hname _ => ?_⟩
  · rw [hagain n]
    exact congrArg (·, source) (List.map_congr_left fun r _ => Record.kept_kept hdistinct r)
  · -- a name without dots starts with itself, and it is kept
    rw [Path.first_of_not_mem (hplain name hname)]
    exact hname

namespace Sample

/-- Keeps a field of an inner object, and a field. -/
def inner : Fields Json := [("a.b", .int 1), ("c", .bool true)]

/-- A record with both. -/
def nested : Record := [("a", .object [("b", .int 1)]), ("c", .int 2)]

theorem distinct_inner : Fields.Distinct inner := by
  simp [Fields.Distinct, Fields.names, inner]

/-- Both members keep their fields. -/
theorem keeps_inner : Keeps inner := by
  intro m hm
  simp only [inner, List.mem_cons, List.not_mem_nil, or_false] at hm
  obtain rfl | rfl := hm
  · exact .inr ⟨.int 1, rfl, rfl⟩
  · exact .inl rfl

end Sample

/-- The second run loses the field of the inner object. -/
theorem keeping_again_inner :
    applyAll [keeping Sample.inner] [Sample.nested] (.cycling []) =
        ([[("a.b", .int 1), ("c", .int 2)]], .cycling []) ∧
      applyAll [keeping Sample.inner, keeping Sample.inner] [Sample.nested] (.cycling []) =
        ([[("c", .int 2)]], .cycling []) := by
  obtain ⟨-, -, -, hruns⟩ := keeping_again Sample.distinct_inner Sample.keeps_inner
  obtain ⟨honce, hagain, -, -⟩ := hruns [Sample.nested] (.cycling [])
  exact ⟨honce, hagain 0⟩

end Stage

end DocStore
