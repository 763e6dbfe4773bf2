import Mathlib.Data.List.Perm.Subperm
import DocStore.Fields
/-!
# Looking up and writing entries

What a look-up answers after entries are written, appended or filtered, and when a list of entries
is the list that writing them in turn gives.

* `mem_iff_get?`: of distinct names, looking up is membership.
* `get?_merge`: what is found once entries are written over others.
* `ofPairs_of_distinct`: entries of distinct names are written as they stand.
* `names_ofPairs`, `get?_ofPairs`: which of several entries of one name stay, and where.
-/

namespace DocStore.Fields

variable {α : Type}

-- ---------------------------------------------------------------------------
-- Looking up
-- ---------------------------------------------------------------------------

theorem get?_nil (name : String) : get? ([] : Fields α) name = none := rfl

theorem get?_cons_self (name : String) (v : α) (rest : Fields α) :
    get? ((name, v) :: rest) name = some v := by
  simp [get?]

theorem get?_cons_of_ne {name other : String} (h : name ≠ other) (v : α) (rest : Fields α) :
    get? ((other, v) :: rest) name = get? rest name := by
  have hb : (name == other) = false := by simp [h]
  simp [get?, List.lookup_cons, hb]

/-- What is found under a name is an entry. -/
theorem mem_of_get? {fields : Fields α} {name : String} {v : α} (h : get? fields name = some v) :
    (name, v) ∈ fields := by
  induction fields with
  | nil => simp [get?_nil] at h
  | cons e rest ih =>
    obtain ⟨n, w⟩ := e
    by_cases hn : name = n
    · subst hn
      rw [get?_cons_self] at h
      rw [Option.some.inj h]
      exact List.mem_cons_self
    · rw [get?_cons_of_ne hn] at h
      exact List.mem_cons_of_mem _ (ih h)

theorem mem_names_of_get? {fields : Fields α} {name : String} {v : α}
    (h : get? fields name = some v) : name ∈ names fields := by
  have hmem : (name, v).1 ∈ names fields := List.mem_map_of_mem (mem_of_get? h)
  exact hmem

/-- Nothing is found exactly under the names that no entry has. -/
theorem get?_eq_none_iff {fields : Fields α} {name : String} :
    get? fields name = none ↔ name ∉ names fields := by
  induction fields with
  | nil => simp [get?_nil, names]
  | cons e rest ih =>
    obtain ⟨n, w⟩ := e
    by_cases hn : name = n
    · subst hn
      simp [get?_cons_self, names]
    · rw [get?_cons_of_ne hn, ih]
      simp [names, hn]

/-- **Of distinct names, looking up is membership.** -/
theorem mem_iff_get? {fields : Fields α} (hd : Distinct fields) {name : String} {v : α} :
    (name, v) ∈ fields ↔ get? fields name = some v := by
  refine ⟨fun hmem => ?_, mem_of_get?⟩
  induction fields with
  | nil => simp at hmem
  | cons e rest ih =>
    obtain ⟨n, w⟩ := e
    simp only [Distinct, names, List.map_cons, List.nodup_cons] at hd
    rcases List.mem_cons.mp hmem with heq | hrest
    · rw [Prod.mk.injEq] at heq
      rw [heq.1, heq.2, get?_cons_self]
    · -- a second entry of the first name would repeat it
      have hne : name ≠ n := by
        rintro rfl
        exact hd.1 (List.mem_map_of_mem hrest)
      rw [get?_cons_of_ne hne]
      exact ih hd.2 hrest

/-- Of two rows of entries the first is searched first. -/
theorem get?_append (a b : Fields α) (name : String) :
    get? (a ++ b) name = (get? a name).or (get? b name) := by
  induction a with
  | nil => simp [get?_nil]
  | cons e rest ih =>
    obtain ⟨n, w⟩ := e
    by_cases hn : name = n
    · subst hn
      simp [get?_cons_self]
    · rw [List.cons_append, get?_cons_of_ne hn, get?_cons_of_ne hn, ih]

/-- Filtering by name leaves the look-up of a name that is kept. -/
theorem get?_filter_of_pos {p : String → Bool} {name : String} (h : p name = true)
    (fields : Fields α) : get? (fields.filter fun e => p e.1) name = get? fields name := by
  induction fields with
  | nil => rfl
  | cons e rest ih =>
    obtain ⟨n, w⟩ := e
    by_cases hn : name = n
    · subst hn
      rw [List.filter_cons, if_pos h, get?_cons_self, get?_cons_self]
    · rw [get?_cons_of_ne hn, List.filter_cons]
      split
      · rw [get?_cons_of_ne hn, ih]
      · exact ih

/-- Filtering by name drops the entries of a name that is not kept. -/
theorem get?_filter_of_neg {p : String → Bool} {name : String} (h : p name = false)
    (fields : Fields α) : get? (fields.filter fun e => p e.1) name = none := by
  rw [get?_eq_none_iff]
  intro hmem
  obtain ⟨e, he, rfl⟩ := List.mem_map.mp hmem
  have := (List.mem_filter.mp he).2
  rw [h] at this
  exact absurd this (by decide)

theorem distinct_filter {fields : Fields α} (h : Distinct fields) (p : String × α → Bool) :
    Distinct (fields.filter p) :=
  List.Sublist.nodup (List.Sublist.map Prod.fst List.filter_sublist) h

/-- Of distinct names, an entry that is worked out from another is found under its name. -/
theorem get?_filterMap {β : Type} {fields : Fields α} (h : Distinct fields)
    (f : String → α → Option β) (name : String) :
    get? (fields.filterMap fun e => (f e.1 e.2).map fun v => (e.1, v)) name =
      (get? fields name).bind (f name) := by
  induction fields with
  | nil => rfl
  | cons e rest ih =>
    obtain ⟨n, w⟩ := e
    simp only [Distinct, names, List.map_cons, List.nodup_cons] at h
    by_cases hn : name = n
    · subst hn
      rw [get?_cons_self, Option.bind_some, List.filterMap_cons]
      cases hf : f name w with
      | none =>
        have hrest := ih h.2
        -- the name does not occur again, so nothing is found behind the entry that is left out
        rw [get?_eq_none_iff.mpr h.1, Option.bind_none] at hrest
        rw [Option.map_none]
        exact hrest
      | some v => exact get?_cons_self ..
    · rw [get?_cons_of_ne hn, ← ih h.2, List.filterMap_cons]
      cases f n w with
      | none => rfl
      | some v => exact get?_cons_of_ne hn ..

/-- A value that is worked out from another is found under its name. -/
theorem get?_map {β : Type} (fields : Fields α) (f : α → β) (name : String) :
    get? (fields.map fun e => (e.1, f e.2)) name = (get? fields name).map f := by
  induction fields with
  | nil => rfl
  | cons e rest ih =>
    obtain ⟨n, w⟩ := e
    rw [List.map_cons]
    by_cases hn : name = n
    · subst hn
      rw [get?_cons_self, get?_cons_self, Option.map_some]
    · rw [get?_cons_of_ne hn, get?_cons_of_ne hn, ih]

theorem names_map {β : Type} (fields : Fields α) (f : α → β) :
    names (fields.map fun e => (e.1, f e.2)) = names fields := by
  rw [names, names, List.map_map]
  rfl

/-- Leaving entries out leaves the names of the others in their order. -/
theorem names_filterMap {β : Type} (fields : Fields α) (f : String → α → Option β) :
    (names (fields.filterMap fun e => (f e.1 e.2).map fun v => (e.1, v))).Sublist
      (names fields) := by
  induction fields with
  | nil => exact List.Sublist.refl _
  | cons e rest ih =>
    rw [List.filterMap_cons]
    cases f e.1 e.2 with
    | none => exact ih.cons _
    | some v => exact ih.cons_cons _

theorem has_iff_mem_names {fields : Fields α} {name : String} :
    has fields name = true ↔ name ∈ names fields := by
  rw [has, ← not_iff_not, Bool.not_eq_true, Option.isSome_eq_false_iff, Option.isNone_iff_eq_none,
    get?_eq_none_iff]

/-- Names that stand in the order of others are those of them that there are. -/
theorem names_eq_filter {β : Type} {part : Fields β} {fields : Fields α} (hd : Distinct fields)
    (h : (names part).Sublist (names fields)) :
    names part = (names fields).filter fun name => has part name := by
  have hall : (names part).filter (fun name => has part name) = names part :=
    List.filter_eq_self.mpr fun _ => has_iff_mem_names.mpr
  have hsub := h.filter fun name => has part name
  rw [hall] at hsub
  -- one is a part of the other, so they are equal as soon as they are as long
  refine hsub.eq_of_length_le (List.Subperm.length_le (List.subperm_of_subset (hd.filter _) ?_))
  intro name hname
  exact has_iff_mem_names.mp (List.mem_filter.mp hname).2

-- ---------------------------------------------------------------------------
-- Writing
-- ---------------------------------------------------------------------------

/-- What holds of all values still holds of them after one more of them is written. -/
theorem forall_set {P : α → Prop} {fields : Fields α} (h : ∀ e ∈ fields, P e.2) {name : String}
    {v : α} (hv : P v) : ∀ e ∈ set fields name v, P e.2 := by
  induction fields with
  | nil =>
    intro e he
    rw [set, List.mem_singleton] at he
    exact he ▸ hv
  | cons e rest ih =>
    obtain ⟨n, w⟩ := e
    have hrest : ∀ e ∈ rest, P e.2 := fun e he => h e (List.mem_cons_of_mem _ he)
    intro e he
    rw [set] at he
    split at he
    · rcases List.mem_cons.mp he with rfl | he
      · exact hv
      · exact hrest e he
    · rcases List.mem_cons.mp he with rfl | he
      · exact h _ List.mem_cons_self
      · exact ih hrest e he

/-- What holds of all values still holds of them after many more are written in turn. -/
theorem forall_merge {P : α → Prop} {fields extra : Fields α} (h : ∀ e ∈ fields, P e.2)
    (hextra : ∀ e ∈ extra, P e.2) : ∀ e ∈ merge fields extra, P e.2 := by
  induction extra generalizing fields with
  | nil => exact h
  | cons e rest ih =>
    exact ih (forall_set h (hextra e List.mem_cons_self))
      fun e he => hextra e (List.mem_cons_of_mem _ he)

theorem forall_ofPairs {P : α → Prop} {pairs : List (String × α)} (h : ∀ e ∈ pairs, P e.2) :
    ∀ e ∈ ofPairs pairs, P e.2 :=
  forall_merge (by simp) h

/-- A new name goes to the end. -/
theorem set_of_not_mem {fields : Fields α} {name : String} (h : name ∉ names fields) (v : α) :
    set fields name v = fields ++ [(name, v)] := by
  induction fields with
  | nil => rfl
  | cons e rest ih =>
    obtain ⟨n, w⟩ := e
    simp only [names, List.map_cons, List.mem_cons, not_or] at h
    rw [set, if_neg (Ne.symm h.1), ih h.2, List.cons_append]

/-- Entries with new and distinct names are appended as they stand. -/
theorem merge_of_distinct {fields extra : Fields α} (h : Distinct (fields ++ extra)) :
    merge fields extra = fields ++ extra := by
  induction extra generalizing fields with
  | nil => simp [merge]
  | cons e rest ih =>
    obtain ⟨name, v⟩ := e
    have hsplit : fields ++ (name, v) :: rest = fields ++ [(name, v)] ++ rest := by simp
    -- the next name is new, so it is written at the end
    have hname : name ∉ names fields := by
      intro hmem
      simp only [Distinct, names, List.map_append, List.map_cons, List.nodup_append] at h
      exact h.2.2 name hmem name List.mem_cons_self rfl
    rw [hsplit] at h ⊢
    rw [← ih h, ← set_of_not_mem hname]
    rfl

/-- Of a name that is written several times the last entry counts. -/
theorem get?_merge_reverse (fields extra : Fields α) (name : String) :
    get? (merge fields extra) name = (get? extra.reverse name).or (get? fields name) := by
  induction extra generalizing fields with
  | nil => rfl
  | cons e rest ih =>
    obtain ⟨n, v⟩ := e
    have hmerge : merge fields ((n, v) :: rest) = merge (set fields n v) rest := rfl
    rw [hmerge, ih, List.reverse_cons, get?_append, Option.or_assoc]
    -- the rest is searched first on both sides; what is left is the first entry of `extra`
    congr 1
    by_cases hn : name = n
    · subst hn
      rw [get?_set_self, get?_cons_self, Option.some_or]
    · rw [get?_set_of_ne _ hn, get?_cons_of_ne hn, get?_nil, Option.none_or]

/-- Of distinct names, the order of the entries does not matter to a look-up. -/
theorem get?_reverse {fields : Fields α} (h : Distinct fields) (name : String) :
    get? fields.reverse name = get? fields name := by
  have hreverse : Distinct fields.reverse := by
    rw [Distinct, names, List.map_reverse]
    exact (List.reverse_perm _).nodup_iff.mpr h
  ext v
  rw [← mem_iff_get? hreverse, ← mem_iff_get? h, List.mem_reverse]

/-- Entries that are written in turn win over those that were there. -/
theorem get?_merge {extra : Fields α} (h : Distinct extra) (fields : Fields α) (name : String) :
    get? (merge fields extra) name = (get? extra name).or (get? fields name) := by
  rw [get?_merge_reverse, get?_reverse h]

theorem ofPairs_of_distinct {pairs : List (String × α)} (h : Distinct pairs) :
    ofPairs pairs = pairs := by
  rw [ofPairs, merge_of_distinct (by simpa using h), List.nil_append]

/-- Writing adds the names that are new, in the order of their first entries. -/
theorem names_merge (fields extra : Fields α) : names (merge fields extra) =
    names fields ++ ((names extra).removeAll (names fields)).eraseDups := by
  induction extra generalizing fields with
  | nil => exact (List.append_nil _).symm
  | cons e rest ih =>
    have hrest : names (merge fields (e :: rest)) = names (set fields e.1 e.2) ++
        ((names rest).removeAll (names (set fields e.1 e.2))).eraseDups := ih _
    have hnames : names (e :: rest) = e.1 :: names rest := rfl
    rw [hrest, hnames, names_set, List.removeAll, List.removeAll]
    split
    · rename_i hmem
      rw [List.filter_cons_of_neg (by simpa using hmem)]
    · rename_i hmem
      rw [List.filter_cons_of_pos (by simpa using hmem), List.eraseDups_cons, List.filter_filter,
        List.append_assoc, List.singleton_append]
      -- both sides keep the names of the rest that are neither old nor the first one
      congr 4
      funext name
      simp [Bool.and_comm, beq_eq_decide]

/-- An object keeps each name of its members once, in the order in which the names first appear. -/
theorem names_ofPairs (pairs : List (String × α)) :
    names (ofPairs pairs) = (names pairs).eraseDups := by
  rw [ofPairs, names_merge, List.removeAll]
  simp [names]

/-- Of members with one name an object keeps the last. -/
theorem get?_ofPairs (pairs : List (String × α)) (name : String) :
    get? (ofPairs pairs) name = get? pairs.reverse name := by
  rw [ofPairs, get?_merge_reverse, get?_nil, Option.or_none]

end DocStore.Fields
