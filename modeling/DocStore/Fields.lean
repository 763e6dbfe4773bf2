/-!
# Named entries in a fixed order

Objects, records, schemas and registries are lists of named entries. Order shows in every answer,
so it is part of the value: a new name goes to the end, and an entry that is written again keeps
its place.

* `Fields.names_set`: how writing an entry changes the list of names.
* `Fields.distinct_set`: writing an entry keeps the names distinct.
-/

namespace DocStore

/-- Entries in order, each with its name. -/
abbrev Fields (α : Type) := List (String × α)

namespace Fields

variable {α : Type}

/-- The entry of this name. -/
def get? (fields : Fields α) (name : String) : Option α := List.lookup name fields

/-- Whether there is an entry of this name. -/
def has (fields : Fields α) (name : String) : Bool := (fields.get? name).isSome

/-- The names in order. -/
def names (fields : Fields α) : List String := fields.map Prod.fst

/-- Writes an entry: in place if its name is there already, else at the end. -/
def set (fields : Fields α) (name : String) (value : α) : Fields α :=
  match fields with
  | [] => [(name, value)]
  | (n, v) :: rest => if n = name then (n, value) :: rest else (n, v) :: set rest name value

/-- Writes every entry of `extra` in turn. -/
def merge (fields extra : Fields α) : Fields α := extra.foldl (fun fs e => fs.set e.1 e.2) fields

/-- The entries of a list of pairs: of a repeated name the last value counts, at the place of the
first. -/
def ofPairs (pairs : List (String × α)) : Fields α := merge [] pairs

/-- Whether no name occurs twice. -/
def Distinct (fields : Fields α) : Prop := (names fields).Nodup

-- ---------------------------------------------------------------------------
-- Names after a write
-- ---------------------------------------------------------------------------

/-- Writing an entry adds its name at the end, unless the name is there already. -/
theorem names_set (fields : Fields α) (name : String) (value : α) :
    names (set fields name value) =
      if name ∈ names fields then names fields else names fields ++ [name] := by
  induction fields with
  | nil => simp [set, names]
  | cons e rest ih =>
    obtain ⟨n, v⟩ := e
    by_cases h : n = name
    · simp [set, names, h]
    · have h' : name ≠ n := fun e => h e.symm
      simp only [names] at ih
      simp only [set, h, if_false, names, List.map_cons, List.mem_cons, h', false_or, ih]
      split <;> rename_i hm <;> simp [hm]

/-- Writing an entry repeats no name. -/
theorem distinct_set {fields : Fields α} (h : Distinct fields) (name : String) (value : α) :
    Distinct (set fields name value) := by
  unfold Distinct at *
  rw [names_set]
  split
  · exact h
  · -- the name is new, so it stands once at the end and nowhere before
    rename_i hmem
    rw [List.nodup_append]
    refine ⟨h, by simp, ?_⟩
    intro a ha b hb
    simp only [List.mem_singleton] at hb
    subst hb
    exact fun e => hmem (e ▸ ha)

theorem distinct_nil : Distinct ([] : Fields α) := List.nodup_nil

/-- Writing entries in turn repeats no name. -/
theorem distinct_merge {fields : Fields α} (h : Distinct fields) (extra : Fields α) :
    Distinct (merge fields extra) := by
  induction extra generalizing fields with
  | nil => exact h
  | cons e rest ih => exact ih (distinct_set h e.1 e.2)

theorem distinct_ofPairs (pairs : List (String × α)) : Distinct (ofPairs pairs) :=
  distinct_merge distinct_nil pairs

/-- An entry that was written is found. -/
theorem get?_set_self (fields : Fields α) (name : String) (value : α) :
    get? (set fields name value) name = some value := by
  induction fields with
  | nil => simp [set, get?]
  | cons e rest ih =>
    obtain ⟨n, v⟩ := e
    by_cases h : n = name
    · subst h; simp [set, get?]
    · have h' : (name == n) = false := by simp [Ne.symm h]
      simp only [get?] at ih
      simp [set, h, get?, List.lookup_cons, h', ih]

/-- Writing an entry leaves what is found under every other name. -/
theorem get?_set_of_ne (fields : Fields α) {name other : String} (h : other ≠ name) (value : α) :
    get? (set fields name value) other = get? fields other := by
  have hb : (other == name) = false := by simp [h]
  induction fields with
  | nil => simp [set, get?, List.lookup_cons, hb]
  | cons e rest ih =>
    obtain ⟨n, v⟩ := e
    simp only [get?] at ih
    by_cases hn : n = name
    · subst hn; simp [set, get?, List.lookup_cons, hb]
    · simp only [set, hn, if_false, get?, List.lookup_cons, ih]

end Fields

end DocStore
