import DocStore.Json.Basic
import DocStore.Proofs.Fields
/-!
# Well-formedness and depth of a container

The mutual definitions on items and members, said as one property of every item or member.

* `induct`: what passes from the parts of a container to the container holds of every value.
* `within_array`, `within_object`: the values inside a container are one container less deep.
-/

namespace DocStore.Json

/-- What holds of scalars, and of a container as soon as it holds of all its parts, holds of every
value. -/
@[elab_as_elim]
theorem induct {P : Json → Prop} (null : P null) (bool : ∀ b, P (bool b))
    (number : ∀ n, P (number n)) (string : ∀ s, P (string s))
    (array : ∀ items, (∀ v ∈ items, P v) → P (array items))
    (object : ∀ members, (∀ e ∈ members, P e.2) → P (object members)) : ∀ v, P v
  | .null => null
  | .bool b => bool b
  | .number n => number n
  | .string s => string s
  | .array items => array items fun v hv =>
    have := List.sizeOf_lt_of_mem hv
    induct null bool number string array object v
  | .object members => object members fun e he =>
    have := List.sizeOf_lt_of_mem he
    have : sizeOf e.2 < sizeOf e := by cases e; simp +arith
    induct null bool number string array object e.2

/-- Items are well-formed where each of them is. -/
theorem wellFormedItems_iff {items : List Json} :
    WellFormedItems items ↔ ∀ v ∈ items, WellFormed v := by
  induction items with
  | nil => simp [WellFormedItems]
  | cons v rest ih => simp [WellFormedItems, ih]

/-- Members are well-formed where each value is. -/
theorem wellFormedMembers_iff {members : List (String × Json)} :
    WellFormedMembers members ↔ ∀ e ∈ members, WellFormed e.2 := by
  induction members with
  | nil => simp [WellFormedMembers]
  | cons e rest ih => simp [WellFormedMembers, ih]

/-- A list of items is as deep as the deepest of them. -/
theorem depthItems_le_iff {items : List Json} {n : Nat} :
    depthItems items ≤ n ↔ ∀ v ∈ items, depth v ≤ n := by
  induction items with
  | nil => simp [depthItems]
  | cons v rest ih => rw [depthItems, Nat.max_le, ih, List.forall_mem_cons]

/-- A list of members is as deep as the deepest value. -/
theorem depthMembers_le_iff {members : List (String × Json)} {n : Nat} :
    depthMembers members ≤ n ↔ ∀ e ∈ members, depth e.2 ≤ n := by
  induction members with
  | nil => simp [depthMembers]
  | cons e rest ih => rw [depthMembers, Nat.max_le, ih, List.forall_mem_cons]

/-- An array is well-formed where its items are. -/
theorem wellFormed_array {items : List Json} :
    WellFormed (array items) ↔ ∀ v ∈ items, WellFormed v := by
  rw [WellFormed, wellFormedItems_iff]

/-- An object is well-formed where its names are distinct and its values are well-formed. -/
theorem wellFormed_object {members : List (String × Json)} :
    WellFormed (object members) ↔
      Fields.Distinct members ∧ ∀ e ∈ members, WellFormed e.2 := by
  rw [WellFormed, wellFormedMembers_iff]

/-- An array is one container deeper than its items. -/
theorem depth_array_le {items : List Json} {n : Nat} :
    depth (array items) ≤ n + 1 ↔ ∀ v ∈ items, depth v ≤ n := by
  rw [depth, Nat.add_le_add_iff_right, depthItems_le_iff]

/-- An object is one container deeper than its values. -/
theorem depth_object_le {members : List (String × Json)} {n : Nat} :
    depth (object members) ≤ n + 1 ↔ ∀ e ∈ members, depth e.2 ≤ n := by
  rw [depth, Nat.add_le_add_iff_right, depthMembers_le_iff]

-- ---------------------------------------------------------------------------
-- Both together
-- ---------------------------------------------------------------------------

/-- Well-formed values that are no deeper than this. -/
def Within (limit : Nat) (v : Json) : Prop := v.WellFormed ∧ v.depth ≤ limit

variable {limit : Nat} {v : Json}

/-- What is within a limit is within every greater one. -/
theorem Within.mono {more : Nat} (h : v.Within limit) (hle : limit ≤ more) : v.Within more :=
  ⟨h.1, Nat.le_trans h.2 hle⟩

/-- A null has no containers inside. -/
@[simp] theorem within_null : null.Within limit := ⟨trivial, Nat.zero_le _⟩

@[simp] theorem within_bool (b : Bool) : (bool b).Within limit := ⟨trivial, Nat.zero_le _⟩

@[simp] theorem within_string (s : String) : (string s).Within limit := ⟨trivial, Nat.zero_le _⟩

/-- Every double is well-formed. -/
@[simp] theorem within_float (d : Double) : (number (.float d)).Within limit :=
  ⟨trivial, Nat.zero_le _⟩

/-- An integer is well-formed if it is one of 64 bits. -/
@[simp] theorem within_int {n : Int} : (int n).Within limit ↔ Number.IntegerRange n :=
  ⟨fun h => h.1, fun h => ⟨h, Nat.zero_le _⟩⟩

/-- **An array is within a limit where its items are within one less.** -/
theorem within_array {items : List Json} :
    Within (limit + 1) (array items) ↔ ∀ v ∈ items, v.Within limit := by
  rw [Within, wellFormed_array, depth_array_le, ← forall₂_and]
  rfl

/-- **So is an object**, where its names are distinct. -/
theorem within_object {members : Fields Json} : Within (limit + 1) (object members) ↔
    Fields.Distinct members ∧ ∀ e ∈ members, e.2.Within limit := by
  rw [Within, wellFormed_object, depth_object_le, and_assoc, ← forall₂_and]
  rfl

end DocStore.Json
