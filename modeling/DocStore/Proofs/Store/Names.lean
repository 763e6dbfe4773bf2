import Mathlib.Data.List.Sort
import Mathlib.Data.String.Basic
import DocStore.Proofs.Store.Handles
/-!
# Collections by name

Handles are places in the order in which names were bound, so two stores may have the same
collections behind different handles. Names tell them apart in any order: here is what is found under
a name after each step, and that the list of names shows which names there are and nothing else.

* `named?_bound`, `named?_put`: what is found under a name after a step.
* `collectionNames_eq`: stores with the same names list them alike.
-/

namespace DocStore

-- ---------------------------------------------------------------------------
-- Lists without repetitions
-- ---------------------------------------------------------------------------

section Repetitions

variable {α : Type}

/-- What was collected already is only put in front. -/
theorem eraseRepsBy_loop_append (r : α → α → Bool) (a : α) (as acc : List α) :
    List.eraseRepsBy.loop r a as acc = acc.reverse ++ List.eraseRepsBy.loop r a as [] := by
  induction as generalizing a acc with
  | nil => simp [List.eraseRepsBy.loop]
  | cons b bs ih =>
    rw [List.eraseRepsBy.loop, List.eraseRepsBy.loop]
    cases r a b with
    | true => exact ih a acc
    | false =>
      dsimp only
      rw [ih b (a :: acc), ih b [a]]
      simp

/-- A value that is repeated at once counts once. -/
theorem eraseReps_cons_cons [DecidableEq α] (a b : α) (l : List α) :
    (a :: b :: l).eraseReps = if a = b then (a :: l).eraseReps else a :: (b :: l).eraseReps := by
  simp only [List.eraseReps, List.eraseRepsBy, List.eraseRepsBy.loop]
  by_cases h : a = b
  · simp [h]
  · rw [if_neg h, beq_false_of_ne h]
    dsimp only
    rw [eraseRepsBy_loop_append]
    rfl

/-- Leaving repetitions out loses no item. -/
theorem mem_eraseReps [DecidableEq α] {x : α} {l : List α} : x ∈ l.eraseReps ↔ x ∈ l := by
  match l with
  | [] => exact Iff.rfl
  | [a] => exact Iff.rfl
  | a :: b :: l =>
    have hrest : x ∈ (b :: l).eraseReps ↔ x ∈ b :: l := mem_eraseReps
    rw [eraseReps_cons_cons]
    split
    · rename_i h
      rw [h, hrest]
      simp
    · rw [List.mem_cons, hrest, ← List.mem_cons]

/-- In a sorted list equal values stand together, so that none is left twice. -/
theorem pairwise_eraseReps [LinearOrder α] {l : List α} (h : l.Pairwise (· ≤ ·)) :
    l.eraseReps.Pairwise (· < ·) := by
  match l with
  | [] => exact List.Pairwise.nil
  | [a] => exact List.pairwise_singleton _ a
  | a :: b :: l =>
    have htail : (b :: l).Pairwise (· ≤ ·) := h.tail
    have hrest := pairwise_eraseReps htail
    rw [eraseReps_cons_cons]
    split
    · rename_i hab
      rwa [hab]
    · rename_i hab
      rw [List.pairwise_cons]
      refine ⟨fun x hx => ?_, hrest⟩
      -- what is left behind an item comes after it, and is not equal to it
      have hb : b ≤ x := by
        rcases List.mem_cons.mp (mem_eraseReps.mp hx) with rfl | hx
        · exact le_refl x
        · exact List.rel_of_pairwise_cons htail hx
      exact lt_of_lt_of_le
        (lt_of_le_of_ne (List.rel_of_pairwise_cons h List.mem_cons_self) hab) hb

end Repetitions

namespace Store

open Collection (Binding)

variable {s t : Store} {name : String} {schema : Schema} {h : Handle} {c c' : Collection}

/-- The collection of a name that is bound. -/
def named? (s : Store) (name : String) : Option Collection := (s.handle? name).bind s.get?

theorem named?_of_handle? (hbound : s.handle? name = some h) : s.named? name = s.get? h := by
  rw [named?, hbound, Option.bind_some]

/-- A name has no collection if it has no handle. -/
theorem named?_eq_none_iff : s.named? name = none ↔ s.handle? name = none := by
  constructor
  · intro hnone
    cases hbound : s.handle? name with
    | none => rfl
    | some h =>
      obtain ⟨c, hget, -⟩ := get?_of_handle? hbound
      rw [named?_of_handle? hbound, hget] at hnone
      cases hnone
  · intro hfree
    rw [named?, hfree, Option.bind_none]

/-- A collection that is found under a name has a handle and has the name. -/
theorem exists_handle?_of_named? (hnamed : s.named? name = some c) :
    ∃ h, s.handle? name = some h ∧ s.get? h = some c ∧ c.name = name := by
  obtain ⟨h, hbound, hget⟩ := Option.bind_eq_some_iff.mp hnamed
  obtain ⟨c', hget', hname⟩ := get?_of_handle? hbound
  obtain rfl := Option.some.inj (hget.symm.trans hget')
  exact ⟨h, hbound, hget, hname⟩

theorem schemaOf?_eq (s : Store) (name : String) :
    s.schemaOf? name = (s.named? name).map Collection.schema := rfl

-- ---------------------------------------------------------------------------
-- What is found after a step
-- ---------------------------------------------------------------------------

/-- **Binding a free name** leaves what is found under all others. -/
theorem named?_bound (hfree : s.handle? name = none) (schema : Schema) (other : String) :
    (s.bound name schema).named? other =
      if other = name then some (.unloaded name schema (s.config.collectionPath name))
      else s.named? other := by
  split
  · rename_i h
    rw [h, named?_of_handle? (handle?_bound hfree schema), get?, bound,
      List.getElem?_append_right (le_refl _), Nat.sub_self]
    rfl
  · rename_i hne
    -- the new binding stands behind all others and has another name
    have hkept : (s.bound name schema).handle? other = s.handle? other := by
      have hb : (Collection.unloaded name schema (s.config.collectionPath name)).name ≠ other :=
        fun h => hne h.symm
      rw [handle?, bound, List.findIdx?_append, ← handle?]
      simp [hb]
    rw [named?, named?, hkept]
    cases hbound : s.handle? other with
    | none => rfl
    | some h =>
      obtain ⟨c, hget, -⟩ := get?_of_handle? hbound
      rw [Option.bind_some, Option.bind_some, get?, bound, get?,
        List.getElem?_append_left (List.getElem?_eq_some_iff.mp hget).1]

theorem handle?_put (hget : s.get? h = some c) (hsame : c'.binding = c.binding) (name : String) :
    (s.put h c').handle? name = s.handle? name := by
  rw [handle?_eq, handle?_eq, bindings_put hget hsame]

/-- **An operation on one collection** leaves what is found under all other names. -/
theorem named?_put (hbound : s.handle? name = some h) (hget : s.get? h = some c)
    (hsame : c'.binding = c.binding) (other : String) :
    (s.put h c').named? other = if other = name then some c' else s.named? other := by
  have hlt : h < s.collections.length := (List.getElem?_eq_some_iff.mp hget).1
  rw [named?, handle?_put hget hsame]
  split
  · rename_i heq
    rw [heq, hbound, Option.bind_some, get?, put, List.getElem?_set_self hlt]
  · rename_i hne
    rw [named?]
    cases hother : s.handle? other with
    | none => rfl
    | some i =>
      -- the other collection has its own name, so that it stands at another place
      have hplace : h ≠ i := by
        rintro rfl
        obtain ⟨d, hd, hname⟩ := get?_of_handle? hbound
        obtain ⟨d', hd', hname'⟩ := get?_of_handle? hother
        rw [hd] at hd'
        rw [Option.some.inj hd', hname'] at hname
        exact hne hname
      rw [Option.bind_some, Option.bind_some, get?, put, get?, List.getElem?_set_ne hplace]

-- ---------------------------------------------------------------------------
-- The list of names
-- ---------------------------------------------------------------------------

/-- The names that are listed are those of the schema file and those that are bound. -/
theorem mem_collectionNames : name ∈ s.collectionNames ↔
    name ∈ Fields.names s.schemas ∨ s.named? name ≠ none := by
  rw [collectionNames, mem_eraseReps, List.mem_mergeSort, List.mem_append]
  refine or_congr_right ?_
  rw [Ne, named?_eq_none_iff, handle?, List.findIdx?_eq_none_iff, List.mem_map]
  simp

theorem pairwise_collectionNames (s : Store) : s.collectionNames.Pairwise (· < ·) := by
  refine pairwise_eraseReps ?_
  exact List.pairwise_mergeSort' (· ≤ ·) _

/-- **Stores with the same names list them alike.** -/
theorem collectionNames_eq (hschemas : t.schemas = s.schemas)
    (hnamed : ∀ name, name ∉ Fields.names s.schemas →
      (t.named? name = none ↔ s.named? name = none)) : t.collectionNames = s.collectionNames := by
  refine (pairwise_collectionNames t).eq_of_mem_iff (pairwise_collectionNames s) fun name => ?_
  rw [mem_collectionNames, mem_collectionNames, hschemas]
  by_cases hfile : name ∈ Fields.names s.schemas
  · simp [hfile]
  · rw [Ne, Ne, hnamed name hfile]

end Store

end DocStore
