import Mathlib.Data.List.Basic
import Mathlib.Order.Compare
/-!
# Stable sorting

A list is sorted stably by a comparison if it is put in order and items that are level stay in the
order they came in. That leaves no choice: the sorted list is determined, whichever way it is found.
So what keeps lists in order and levels apart, such as leaving items out, may be done before or
after sorting.

* `StablySorts`: what it takes to be a list sorted stably.
* `stablySorts_iff`: merge sort makes that list, and it is the only one.
* `StablySorts.filter`: leaving items out of both lists.
-/

namespace DocStore

variable {α : Type} {cmp : α → α → Ordering} {input output other : List α} {a b : α}

/-- The items that are level with one of them. -/
def levelWith (cmp : α → α → Ordering) (a : α) (items : List α) : List α :=
  items.filter fun b => cmp b a == .eq

/-- What it takes for a list to be another one, sorted stably. -/
structure StablySorts (cmp : α → α → Ordering) (input output : List α) : Prop where
  perm : output.Perm input
  /-- No item stands before one that comes before it. -/
  sorted : output.Pairwise fun a b => cmp b a ≠ .lt
  /-- Items that are level stand in their old order. -/
  stable : ∀ a, levelWith cmp a output = levelWith cmp a input

theorem mem_levelWith : b ∈ levelWith cmp a input ↔ b ∈ input ∧ cmp b a = .eq := by
  rw [levelWith, List.mem_filter, beq_iff_eq]

theorem levelWith_cons (h : cmp b a = .eq) :
    levelWith cmp a (b :: input) = b :: levelWith cmp a input := by
  rw [levelWith, List.filter_cons, if_pos (beq_iff_eq.mpr h)]
  rfl

theorem levelWith_filter (p : α → Bool) (items : List α) :
    levelWith cmp a (items.filter p) = (levelWith cmp a items).filter p := by
  rw [levelWith, levelWith, List.filter_filter, List.filter_filter]
  simp only [Bool.and_comm]

/-- Leaving items out of both lists keeps the order and the levels. -/
theorem StablySorts.filter (h : StablySorts cmp input output) (p : α → Bool) :
    StablySorts cmp (input.filter p) (output.filter p) where
  perm := h.perm.filter p
  sorted := h.sorted.filter p
  stable a := by rw [levelWith_filter, levelWith_filter, h.stable]

variable [Std.TransCmp cmp]

theorem level_self (a : α) : cmp a a = .eq := Std.ReflCmp.compare_self

theorem isLE_iff_ne_lt : (cmp a b).isLE = true ↔ cmp b a ≠ .lt := by
  rw [Ordering.isLE_iff_ne_gt, ne_eq, ← Std.OrientedCmp.gt_iff_lt]

theorem level_comm : cmp a b = .eq ↔ cmp b a = .eq := Std.OrientedCmp.eq_comm

theorem isLE_or_isLE (a b : α) : (cmp a b).isLE = true ∨ (cmp b a).isLE = true := by
  rw [isLE_iff_ne_lt, isLE_iff_ne_lt, ← not_and_or]
  rintro ⟨hba, hab⟩
  exact Std.OrientedCmp.not_lt_of_lt hab hba

/-- Items that are level stand in any order. -/
theorem pairwise_levelWith (a : α) (items : List α) :
    (levelWith cmp a items).Pairwise fun b c => (cmp b c).isLE = true := by
  refine List.pairwise_of_forall_mem_list fun b hb c hc => ?_
  have hbc := Std.TransCmp.eq_trans (mem_levelWith.mp hb).2 (level_comm.mp (mem_levelWith.mp hc).2)
  rw [hbc]
  rfl

-- ---------------------------------------------------------------------------
-- The sorted list
-- ---------------------------------------------------------------------------

/-- **Merge sort is stable.** -/
theorem stablySorts_mergeSort (input : List α) :
    StablySorts cmp input (input.mergeSort fun a b => (cmp a b).isLE) := by
  have htrans : ∀ a b c, (cmp a b).isLE = true → (cmp b c).isLE = true → (cmp a c).isLE = true :=
    fun a b c => Std.TransCmp.isLE_trans
  have htotal : ∀ a b, ((cmp a b).isLE || (cmp b a).isLE) = true :=
    fun a b => Bool.or_eq_true_iff.mpr (isLE_or_isLE a b)
  have hperm := List.mergeSort_perm input fun a b => (cmp a b).isLE
  refine ⟨hperm, ?_, fun a => ?_⟩
  · exact (List.pairwise_mergeSort htrans htotal input).imp isLE_iff_ne_lt.mp
  · -- level items come in order, so they are found in it again, and there are no more of them
    have hsub := List.sublist_mergeSort htrans htotal (pairwise_levelWith a input)
      List.filter_sublist
    have hlevel := hsub.filter fun b => cmp b a == .eq
    rw [levelWith, List.filter_filter] at hlevel
    simp only [Bool.and_self] at hlevel
    exact (hlevel.eq_of_length (hperm.filter _).length_eq.symm).symm

/-- The first of the sorted items is level with the first of any other order of them. -/
theorem level_of_heads {items others : List α}
    (hsorted : (a :: items).Pairwise fun a b => cmp b a ≠ .lt)
    (hsorted' : (b :: others).Pairwise fun a b => cmp b a ≠ .lt)
    (ha : a ∈ b :: others) (hb : b ∈ a :: items) : cmp b a = .eq := by
  have hself (c : α) : cmp c c ≠ .lt := by
    have hc : cmp c c = .eq := level_self c
    rw [hc]
    decide
  -- each head stands in the other list, behind its head or as its head
  have hba : cmp b a ≠ .lt := by
    obtain rfl | hb := List.mem_cons.mp hb
    · exact hself b
    · exact List.rel_of_pairwise_cons hsorted hb
  have hab : cmp a b ≠ .lt := by
    obtain rfl | ha := List.mem_cons.mp ha
    · exact hself a
    · exact List.rel_of_pairwise_cons hsorted' ha
  exact Std.OrientedCmp.isLE_antisymm (isLE_iff_ne_lt.mpr hab) (isLE_iff_ne_lt.mpr hba)

/-- Lists with the same levels have the same items. -/
theorem mem_iff_of_levels (h : ∀ a, levelWith cmp a output = levelWith cmp a other) (a : α) :
    a ∈ output ↔ a ∈ other := by
  have hself (items : List α) : a ∈ items ↔ a ∈ levelWith cmp a items := by
    rw [mem_levelWith, and_iff_left (level_self a)]
  rw [hself output, hself other, h]

/-- Lists in order are the same if their levels are. -/
theorem eq_of_levels (hsorted : output.Pairwise fun a b => cmp b a ≠ .lt)
    (hsorted' : other.Pairwise fun a b => cmp b a ≠ .lt)
    (h : ∀ a, levelWith cmp a output = levelWith cmp a other) : output = other := by
  induction output generalizing other with
  | nil =>
    refine (List.eq_nil_iff_forall_not_mem.mpr fun a ha => ?_).symm
    exact List.not_mem_nil ((mem_iff_of_levels h a).mpr ha)
  | cons a output ih =>
    have hmem := mem_iff_of_levels h
    cases other with
    | nil => exact absurd ((hmem a).mp List.mem_cons_self) List.not_mem_nil
    | cons b other =>
      -- both are the first of one level, so they are the same
      have hlevel := level_of_heads hsorted hsorted' ((hmem a).mp List.mem_cons_self)
        ((hmem b).mpr List.mem_cons_self)
      have hheads := h a
      rw [levelWith_cons (level_self a), levelWith_cons hlevel, List.cons.injEq] at hheads
      obtain ⟨rfl, -⟩ := hheads
      -- without their heads the lists have the same levels still
      have hrest (c : α) : levelWith cmp c output = levelWith cmp c other := by
        have hc := h c
        rw [levelWith, levelWith, List.filter_cons, List.filter_cons] at hc
        split at hc
        · exact List.tail_eq_of_cons_eq hc
        · exact hc
      rw [ih hsorted.of_cons hsorted'.of_cons hrest]

/-- **There is one list that is sorted stably.** -/
theorem StablySorts.unique (h : StablySorts cmp input output) (h' : StablySorts cmp input other) :
    output = other :=
  eq_of_levels h.sorted h'.sorted fun a => (h.stable a).trans (h'.stable a).symm

/-- **Merge sort makes the one list that is sorted stably.** -/
theorem stablySorts_iff :
    StablySorts cmp input output ↔ (input.mergeSort fun a b => (cmp a b).isLE) = output := by
  constructor
  · exact fun h => (stablySorts_mergeSort input).unique h
  · rintro rfl
    exact stablySorts_mergeSort input

/-- Two level items stand in the same order on both sides. -/
theorem StablySorts.pair_sublist_iff (h : StablySorts cmp input output) (hlevel : cmp a b = .eq) :
    [a, b].Sublist output ↔ [a, b].Sublist input := by
  have hpair : ∀ items : List α, [a, b].Sublist items ↔ [a, b].Sublist (levelWith cmp b items) := by
    intro items
    refine ⟨fun hsub => ?_, fun hsub => hsub.trans List.filter_sublist⟩
    have hboth : levelWith cmp b [a, b] = [a, b] := by
      refine List.filter_eq_self.mpr ?_
      rw [List.forall_mem_cons, List.forall_mem_singleton]
      exact ⟨beq_iff_eq.mpr hlevel, beq_iff_eq.mpr (level_self b)⟩
    have hfilter := hsub.filter fun c => cmp c b == .eq
    rwa [← levelWith, ← levelWith, hboth] at hfilter
  rw [hpair output, hpair input, h.stable]

end DocStore
