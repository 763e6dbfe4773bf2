import Mathlib.Data.List.Forall2
import Mathlib.Data.List.Perm.Subperm
import DocStore.Json.Equality
import DocStore.Proofs.Json.WellFormed
/-!
# Equality of values

Members are compared from one side only: each member on the left needs an equal one on the right.
With as many members on both sides and distinct names, none is left over on the right, so the
comparison may be read from either side.

* `sameValue_refl`: every value is the same as itself.
* `equalBy_symm`: symmetry, from that of the comparison of numbers.
* `equalBy_trans`: two comparisons in a row make a third, from what they make of numbers.
* `sameValue_comm`: the two sides of `sameValue` may be exchanged.
-/

namespace DocStore

theorem Number.sameValue_refl (n : Number) : n.sameValue n = true := by
  cases n <;> simp [Number.sameValue, Double.sameValue]

theorem Number.sameText_refl (n : Number) : n.sameText n = true := by
  cases n with
  | int a => exact beq_self_eq_true a
  | float d => exact Number.sameValue_refl (.float d)

theorem Number.sameValue_symm {a b : Number} (h : a.sameValue b = true) :
    b.sameValue a = true := by
  cases a <;> cases b <;>
    simp only [Number.sameValue, Double.sameValue, beq_iff_eq] at h ⊢ <;> exact h.symm

namespace Json

variable {eq : Number → Number → Bool}

-- ---------------------------------------------------------------------------
-- What a value can equal
-- ---------------------------------------------------------------------------

section Inversion

attribute [local simp] equalBy equalItems equalMembers

/-- Lists of items are compared item by item. -/
theorem equalItems_iff {as bs : List Json} :
    equalItems eq as bs = true ↔ List.Forall₂ (fun a b => equalBy eq a b = true) as bs := by
  induction as generalizing bs with
  | nil => cases bs <;> simp
  | cons a as ih => cases bs <;> simp [ih]

/-- Members are compared by name: each on the left needs an equal one on the right. -/
theorem equalMembers_iff {as bs : List (String × Json)} :
    equalMembers eq as bs = true ↔
      ∀ e ∈ as, ∃ b, Fields.get? bs e.1 = some b ∧ equalBy eq e.2 b = true := by
  induction as with
  | nil => simp
  | cons e rest ih =>
    obtain ⟨name, a⟩ := e
    rw [equalMembers, Bool.and_eq_true, ih, List.forall_mem_cons]
    refine and_congr_left fun _ => ?_
    cases Fields.get? bs name with
    | none => simp
    | some b => simp

theorem equalBy_null_iff {w : Json} : equalBy eq null w = true ↔ null = w := by
  cases w <;> simp

theorem equalBy_bool_iff {b : Bool} {w : Json} : equalBy eq (bool b) w = true ↔ bool b = w := by
  cases w <;> simp

theorem equalBy_number_iff {n : Number} {w : Json} :
    equalBy eq (number n) w = true ↔ ∃ m, number m = w ∧ eq n m = true := by
  cases w <;> simp

theorem equalBy_string_iff {s : String} {w : Json} :
    equalBy eq (string s) w = true ↔ string s = w := by
  cases w <;> simp

/-- An array equals the arrays with equal items in the same order. -/
theorem equalBy_array_iff {items : List Json} {w : Json} :
    equalBy eq (array items) w = true ↔
      ∃ others, array others = w ∧
        List.Forall₂ (fun a b => equalBy eq a b = true) items others := by
  cases w <;> simp [equalItems_iff]

/-- An object equals the objects of as many members that have its members. -/
theorem equalBy_object_iff {members : List (String × Json)} {w : Json} :
    equalBy eq (object members) w = true ↔
      ∃ others, object others = w ∧ members.length = others.length ∧
        ∀ e ∈ members, ∃ b, Fields.get? others e.1 = some b ∧ equalBy eq e.2 b = true := by
  cases w <;> simp [equalMembers_iff]

end Inversion

-- ---------------------------------------------------------------------------
-- Reflexivity
-- ---------------------------------------------------------------------------

/-- **Every value equals itself**, if every number does. -/
theorem equalBy_self (heq : ∀ n, eq n n = true) (v : Json) :
    v.WellFormed → equalBy eq v v = true := by
  induction v using induct with
  | null => exact fun _ => rfl
  | bool b => exact fun _ => equalBy_bool_iff.mpr rfl
  | number n => exact fun _ => heq n
  | string s => exact fun _ => equalBy_string_iff.mpr rfl
  | array items ih =>
    intro h
    rw [wellFormed_array] at h
    exact equalBy_array_iff.mpr ⟨items, rfl, List.forall₂_same.mpr fun v hv => ih v hv (h v hv)⟩
  | object members ih =>
    intro h
    rw [wellFormed_object] at h
    refine equalBy_object_iff.mpr ⟨members, rfl, rfl, ?_⟩
    exact fun e he => ⟨e.2, (Fields.mem_iff_get? h.1).mp he, ih e he (h.2 e he)⟩

/-- Every value is the same as itself. -/
theorem sameValue_refl {v : Json} (h : v.WellFormed) : sameValue v v = true :=
  equalBy_self Number.sameValue_refl v h

/-- Every value has the same text as itself. -/
theorem sameText_refl {v : Json} (h : v.WellFormed) : sameText v v = true :=
  equalBy_self Number.sameText_refl v h

-- ---------------------------------------------------------------------------
-- Symmetry
-- ---------------------------------------------------------------------------

/-- As many distinct names on both sides, all of the left ones on the right: the same names. -/
theorem names_subset_of_length {as bs : List (String × Json)} (hd : Fields.Distinct as)
    (hlen : as.length = bs.length) (hsub : Fields.names as ⊆ Fields.names bs) :
    Fields.names bs ⊆ Fields.names as := by
  have hle : (Fields.names bs).length ≤ (Fields.names as).length := by
    simp [Fields.names, hlen]
  exact ((List.Nodup.subperm hd hsub).perm_of_length_le hle).symm.subset

/-- Each member on the right is the partner of the one of its name on the left. -/
theorem exists_partner {members others : List (String × Json)} {P : Json → Json → Prop}
    (hmembers : Fields.Distinct members) (hothers : Fields.Distinct others)
    (hlen : members.length = others.length)
    (h : ∀ e ∈ members, ∃ b, Fields.get? others e.1 = some b ∧ P e.2 b) {e : String × Json}
    (he : e ∈ others) : ∃ a, Fields.get? members e.1 = some a ∧ P a e.2 := by
  have hsub : Fields.names members ⊆ Fields.names others := by
    intro name hname
    obtain ⟨e, he, rfl⟩ := List.mem_map.mp hname
    obtain ⟨b, hb, -⟩ := h e he
    exact Fields.mem_names_of_get? hb
  -- as many names on both sides, so the name on the right is one of those on the left
  have hname := names_subset_of_length hmembers hlen hsub (List.mem_map_of_mem he)
  obtain ⟨f, hf, hfe⟩ := List.mem_map.mp hname
  obtain ⟨b, hb, hP⟩ := h f hf
  rw [hfe, (Fields.mem_iff_get? hothers).mp he] at hb
  obtain rfl := Option.some.inj hb
  refine ⟨f.2, ?_, hP⟩
  rw [← hfe]
  exact (Fields.mem_iff_get? hmembers).mp hf

/-- A relation of lists is turned around item by item. -/
theorem forall₂_swap {α : Type} {R S : α → α → Prop} {as bs : List α}
    (h : ∀ a ∈ as, ∀ b ∈ bs, R a b → S b a) (hab : List.Forall₂ R as bs) :
    List.Forall₂ S bs as := by
  induction hab with
  | nil => exact .nil
  | cons hab _ ih =>
    refine .cons (h _ List.mem_cons_self _ List.mem_cons_self hab) (ih ?_)
    exact fun a ha b hb => h a (List.mem_cons_of_mem _ ha) b (List.mem_cons_of_mem _ hb)

/-- **The comparison may be read from either side**, if that of numbers may. -/
theorem equalBy_symm (heq : ∀ a b, eq a b = true → eq b a = true) (v : Json) :
    v.WellFormed → ∀ w : Json, w.WellFormed → equalBy eq v w = true → equalBy eq w v = true := by
  induction v using induct with
  | null =>
    intro _ w _ h
    obtain rfl := equalBy_null_iff.mp h
    exact h
  | bool b =>
    intro _ w _ h
    obtain rfl := equalBy_bool_iff.mp h
    exact h
  | number n =>
    intro _ w _ h
    obtain ⟨m, rfl, hnm⟩ := equalBy_number_iff.mp h
    exact heq n m hnm
  | string s =>
    intro _ w _ h
    obtain rfl := equalBy_string_iff.mp h
    exact h
  | array items ih =>
    intro hv w hw h
    obtain ⟨others, rfl, hothers⟩ := equalBy_array_iff.mp h
    rw [wellFormed_array] at hv hw
    refine equalBy_array_iff.mpr ⟨items, rfl, forall₂_swap ?_ hothers⟩
    exact fun a ha b hb => ih a ha (hv a ha) b (hw b hb)
  | object members ih =>
    intro hv w hw h
    obtain ⟨others, rfl, hlen, hothers⟩ := equalBy_object_iff.mp h
    rw [wellFormed_object] at hv hw
    refine equalBy_object_iff.mpr ⟨members, rfl, hlen.symm, ?_⟩
    intro e he
    -- the member on the right has a partner on the left, and the two are compared there
    obtain ⟨a, ha, hequal⟩ := exists_partner (P := fun a b => equalBy eq a b = true) hv.1 hw.1 hlen
      hothers he
    have hmem := Fields.mem_of_get? ha
    exact ⟨a, ha, ih _ hmem (hv.2 _ hmem) e.2 (hw.2 e he) hequal⟩

/-- **The two sides may be exchanged.** -/
theorem sameValue_comm {v w : Json} (hv : v.WellFormed) (hw : w.WellFormed) :
    sameValue v w = sameValue w v := by
  rw [Bool.eq_iff_iff]
  exact ⟨equalBy_symm (fun _ _ => Number.sameValue_symm) v hv w hw,
    equalBy_symm (fun _ _ => Number.sameValue_symm) w hw v hv⟩

-- ---------------------------------------------------------------------------
-- Comparisons in a row
-- ---------------------------------------------------------------------------

/-- Two relations of lists are put together item by item. -/
theorem forall₂_comp {α : Type} {R S T : α → α → Prop} {as bs cs : List α}
    (h : ∀ a ∈ as, ∀ b c, R a b → S b c → T a c) (hab : List.Forall₂ R as bs)
    (hbc : List.Forall₂ S bs cs) : List.Forall₂ T as cs := by
  induction hab generalizing cs with
  | nil =>
    cases hbc
    exact .nil
  | cons hab _ ih =>
    cases hbc with
    | cons hbc hrest =>
      rw [List.forall_mem_cons] at h
      exact .cons (h.1 _ _ hab hbc) (ih h.2 hrest)

/-- **Two comparisons in a row make a third**, if they do so for numbers. -/
theorem equalBy_trans {eq₁ eq₂ eq₃ : Number → Number → Bool}
    (h : ∀ a b c, eq₁ a b = true → eq₂ b c = true → eq₃ a c = true) (v : Json) :
    ∀ w x : Json, equalBy eq₁ v w = true → equalBy eq₂ w x = true → equalBy eq₃ v x = true := by
  induction v using induct with
  | null =>
    intro w x hvw hwx
    obtain rfl := equalBy_null_iff.mp hvw
    obtain rfl := equalBy_null_iff.mp hwx
    rfl
  | bool b =>
    intro w x hvw hwx
    obtain rfl := equalBy_bool_iff.mp hvw
    obtain rfl := equalBy_bool_iff.mp hwx
    exact equalBy_bool_iff.mpr rfl
  | number n =>
    intro w x hvw hwx
    obtain ⟨m, rfl, hnm⟩ := equalBy_number_iff.mp hvw
    obtain ⟨k, rfl, hmk⟩ := equalBy_number_iff.mp hwx
    exact h n m k hnm hmk
  | string s =>
    intro w x hvw hwx
    obtain rfl := equalBy_string_iff.mp hvw
    obtain rfl := equalBy_string_iff.mp hwx
    exact equalBy_string_iff.mpr rfl
  | array items ih =>
    intro w x hvw hwx
    obtain ⟨others, rfl, hothers⟩ := equalBy_array_iff.mp hvw
    obtain ⟨last, rfl, hlast⟩ := equalBy_array_iff.mp hwx
    exact equalBy_array_iff.mpr ⟨last, rfl, forall₂_comp ih hothers hlast⟩
  | object members ih =>
    intro w x hvw hwx
    obtain ⟨others, rfl, hlen, hothers⟩ := equalBy_object_iff.mp hvw
    obtain ⟨last, rfl, hlen', hlast⟩ := equalBy_object_iff.mp hwx
    refine equalBy_object_iff.mpr ⟨last, rfl, hlen.trans hlen', ?_⟩
    intro e he
    -- a member is followed through both comparisons by its name
    obtain ⟨b, hb, heb⟩ := hothers e he
    obtain ⟨c, hc, hbc⟩ := hlast (e.1, b) (Fields.mem_of_get? hb)
    exact ⟨c, hc, ih e he b c heb hbc⟩

end Json

end DocStore
