import DocStore.Pipeline.Group
import DocStore.Proofs.Double.Rounding
import DocStore.Proofs.Json.Equality
/-!
# Where equality of values is transitive

Two integers are compared exactly, an integer and a float only after the integer is rounded to a
double. So two different integers may both equal one float, and equality does not carry over from
one to the other. That is all that can go wrong: where two values are both equal to a third, they
are equal to each other unless they hold different integers at one place. Integers that doubles hold
exactly are never rounded, so among them nothing goes wrong.

* `sameIntegers`: no two different integers at one place.
* `sameValue_trans_iff`: when equality carries over.
* `sameIntegers_of_exact`: it does among integers that doubles hold.
-/

namespace DocStore

namespace Number

/-- Equality of the doubles that numbers are rounded to. -/
def sameDouble (a b : Number) : Bool := a.toDouble.sameValue b.toDouble

/-- Not two different integers. -/
def sameIntegers : Number → Number → Bool
  | int a, int b => a == b
  | _, _ => true

/-- A number that is a float, or an integer that doubles hold exactly. -/
def Exact (n : Number) : Prop := ∀ i, n = .int i → i.natAbs ≤ Grouping.exactLimit

/-- **Numbers are the same** if their doubles are and they are not two different integers. -/
theorem sameValue_eq (a b : Number) :
    a.sameValue b = (a.sameDouble b && a.sameIntegers b) := by
  cases a with
  | float a => cases b <;> simp [sameValue, sameDouble, sameIntegers]
  | int a =>
    cases b with
    | float b => simp [sameValue, sameDouble, sameIntegers]
    | int b =>
      rw [Bool.eq_iff_iff, Bool.and_eq_true, sameValue, sameIntegers, beq_iff_eq]
      refine ⟨fun h => ⟨?_, h⟩, fun h => h.2⟩
      rw [h, sameDouble, Double.sameValue, beq_self_eq_true]

theorem sameDouble_trans {a b c : Number} (hab : a.sameDouble b = true)
    (hbc : b.sameDouble c = true) : a.sameDouble c = true := by
  rw [sameDouble, Double.sameValue, beq_iff_eq] at hab hbc ⊢
  exact hab.trans hbc

/-- Integers that doubles hold are told apart by their doubles. -/
theorem sameIntegers_of_exact {a b : Number} (ha : a.Exact) (hb : b.Exact)
    (h : a.sameDouble b = true) : a.sameIntegers b = true := by
  cases a with
  | float a => rfl
  | int a =>
    cases b with
    | float b => rfl
    | int b =>
      -- the number of steps stays a variable, so that its power is never computed
      obtain ⟨k, hk⟩ : ∃ k : ℕ, (k : ℤ) = 1074 := ⟨1074, rfl⟩
      obtain ⟨d, hd, hdUnits⟩ := Double.ofInt?_exact (ha a rfl) hk
      obtain ⟨e, he, heUnits⟩ := Double.ofInt?_exact (hb b rfl) hk
      rw [sameDouble, toDouble, toDouble, hd, he, Double.sameValue, beq_iff_eq] at h
      simp only [Option.getD_some] at h
      rw [hdUnits, heUnits] at h
      have hpos : ((Nat.pow 2 k : ℕ) : ℤ) ≠ 0 := by
        exact_mod_cast (Nat.pow_pos Nat.two_pos).ne'
      exact beq_iff_eq.mpr (Int.eq_of_mul_eq_mul_right hpos h)

end Number

namespace Json

/-- Equality in all but numbers, where two integers at one place are the same. -/
def sameIntegers : Json → Json → Bool := equalBy Number.sameIntegers

/-- Every number in a value has a property. -/
inductive AllNumbers (P : Number → Prop) : Json → Prop
  | null : AllNumbers P null
  | bool (b : Bool) : AllNumbers P (bool b)
  | number {n : Number} (h : P n) : AllNumbers P (number n)
  | string (s : String) : AllNumbers P (string s)
  | array {items : List Json} (h : ∀ v ∈ items, AllNumbers P v) : AllNumbers P (array items)
  | object {members : List (String × Json)} (h : ∀ e ∈ members, AllNumbers P e.2) :
      AllNumbers P (object members)

/-- What holds of all numbers holds of those in a value. -/
theorem allNumbers_of_forall {P : Number → Prop} (h : ∀ n, P n) (v : Json) : v.AllNumbers P := by
  induction v using induct with
  | null => exact .null
  | bool b => exact .bool b
  | number n => exact .number (h n)
  | string s => exact .string s
  | array items ih => exact .array ih
  | object members ih => exact .object ih

/-- Two comparisons of the same values make a third, if they do so for the numbers in them. -/
theorem equalBy_both {P : Number → Prop} {eq₁ eq₂ eq₃ : Number → Number → Bool}
    (h : ∀ a b, P a → P b → eq₁ a b = true → eq₂ a b = true → eq₃ a b = true) (v : Json) :
    ∀ w : Json, v.AllNumbers P → w.AllNumbers P → equalBy eq₁ v w = true →
      equalBy eq₂ v w = true → equalBy eq₃ v w = true := by
  induction v using induct with
  | null =>
    intro w _ _ hfirst _
    obtain rfl := equalBy_null_iff.mp hfirst
    rfl
  | bool b =>
    intro w _ _ hfirst _
    obtain rfl := equalBy_bool_iff.mp hfirst
    exact equalBy_bool_iff.mpr rfl
  | number n =>
    intro w hv hw hfirst hsecond
    obtain ⟨m, rfl, hnm⟩ := equalBy_number_iff.mp hfirst
    cases hv with
    | number hn =>
      cases hw with
      | number hm => exact h n m hn hm hnm hsecond
  | string s =>
    intro w _ _ hfirst _
    obtain rfl := equalBy_string_iff.mp hfirst
    exact equalBy_string_iff.mpr rfl
  | array items ih =>
    intro w hv hw hfirst hsecond
    obtain ⟨others, rfl, hothers⟩ := equalBy_array_iff.mp hfirst
    rw [equalBy, equalItems_iff, List.forall₂_iff_zip] at hsecond
    rw [List.forall₂_iff_zip] at hothers
    refine equalBy_array_iff.mpr ⟨others, rfl, List.forall₂_iff_zip.mpr ⟨hothers.1, ?_⟩⟩
    intro a b hab
    cases hv with
    | array hv =>
      cases hw with
      | array hw =>
        have hmem := List.of_mem_zip hab
        exact ih a hmem.1 b (hv a hmem.1) (hw b hmem.2) (hothers.2 hab) (hsecond.2 hab)
  | object members ih =>
    intro w hv hw hfirst hsecond
    obtain ⟨others, rfl, hlen, hothers⟩ := equalBy_object_iff.mp hfirst
    rw [equalBy, Bool.and_eq_true, equalMembers_iff] at hsecond
    refine equalBy_object_iff.mpr ⟨others, rfl, hlen, fun e he => ?_⟩
    obtain ⟨b, hb, heb⟩ := hothers e he
    obtain ⟨c, hc, hec⟩ := hsecond.2 e he
    -- both comparisons found the same member
    obtain rfl := Option.some.inj (hb.symm.trans hc)
    cases hv with
    | object hv =>
      cases hw with
      | object hw => exact ⟨b, hb, ih e he b (hv e he) (hw _ (Fields.mem_of_get? hb)) heb hec⟩

variable {u v w : Json}

/-- **Values are the same** if their doubles are and no two different integers stand at one
place. -/
theorem sameValue_iff : sameValue v w = true ↔
    equalBy Number.sameDouble v w = true ∧ sameIntegers v w = true := by
  have hv := allNumbers_of_forall (P := fun _ => True) (fun _ => trivial) v
  have hw := allNumbers_of_forall (P := fun _ => True) (fun _ => trivial) w
  constructor
  · intro h
    refine ⟨equalBy_both ?_ v w hv hw h h, equalBy_both ?_ v w hv hw h h⟩
    · intro a b _ _ hab _
      rw [Number.sameValue_eq, Bool.and_eq_true] at hab
      exact hab.1
    · intro a b _ _ hab _
      rw [Number.sameValue_eq, Bool.and_eq_true] at hab
      exact hab.2
  · rintro ⟨hdouble, hint⟩
    refine equalBy_both ?_ v w hv hw hdouble hint
    intro a b _ _ hab hab'
    rw [Number.sameValue_eq, hab, hab']
    rfl

theorem sameDouble_trans (huv : sameValue u v = true) (hvw : sameValue v w = true) :
    equalBy Number.sameDouble u w = true := by
  refine equalBy_trans ?_ u v w (sameValue_iff.mp huv).1 (sameValue_iff.mp hvw).1
  exact fun a b c => Number.sameDouble_trans

/-- **Equality carries over from value to value** unless different integers meet at one place. -/
theorem sameValue_trans_iff (huv : sameValue u v = true) (hvw : sameValue v w = true) :
    sameValue u w = true ↔ sameIntegers u w = true := by
  rw [sameValue_iff]
  exact and_iff_right (sameDouble_trans huv hvw)

/-- Values whose integers all are doubles hold the same integers where they hold the same doubles. -/
theorem sameIntegers_of_exact (hv : v.AllNumbers Number.Exact) (hw : w.AllNumbers Number.Exact)
    (h : equalBy Number.sameDouble v w = true) : sameIntegers v w = true := by
  refine equalBy_both ?_ v w hv hw h h
  exact fun a b ha hb hab _ => Number.sameIntegers_of_exact ha hb hab

end Json

end DocStore
