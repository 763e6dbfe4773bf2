import DocStore.Proofs.Double.Monotone
import DocStore.Proofs.Json.Transitivity
import DocStore.Proofs.Pipeline.Sorting
/-!
# Integers in sorted records

Sorting compares numbers as doubles, and equality of values does not: two integers that are not the
same, but round to one double, are level and keep the order they came in. Rounding keeps the order
of integers, so all others are sorted exactly.

* `order_int_eq_eq_iff`: integers are level if they round to one double.
* `pairwise_integersInOrder_iff`: which lists of records have their integers sorted.
* `sort_integers`: where a sort stage puts integers.
-/

namespace DocStore

namespace Record

/-- The integers at a path stand in the direction records are sorted in. -/
def IntegersInOrder (field : String) (descending : Bool) (r s : Record) : Prop :=
  ∀ m n : ℤ, r.lookup field = some (.int m) → s.lookup field = some (.int n) →
    if descending then n ≤ m else m ≤ n

/-- Two records have integers at a path that round to one double. -/
def RoundTogether (field : String) (r s : Record) : Prop :=
  ∃ m n : ℤ, r.lookup field = some (.int m) ∧ s.lookup field = some (.int n) ∧
    (Number.int m).sameDouble (.int n) = true

/-- The integers at a path have 64 bits. -/
def IntegersInRange (field : String) (records : List Record) : Prop :=
  ∀ r ∈ records, ∀ n : ℤ, r.lookup field = some (.int n) → Number.IntegerRange n

end Record

open Record

variable {field : String} {descending : Bool} {records out : List Record} {r s : Record}

theorem Record.integer_unique {m n : ℤ} (hm : r.lookup field = some (.int m))
    (hn : r.lookup field = some (.int n)) : m = n :=
  Number.int.inj (Json.number.inj (Option.some.inj (hm.symm.trans hn)))

theorem order_int (m n : ℤ) : Json.order (some (.int m)) (some (.int n)) =
    compare (Number.int m).toDouble.units (Number.int n).toDouble.units := rfl

/-- Integers are level if they round to one double. -/
theorem order_int_eq_eq_iff {m n : ℤ} : Json.order (some (.int m)) (some (.int n)) = .eq ↔
    (Number.int m).sameDouble (.int n) = true := by
  rw [order_int, compare_eq_iff_eq, Number.sameDouble, Double.sameValue, beq_iff_eq]

/-- Records whose integers round together are level. -/
theorem Record.RoundTogether.level (h : RoundTogether field r s) :
    compareAt field descending r s = .eq := by
  obtain ⟨m, n, hr, hs, hsame⟩ := h
  rw [compareAt_eq_eq_iff, hr, hs, order_int_eq_eq_iff]
  exact hsame

/-- Sorted records whose integers do not stand in order have integers that round to one double. -/
theorem integersInOrder_or_roundTogether {m n : ℤ} (hm : Number.IntegerRange m)
    (hn : Number.IntegerRange n) (hr : r.lookup field = some (.int m))
    (hs : s.lookup field = some (.int n)) (hsorted : compareAt field descending s r ≠ .lt) :
    (if descending then n ≤ m else m ≤ n) ∨ (Number.int m).sameDouble (.int n) = true := by
  rw [Number.sameDouble, Double.sameValue, beq_iff_eq]
  cases descending with
  | false =>
    rw [compareAt, if_neg Bool.false_ne_true, hr, hs, order_int, ne_eq, compare_lt_iff_lt,
      not_lt] at hsorted
    -- h | in the wrong order, they round in the other order as well, and so to one double
    rcases le_or_gt m n with h | h
    · exact .inl h
    · exact .inr (hsorted.antisymm (Number.units_toDouble_mono hn hm h.le))
  | true =>
    rw [compareAt, if_pos rfl, hr, hs, order_int, ne_eq, compare_lt_iff_lt, not_lt] at hsorted
    rcases le_or_gt n m with h | h
    · exact .inl h
    · exact .inr ((Number.units_toDouble_mono hm hn h.le).antisymm hsorted)

/-- After sorting, integers are in order or round together. -/
theorem pairwise_integersInOrder_or (h : StablySorts (compareAt field descending) records out)
    (hrange : IntegersInRange field records) :
    out.Pairwise fun r s => RoundTogether field r s ∨ IntegersInOrder field descending r s := by
  refine h.sorted.imp_of_mem fun {r s} hr hs hsorted => ?_
  by_cases htogether : RoundTogether field r s
  · exact .inl htogether
  · refine .inr fun m n hm hn => ?_
    have hcases := integersInOrder_or_roundTogether (hrange r (h.perm.mem_iff.mp hr) m hm)
      (hrange s (h.perm.mem_iff.mp hs) n hn) hm hn hsorted
    exact hcases.resolve_right fun hsame => htogether ⟨m, n, hm, hn, hsame⟩

/-- Sorted records have their integers in order exactly if those that round to one double came in
that order. -/
theorem pairwise_integersInOrder_iff (h : StablySorts (compareAt field descending) records out)
    (hrange : IntegersInRange field records) :
    out.Pairwise (IntegersInOrder field descending) ↔
      records.Pairwise fun r s =>
        RoundTogether field r s → IntegersInOrder field descending r s := by
  have hcases := pairwise_integersInOrder_or h hrange
  rw [List.pairwise_iff_forall_sublist, List.pairwise_iff_forall_sublist]
  constructor
  · -- level records keep their order, so what holds of them after sorting held before
    intro hout r s hsub htogether
    exact hout ((h.pair_sublist_iff htogether.level).mpr hsub)
  · intro hrecords r s hsub
    obtain htogether | horder := List.pairwise_iff_forall_sublist.mp hcases hsub
    · exact hrecords ((h.pair_sublist_iff htogether.level).mp hsub) htogether
    · exact horder

/-- Integers that doubles hold round together only if they are equal. -/
theorem Record.RoundTogether.integersInOrder (h : RoundTogether field r s)
    (hr : ∀ n : ℤ, r.lookup field = some (.int n) → n.natAbs ≤ Grouping.exactLimit)
    (hs : ∀ n : ℤ, s.lookup field = some (.int n) → n.natAbs ≤ Grouping.exactLimit) :
    IntegersInOrder field descending r s := by
  obtain ⟨m, n, hm, hn, hsame⟩ := h
  have hexact {k : ℤ} (hk : k.natAbs ≤ Grouping.exactLimit) : Number.Exact (.int k) := by
    intro i hi
    rw [← Number.int.inj hi]
    exact hk
  have hequal := Number.sameIntegers_of_exact (hexact (hr m hm)) (hexact (hs n hn)) hsame
  obtain rfl : m = n := beq_iff_eq.mp hequal
  intro i j hi hj
  obtain rfl := integer_unique hm hi
  obtain rfl := integer_unique hn hj
  split <;> exact le_rfl

/-- **Integers are sorted as the doubles they round to.** -/
theorem sort_integers (hrange : IntegersInRange field records) (descending : Bool)
    (source : WordSource) :
    (∀ m n : ℤ, Json.order (some (.int m)) (some (.int n)) = .eq ↔
      (Number.int m).sameDouble (.int n) = true) ∧
    ((Stage.sort field descending).apply records source).1.Pairwise (fun r s =>
      RoundTogether field r s ∨ IntegersInOrder field descending r s) ∧
    (((Stage.sort field descending).apply records source).1.Pairwise
        (IntegersInOrder field descending) ↔
      records.Pairwise fun r s =>
        RoundTogether field r s → IntegersInOrder field descending r s) ∧
    ((∀ r ∈ records, ∀ n : ℤ, r.lookup field = some (.int n) → n.natAbs ≤ Grouping.exactLimit) →
      ((Stage.sort field descending).apply records source).1.Pairwise
        (IntegersInOrder field descending)) := by
  have hsorts := (Stage.stablySorts_iff_apply field descending records source).mpr rfl
  have hiff := pairwise_integersInOrder_iff hsorts hrange
  refine ⟨fun m n => order_int_eq_eq_iff, pairwise_integersInOrder_or hsorts hrange, hiff, ?_⟩
  intro hexact
  refine hiff.mpr (List.pairwise_of_forall_mem_list fun r hr s hs htogether => ?_)
  exact htogether.integersInOrder (hexact r hr) (hexact s hs)

namespace Record.Sample

def odd : Record := [("n", .int 9007199254740993)]

/-- Its integer is that of `odd` as a double. -/
def even : Record := [("n", .int 9007199254740992)]

theorem lookup_odd : odd.lookup "n" = some (.int 9007199254740993) := rfl

theorem lookup_even : even.lookup "n" = some (.int 9007199254740992) := rfl

/-- The integers of both records have 64 bits. -/
theorem integersInRange : IntegersInRange "n" [odd, even] := by
  rw [IntegersInRange, List.forall_mem_cons, List.forall_mem_singleton]
  constructor
  · intro n hn
    rw [← integer_unique lookup_odd hn]
    decide
  · intro n hn
    rw [← integer_unique lookup_even hn]
    decide

end Record.Sample

/-- Two integers that are not the same are level, and the greater stays before the other. -/
theorem sort_integers_rounded :
    Json.sameValue (.int 9007199254740993) (.int 9007199254740992) = false ∧
      Json.order (some (.int 9007199254740993)) (some (.int 9007199254740992)) = .eq ∧
      ¬ ((Stage.sort "n" false).apply [Sample.odd, Sample.even] (.cycling [])).1.Pairwise
        (IntegersInOrder "n" false) := by
  have hsame : (Number.int 9007199254740993).sameDouble (.int 9007199254740992) = true := by
    decide +kernel
  obtain ⟨hlevel, -, horder, -⟩ := sort_integers Sample.integersInRange false (.cycling [])
  refine ⟨by decide +kernel, (hlevel _ _).mpr hsame, fun hsorted => ?_⟩
  have hpair := List.rel_of_pairwise_cons (horder.mp hsorted) (List.mem_singleton_self _)
    ⟨_, _, Sample.lookup_odd, Sample.lookup_even, hsame⟩
  exact absurd (hpair _ _ Sample.lookup_odd Sample.lookup_even) (by decide)

end DocStore
