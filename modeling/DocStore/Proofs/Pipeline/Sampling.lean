import Mathlib.Tactic.Common
import DocStore.Pipeline.Run
/-!
# Draws

A draw scales a word to a range, and may take a second word to settle the carry of its lower half.
Together they are one quotient: that of the first word scaled, plus the carry of the second. So a
draw never leaves its range, not even where the carry adds one to its last number, and whatever the
second word is, each number of the range has a first word that draws it.

* `below_eq`: a draw as one quotient.
* `below_lt`: a draw is in its range.
* `exists_word_between`: a word that scales to a place in the range.
* `draws`: the numbers drawn in a row, and `map_some_draw`: the items at them.
* `sample_draws`: what a sample stage answers.
-/

namespace DocStore

namespace WordSource

variable {s : WordSource} {n t i count : ℕ} {α : Type}

-- ---------------------------------------------------------------------------
-- One draw
-- ---------------------------------------------------------------------------

theorem toNat_lt_wordCount (w : UInt32) : w.toNat < wordCount := w.toNat_lt

theorem carry_lt (v : UInt32) (hn : 0 < n) : v.toNat * n / wordCount < n :=
  Nat.div_lt_of_lt_mul (Nat.mul_lt_mul_of_pos_right (toNat_lt_wordCount v) hn)

/-- A draw is the first word scaled, plus the carry of the second. Where no second word is taken its
carry makes no difference. -/
theorem below_eq (hn : 0 < n) (hle : n ≤ wordCount) :
    (s.below n).1 =
      ((s.word s.used).toNat * n + (s.word (s.used + 1)).toNat * n / wordCount) / wordCount := by
  have hcarry := carry_lt (s.word (s.used + 1)) hn
  unfold below next
  dsimp only
  unfold wordCount at hcarry hle ⊢
  split
  · split <;> omega
  · omega

/-- **A draw is in its range.** -/
theorem below_lt (hn : 0 < n) (hle : n ≤ wordCount) : (s.below n).1 < n := by
  have hcarry := carry_lt (s.word (s.used + 1)) hn
  have hword : (s.word s.used).toNat + 1 ≤ wordCount := toNat_lt_wordCount _
  rw [below_eq hn hle]
  refine Nat.div_lt_of_lt_mul ?_
  calc (s.word s.used).toNat * n + (s.word (s.used + 1)).toNat * n / wordCount
      < (s.word s.used).toNat * n + n := Nat.add_lt_add_left hcarry _
    _ = ((s.word s.used).toNat + 1) * n := (Nat.succ_mul _ _).symm
    _ ≤ wordCount * n := Nat.mul_le_mul_right n hword

/-- The least word that scales, with a carry, to a place in the range. -/
theorem exists_word_between (hle : n ≤ wordCount) (ht : t < n) (hi : i < n) :
    ∃ w : UInt32, i * wordCount ≤ w.toNat * n + t ∧ w.toNat * n + t < i * wordCount + n := by
  -- the distance to the place, divided by the range and rounded up
  obtain ⟨w, hw⟩ : ∃ w, w = (i * wordCount - t + (n - 1)) / n := ⟨_, rfl⟩
  have hsplit := Nat.div_add_mod (i * wordCount - t + (n - 1)) n
  have hrest := Nat.mod_lt (i * wordCount - t + (n - 1)) (Nat.zero_lt_of_lt ht)
  rw [← hw, Nat.mul_comm] at hsplit
  have hbounds : i * wordCount ≤ w * n + t ∧ w * n + t < i * wordCount + n := by
    rcases Nat.eq_zero_or_pos i with rfl | hpos
    · have hzero : w = 0 := by
        rw [hw, Nat.zero_mul, Nat.zero_sub, Nat.zero_add]
        exact Nat.div_eq_of_lt (by omega)
      rw [hzero]
      omega
    · have hplace : wordCount ≤ i * wordCount := Nat.le_mul_of_pos_left _ hpos
      omega
  -- the place lies in the range, so the word is one
  have hlt : w < wordCount := by
    have hlast : i * wordCount + wordCount ≤ n * wordCount :=
      Nat.succ_mul i wordCount ▸ Nat.mul_le_mul_right _ hi
    refine Nat.lt_of_mul_lt_mul_right (a := n) ?_
    rw [Nat.mul_comm wordCount]
    omega
  refine ⟨UInt32.ofNat w, ?_⟩
  rw [UInt32.toNat_ofNat_of_lt' hlt]
  exact hbounds

/-- **Each number of the range is drawn**, whatever word follows the first. -/
theorem exists_below_eq (hle : n ≤ wordCount) (hi : i < n) (v : UInt32) :
    ∃ w : UInt32, ∀ s : WordSource, s.word s.used = w → s.word (s.used + 1) = v →
      (s.below n).1 = i := by
  have hn : 0 < n := Nat.zero_lt_of_lt hi
  obtain ⟨w, hlow, hhigh⟩ := exists_word_between hle (carry_lt v hn) hi
  refine ⟨w, fun s hw hv => ?_⟩
  rw [below_eq hn hle, hw, hv]
  exact Nat.div_eq_of_lt_le hlow (by rw [Nat.succ_mul]; omega)

/-- In a range of at most half the words, one word settles each number. -/
theorem exists_below_eq_of_half (hle : 2 * n ≤ wordCount) (hi : i < n) :
    ∃ w : UInt32, ∀ s : WordSource, s.word s.used = w → (s.below n).1 = i := by
  have hn : 0 < n := Nat.zero_lt_of_lt hi
  have hle' : n ≤ wordCount := by omega
  obtain ⟨w, hlow, hhigh⟩ := exists_word_between hle' hn hi
  refine ⟨w, fun s hw => ?_⟩
  have hcarry := carry_lt (s.word (s.used + 1)) hn
  rw [below_eq hn hle', hw]
  exact Nat.div_eq_of_lt_le (Nat.le_trans hlow (Nat.le_add_right _ _)) (by rw [Nat.succ_mul]; omega)

-- ---------------------------------------------------------------------------
-- Draws in a row
-- ---------------------------------------------------------------------------

/-- The numbers of several draws below `n`, and the source after them. -/
def draws (s : WordSource) (n : ℕ) : ℕ → List ℕ × WordSource
  | 0 => ([], s)
  | count + 1 =>
    let (i, s) := s.below n
    let (rest, s) := draws s n count
    (i :: rest, s)

theorem length_draws (s : WordSource) (n count : ℕ) : (s.draws n count).1.length = count := by
  induction count generalizing s with
  | zero => rfl
  | succ count ih => exact congrArg (· + 1) (ih _)

/-- All of them are in the range. -/
theorem lt_of_mem_draws (hn : 0 < n) (hle : n ≤ wordCount) :
    ∀ i ∈ (s.draws n count).1, i < n := by
  induction count generalizing s with
  | zero => exact fun i hi => absurd hi List.not_mem_nil
  | succ count ih => exact List.forall_mem_cons.mpr ⟨below_lt hn hle, ih⟩

/-- The first item is at the place drawn first. -/
theorem draw_succ {items : Array α} (hi : (s.below items.size).1 < items.size) :
    (s.draw items (count + 1)).1 =
      items[(s.below items.size).1] :: ((s.below items.size).2.draw items count).1 := by
  simp only [draw]
  rw [Array.getElem?_eq_getElem hi]
  rfl

/-- The items drawn are those at the numbers drawn. -/
theorem map_some_draw {items : Array α} (hn : 0 < items.size) (hle : items.size ≤ wordCount) :
    (s.draw items count).1.map some =
      (s.draws items.size count).1.map fun i => items[i]? := by
  induction count generalizing s with
  | zero => rfl
  | succ count ih =>
    have hi : (s.below items.size).1 < items.size := below_lt hn hle
    rw [draw_succ hi, List.map_cons, ih, ← Array.getElem?_eq_getElem hi]
    rfl

theorem head?_draw {items : Array α} (hn : 0 < items.size) (hle : items.size ≤ wordCount) :
    (s.draw items (count + 1)).1.head? = items[(s.below items.size).1]? := by
  have hi : (s.below items.size).1 < items.size := below_lt hn hle
  rw [draw_succ hi, List.head?_cons, ← Array.getElem?_eq_getElem hi]

end WordSource

-- ---------------------------------------------------------------------------
-- Sample stages
-- ---------------------------------------------------------------------------

namespace Stage

variable {records : List Record}

/-- A sample of records that are there draws from them. -/
theorem apply_sample (hne : records ≠ []) (count : ℕ) (source : WordSource) :
    (sample count).apply records source = source.draw records.toArray count := by
  have hempty : records.isEmpty = false := List.isEmpty_eq_false_iff.mpr hne
  rw [apply, hempty]
  rfl

/-- **A sample stage draws from its records, and can draw each of them.** All places drawn are in
the list, and the records at them are answered, as many as are asked for. Whatever word comes
second, each place has a first word that draws it; in a list of at most half as many records as
there are words, that word alone does. From no records nothing is drawn, and no word is taken. -/
theorem sample_draws (hne : records ≠ []) (hlt : records.length < WordSource.wordCount)
    (count : ℕ) (source : WordSource) :
    (∀ i ∈ (source.draws records.length count).1, i < records.length) ∧
    ((sample count).apply records source).1.map some =
      ((source.draws records.length count).1.map fun i => records[i]?) ∧
    ((sample count).apply records source).1.length = count ∧
    (∀ r ∈ ((sample count).apply records source).1, r ∈ records) ∧
    (∀ i < records.length, ∀ v : UInt32, ∃ w : UInt32, ∀ s : WordSource,
      s.word s.used = w → s.word (s.used + 1) = v →
        ((sample (count + 1)).apply records s).1.head? = records[i]?) ∧
    (2 * records.length ≤ WordSource.wordCount →
      ∀ i < records.length, ∃ w : UInt32, ∀ s : WordSource, s.word s.used = w →
        ((sample (count + 1)).apply records s).1.head? = records[i]?) ∧
    (sample count).apply [] source = ([], source) := by
  have hpos : 0 < records.length := List.length_pos_iff.mpr hne
  have hle : records.length ≤ WordSource.wordCount := Nat.le_of_lt hlt
  -- everything about the sample is read off from the numbers that were drawn
  have hmap : ((sample count).apply records source).1.map some =
      (source.draws records.length count).1.map fun i => records[i]? := by
    have hdraw : (source.draw records.toArray count).1.map some =
        (source.draws records.toArray.size count).1.map fun i => records.toArray[i]? :=
      WordSource.map_some_draw hpos hle
    rw [apply_sample hne]
    simpa using hdraw
  have hhead (s : WordSource) : ((sample (count + 1)).apply records s).1.head? =
      records[(s.below records.length).1]? := by
    have hdraw : (s.draw records.toArray (count + 1)).1.head? =
        records.toArray[(s.below records.toArray.size).1]? := WordSource.head?_draw hpos hle
    rw [apply_sample hne]
    simpa using hdraw
  refine ⟨WordSource.lt_of_mem_draws hpos hle, hmap, ?_, ?_, ?_, ?_, rfl⟩
  · rw [← List.length_map some, hmap, List.length_map, WordSource.length_draws]
  · intro r hr
    have hsome := List.mem_map_of_mem (f := some) hr
    rw [hmap, List.mem_map] at hsome
    obtain ⟨i, -, hi⟩ := hsome
    exact List.mem_of_getElem? hi
  · intro i hi v
    obtain ⟨w, hw⟩ := WordSource.exists_below_eq hle hi v
    exact ⟨w, fun s hfirst hsecond => by rw [hhead, hw s hfirst hsecond]⟩
  · -- in half the range of words no second word is needed
    intro hhalf i hi
    obtain ⟨w, hw⟩ := WordSource.exists_below_eq_of_half hhalf hi
    exact ⟨w, fun s hfirst => by rw [hhead, hw s hfirst]⟩

namespace Sample

def three : List Record := [[("n", .int 0)], [("n", .int 1)], [("n", .int 2)]]

/-- The first word ends just below the second place, and the second word carries it over. -/
def carrying : WordSource := .cycling [1431655765, 1431655766]

end Sample

/-- Both draws land on the second record, one of them by a carry. -/
theorem sample_draws_carried :
    (Sample.carrying.draws 3 2).1 = [1, 1] ∧
      ((sample 2).apply Sample.three Sample.carrying).1.length = 2 ∧
      ∀ r ∈ ((sample 2).apply Sample.three Sample.carrying).1, r ∈ Sample.three := by
  have hne : Sample.three ≠ [] := List.cons_ne_nil _ _
  obtain ⟨-, -, hlength, hmem, -⟩ := sample_draws hne (by decide) 2 Sample.carrying
  exact ⟨by decide, hlength, hmem⟩

end Stage

end DocStore
