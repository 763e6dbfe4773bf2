import DocStore.Json.Reader
import DocStore.Proofs.Json.WellFormed
/-!
# What the reader answers

Every value that is read is well-formed and no deeper than the reader was allowed to go. A reader
that may go deeper reads at least as much, and reads the same, so how deep it may go decides only
whether a text is refused.

* `readValue_sound`: a value that is read is well-formed and within the limit.
* `readValue_mono`: a greater limit changes no answer.
* `read?_sound`: what a whole text is read as.
-/

namespace DocStore.Json

variable {α : Type} {item item' : List Char → Option (α × List Char)} {close : Char}

/-- What was made of something read tells what was read, and leaves the same rest. -/
theorem of_mapped_eq_some {β : Type} (f : α → β) {r : Option (α × List Char)} {y : β}
    {rest : List Char} (h : (r.map fun p => (f p.1, p.2)) = some (y, rest)) :
    ∃ x, r = some (x, rest) ∧ f x = y := by
  obtain ⟨⟨x, rest'⟩, hr, heq⟩ := Option.map_eq_some_iff.mp h
  simp only [Prod.mk.injEq] at heq
  obtain ⟨hx, rfl⟩ := heq
  exact ⟨x, hr, hx⟩

-- ---------------------------------------------------------------------------
-- Rows of items
-- ---------------------------------------------------------------------------

/-- What holds of each item that can be read holds of all items of a row. -/
theorem readRow_forall {P : α → Prop} (hitem : ∀ s x rest, item s = some (x, rest) → P x)
    {bound : Nat} {s : List Char} {xs : List α} {rest : List Char}
    (h : readRow item close bound s = some (xs, rest)) : ∀ x ∈ xs, P x := by
  induction bound generalizing s xs rest with
  | zero => simp [readRow] at h
  | succ bound ih =>
    rw [readRow] at h
    split at h
    · simp at h
    · rename_i x after hx
      split at h
      · rename_i more hblank
        obtain ⟨ys, hys, rfl⟩ := of_mapped_eq_some (x :: ·) h
        intro y hy
        rcases List.mem_cons.mp hy with rfl | hy
        · exact hitem s y after hx
        · exact ih hys y hy
      · split at h
        · simp only [Option.some.injEq, Prod.mk.injEq] at h
          obtain ⟨rfl, rfl⟩ := h
          intro y hy
          rw [List.mem_singleton.mp hy]
          exact hitem s x after hx
        · simp at h
      · simp at h

/-- What holds of each item that can be read holds of all items of a container. -/
theorem readInside_forall {P : α → Prop} (hitem : ∀ s x rest, item s = some (x, rest) → P x)
    {s : List Char} {xs : List α} {rest : List Char}
    (h : readInside item close s = some (xs, rest)) : ∀ x ∈ xs, P x := by
  unfold readInside at h
  split at h
  · simp at h
  · split at h
    · simp only [Option.some.injEq, Prod.mk.injEq] at h
      obtain ⟨rfl, rfl⟩ := h
      simp
    · exact readRow_forall hitem h

/-- If more items can be read, every row is read as before. -/
theorem readRow_mono (hitem : ∀ s r, item s = some r → item' s = some r) {bound : Nat}
    {s : List Char} {r : List α × List Char} (h : readRow item close bound s = some r) :
    readRow item' close bound s = some r := by
  induction bound generalizing s r with
  | zero => simp [readRow] at h
  | succ bound ih =>
    rw [readRow] at h
    split at h
    · simp at h
    · rename_i x after hx
      rw [readRow, hitem s _ hx]
      split at h
      · rename_i more hblank
        obtain ⟨p, hp, heq⟩ := Option.map_eq_some_iff.mp h
        simp only [hblank, ih hp, Option.map_some]
        exact congrArg some heq
      · rename_i c more hne hblank
        simp only [hblank]
        exact h
      · simp at h

/-- If more items can be read, the inside of every container is read as before. -/
theorem readInside_mono (hitem : ∀ s r, item s = some r → item' s = some r) {s : List Char}
    {r : List α × List Char} (h : readInside item close s = some r) :
    readInside item' close s = some r := by
  unfold readInside at h ⊢
  split at h
  · simp at h
  · split at h
    · rename_i hclose
      rw [if_pos hclose]
      exact h
    · rename_i hclose
      rw [if_neg hclose]
      exact readRow_mono hitem h

-- ---------------------------------------------------------------------------
-- Scalars
-- ---------------------------------------------------------------------------

/-- Every integer that is read has 64 bits. -/
theorem wellFormed_of_numberOf? {negative : Bool} {whole fraction : List Char}
    {exponent : Option Int} {n : Number} (h : numberOf? negative whole fraction exponent = some n) :
    WellFormed (number n) := by
  unfold numberOf? at h
  dsimp only at h
  generalize (if negative then -(digitsValue whole : Int) else digitsValue whole) = signed at h
  split at h
  · rename_i hint
    simp only [Bool.and_eq_true, decide_eq_true_eq] at hint
    rw [← Option.some.inj h, WellFormed]
    exact hint.1.2
  · obtain ⟨d, -, rfl⟩ := Option.map_eq_some_iff.mp h
    trivial

/-- The parts of a number that was read. -/
theorem readUnsigned_eq_some {negative : Bool} {s rest : List Char} {n : Number}
    (h : readUnsigned negative s = some (n, rest)) :
    ∃ whole s₁ digits s₂ e, readDigits s = some (whole, s₁) ∧
      (whole.head? = some '0' → whole.length ≤ 1) ∧ readFraction s₁ = some (digits, s₂) ∧
      readExponent s₂ = some (e, rest) ∧ numberOf? negative whole digits e = some n := by
  simp only [readUnsigned, Option.bind_eq_bind] at h
  obtain ⟨⟨whole, s₁⟩, hwhole, h⟩ := Option.bind_eq_some_iff.mp h
  -- a zero in front of other digits is refused
  by_cases hlead : (whole.head? == some '0' && decide (whole.length > 1)) = true
  · rw [if_pos hlead] at h
    simp at h
  · rw [if_neg hlead] at h
    simp only [Option.bind_eq_some_iff] at h
    obtain ⟨⟨digits, s₂⟩, hdigits, ⟨e, s₃⟩, he, n', hn, h⟩ := h
    simp only [Option.some.injEq, Prod.mk.injEq] at h
    obtain ⟨rfl, rfl⟩ := h
    refine ⟨whole, s₁, digits, s₂, e, hwhole, fun hzero => ?_, hdigits, he, hn⟩
    simp only [hzero, BEq.rfl, Bool.true_and, decide_eq_true_eq] at hlead
    omega

theorem wellFormed_of_readUnsigned {negative : Bool} {s rest : List Char} {n : Number}
    (h : readUnsigned negative s = some (n, rest)) : WellFormed (number n) := by
  obtain ⟨whole, s₁, digits, s₂, e, -, -, -, -, hn⟩ := readUnsigned_eq_some h
  exact wellFormed_of_numberOf? hn

theorem wellFormed_of_readNumber {s rest : List Char} {n : Number}
    (h : readNumber s = some (n, rest)) : WellFormed (number n) := by
  unfold readNumber at h
  split at h <;> exact wellFormed_of_readUnsigned h

/-- A scalar that is read is well-formed, and no container. -/
theorem readScalar_sound {s rest : List Char} {v : Json} (h : readScalar s = some (v, rest)) :
    WellFormed v ∧ depth v = 0 := by
  unfold readScalar at h
  split at h
  · simp only [Option.some.injEq, Prod.mk.injEq] at h
    exact h.1 ▸ ⟨trivial, rfl⟩
  · simp only [Option.some.injEq, Prod.mk.injEq] at h
    exact h.1 ▸ ⟨trivial, rfl⟩
  · simp only [Option.some.injEq, Prod.mk.injEq] at h
    exact h.1 ▸ ⟨trivial, rfl⟩
  · obtain ⟨chars, -, rfl⟩ := of_mapped_eq_some (fun chars => string (String.ofList chars)) h
    exact ⟨trivial, rfl⟩
  · obtain ⟨n, hn, rfl⟩ := of_mapped_eq_some number h
    exact ⟨wellFormed_of_readNumber hn, rfl⟩

/-- A text that opens a container is no scalar. -/
theorem readScalar_opening {s : List Char} (h : s.head? = some '[' ∨ s.head? = some '{') :
    readScalar s = none := by
  cases s with
  | nil => rfl
  | cons c rest =>
    rcases h with h | h <;> (obtain rfl : c = _ := Option.some.inj h; rfl)

-- ---------------------------------------------------------------------------
-- Values
-- ---------------------------------------------------------------------------

/-- The value of a member was read by the reader of values. -/
theorem readMember_value {value : List Char → Option (Json × List Char)} {s rest : List Char}
    {m : String × Json} (h : readMember value s = some (m, rest)) :
    ∃ s', value s' = some (m.2, rest) := by
  unfold readMember at h
  split at h
  · split at h
    · simp at h
    · split at h
      · rename_i more hcolon
        obtain ⟨v, hv, rfl⟩ := of_mapped_eq_some (fun v => (_, v)) h
        exact ⟨more, hv⟩
      · simp at h
  · simp at h

/-- If more values can be read, every member is read as before. -/
theorem readMember_mono {value value' : List Char → Option (Json × List Char)}
    (hvalue : ∀ s r, value s = some r → value' s = some r) {s : List Char}
    {r : (String × Json) × List Char} (h : readMember value s = some r) :
    readMember value' s = some r := by
  unfold readMember at h ⊢
  split at h
  · rename_i more hopen
    split at h
    · simp at h
    · rename_i name after hname
      split at h
      · rename_i text hcolon
        obtain ⟨p, hp, heq⟩ := Option.map_eq_some_iff.mp h
        simp only [hvalue _ _ hp, Option.map_some]
        exact congrArg some heq
      · simp at h
  · simp at h

/-- A value that is read is well-formed, and no deeper than the reader may go. -/
theorem readValue_sound {limit : Nat} {s rest : List Char} {v : Json}
    (h : readValue limit s = some (v, rest)) : WellFormed v ∧ depth v ≤ limit := by
  induction limit generalizing s rest v with
  | zero =>
    obtain ⟨hwf, hdepth⟩ := readScalar_sound h
    exact ⟨hwf, Nat.le_of_eq hdepth⟩
  | succ limit ih =>
    rw [readValue] at h
    split at h
    · obtain ⟨items, hitems, rfl⟩ := of_mapped_eq_some array h
      have hall : ∀ x ∈ items, WellFormed x ∧ depth x ≤ limit :=
        readInside_forall (fun _ _ _ hx => ih hx) hitems
      rw [wellFormed_array, depth_array_le]
      exact ⟨fun x hx => (hall x hx).1, fun x hx => (hall x hx).2⟩
    · obtain ⟨pairs, hpairs, rfl⟩ :=
        of_mapped_eq_some (fun pairs => object (Fields.ofPairs pairs)) h
      have hall : ∀ m ∈ pairs, WellFormed m.2 ∧ depth m.2 ≤ limit := by
        refine readInside_forall (P := fun m => WellFormed m.2 ∧ depth m.2 ≤ limit) ?_ hpairs
        intro s m rest hm
        obtain ⟨s', hs'⟩ := readMember_value hm
        exact ih hs'
      -- the object keeps one of the members of each name, and drops the others
      have hkept : ∀ m ∈ Fields.ofPairs pairs, WellFormed m.2 ∧ depth m.2 ≤ limit :=
        Fields.forall_ofPairs (P := fun v => WellFormed v ∧ depth v ≤ limit) hall
      rw [wellFormed_object, depth_object_le]
      exact ⟨⟨Fields.distinct_ofPairs pairs, fun m hm => (hkept m hm).1⟩,
        fun m hm => (hkept m hm).2⟩
    · obtain ⟨hwf, hdepth⟩ := readScalar_sound h
      exact ⟨hwf, by omega⟩

/-- One container more changes no answer. -/
theorem readValue_succ {limit : Nat} {s : List Char} {r : Json × List Char}
    (h : readValue limit s = some r) : readValue (limit + 1) s = some r := by
  induction limit generalizing s r with
  | zero =>
    -- a scalar that was read opens no container
    have hscalar : readScalar (skipBlanks s) = some r := h
    rw [readValue]
    split
    · rename_i rest hopen
      rw [hopen, readScalar_opening (Or.inl rfl)] at hscalar
      simp at hscalar
    · rename_i rest hopen
      rw [hopen, readScalar_opening (Or.inr rfl)] at hscalar
      simp at hscalar
    · exact hscalar
  | succ limit ih =>
    rw [readValue] at h ⊢
    split at h
    · obtain ⟨p, hp, heq⟩ := Option.map_eq_some_iff.mp h
      rw [readInside_mono (fun _ _ hx => ih hx) hp]
      exact congrArg some heq
    · obtain ⟨p, hp, heq⟩ := Option.map_eq_some_iff.mp h
      rw [readInside_mono (fun _ _ hx => readMember_mono (fun _ _ hv => ih hv) hx) hp]
      exact congrArg some heq
    · exact h

/-- A reader that may go deeper reads the same. -/
theorem readValue_mono {limit limit' : Nat} (hle : limit ≤ limit') {s : List Char}
    {r : Json × List Char} (h : readValue limit s = some r) : readValue limit' s = some r := by
  induction hle with
  | refl => exact h
  | step _ ih => exact readValue_succ ih

/-- A greater limit changes no answer of a whole text. -/
theorem readWithin?_mono {limit limit' : Nat} (hle : limit ≤ limit') {s : List Char} {v : Json}
    (h : readWithin? limit s = some v) : readWithin? limit' s = some v := by
  unfold readWithin? at h ⊢
  split at h
  · rename_i w rest hread
    rw [readValue_mono hle hread]
    exact h
  · simp at h

/-- A whole text that is read has a well-formed value within the limit. -/
theorem readWithin?_sound {limit : Nat} {s : List Char} {v : Json}
    (h : readWithin? limit s = some v) : WellFormed v ∧ depth v ≤ limit := by
  unfold readWithin? at h
  split at h
  · rename_i v' rest hread
    split at h
    · rw [← Option.some.inj h]
      exact readValue_sound hread
    · simp at h
  · simp at h

/-- A text is read as a well-formed value of at most the greatest depth. -/
theorem read?_sound {text : String} {v : Json} (h : read? text = some v) :
    WellFormed v ∧ depth v ≤ maxDepth :=
  readWithin?_sound h

end DocStore.Json
