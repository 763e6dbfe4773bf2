import DocStore.Proofs.Json.WellFormed
import DocStore.Schema.File
import Mathlib.Data.List.Forall2
/-!
# What a reading of YAML answers

A reading that goes through several steps answers what the steps answer in turn. From this it
follows what a value can be that a node stands for, whatever aliases it goes through.

* `answers_bind`, `answers_mapM`: what the steps of a reading answer.
* `within_of_answers_value`: values are well-formed, and no deeper than the reading may go.
-/

namespace DocStore.Yaml

variable {α β : Type}

/-- A reading can answer this: it does so with some number of aliases that it may still follow. -/
def Answers (r : Reading α) (x : α) : Prop := ∃ left left', r.run left = some (x, left')

-- ---------------------------------------------------------------------------
-- Steps
-- ---------------------------------------------------------------------------

/-- A reading in two steps answers what the second makes of the first one's answer. -/
theorem answers_bind {r : Reading α} {f : α → Reading β} {y : β} (h : Answers (r >>= f) y) :
    ∃ x, Answers r x ∧ Answers (f x) y := by
  obtain ⟨left, left', hrun⟩ := h
  rw [StateT.run_bind] at hrun
  obtain ⟨⟨x, between⟩, hx, hy⟩ := Option.bind_eq_some_iff.mp hrun
  exact ⟨x, ⟨left, between, hx⟩, ⟨between, left', hy⟩⟩

theorem answers_pure {x y : α} (h : Answers (pure x : Reading α) y) : y = x := by
  obtain ⟨left, left', hrun⟩ := h
  rw [StateT.run_pure] at hrun
  exact (Prod.mk.inj (Option.some.inj hrun)).1.symm

theorem not_answers_failure (y : α) : ¬ Answers (failure : Reading α) y := by
  rintro ⟨left, left', hrun⟩
  cases hrun

/-- What a reading of the items of a list answers is answered for each of them. -/
theorem answers_mapM {f : α → Reading β} {xs : List α} {ys : List β}
    (h : Answers (xs.mapM f) ys) : List.Forall₂ (fun x y => Answers (f x) y) xs ys := by
  induction xs generalizing ys with
  | nil =>
    rw [answers_pure h]
    exact .nil
  | cons x rest ih =>
    rw [List.mapM_cons] at h
    obtain ⟨y, hy, h⟩ := answers_bind h
    obtain ⟨more, hmore, h⟩ := answers_bind h
    rw [answers_pure h]
    exact .cons hy (ih hmore)

/-- What is answered for each item has what each answer has. -/
theorem forall_of_answers_mapM {f : α → Reading β} {P : β → Prop} {xs : List α} {ys : List β}
    (h : Answers (xs.mapM f) ys) (hf : ∀ x y, Answers (f x) y → P y) : ∀ y ∈ ys, P y := by
  have hsteps := answers_mapM h
  clear h
  induction hsteps with
  | nil => exact List.forall_mem_nil P
  | cons hy _ ih => exact List.forall_mem_cons.mpr ⟨hf _ _ hy, ih⟩

theorem answers_of_read? {d : Document} {r : Reading α} {x : α} (h : d.read? r = some x) :
    Answers r x := by
  obtain ⟨⟨_, left'⟩, hrun, rfl⟩ := Option.map_eq_some_iff.mp h
  exact ⟨d.aliasLimit, left', hrun⟩

-- ---------------------------------------------------------------------------
-- Values
-- ---------------------------------------------------------------------------

/-- An integer that a number means has 64 bits. -/
theorem integerRange_of_ofNumber {s : String} {n : Int} (h : Meaning.ofNumber s = .int n) :
    Number.IntegerRange n := by
  have hfloat : Meaning.ofFloat s ≠ .int n := by
    unfold Meaning.ofFloat
    split_ifs <;> [skip; skip; split] <;> simp
  unfold Meaning.ofNumber at h
  split at h
  · split at h
    · rename_i hrange
      obtain rfl := Meaning.int.inj h
      exact hrange
    · split at h
      · cases h
      · exact absurd h hfloat
  · exact absurd h hfloat

/-- An integer that a plain text means has 64 bits. -/
theorem integerRange_of_meaning {s : String} {n : Int} (h : Meaning.of s = .int n) :
    Number.IntegerRange n := by
  unfold Meaning.of at h
  split at h
  · cases h
  · split at h
    · cases h
    · exact integerRange_of_ofNumber h

/-- A plain text means a scalar. -/
theorem within_of_plainJson? {text : String} {v : Json} (h : Node.plainJson? text = some v) :
    v.Within 0 := by
  unfold Node.plainJson? at h
  split at h
  all_goals cases h
  case h_4.refl hmeaning => exact Json.within_int.mpr (integerRange_of_meaning hmeaning)
  all_goals simp

/-- The value of a scalar is well-formed, and no container. -/
theorem within_of_scalarJson? {tag : Option String} {style : ScalarStyle} {text : String}
    {v : Json} (h : Node.scalarJson? tag style text = some v) : v.Within 0 := by
  unfold Node.scalarJson? at h
  split at h
  · split at h
    · exact within_of_plainJson? h
    · cases h
      exact Json.within_string _
  · split at h
    · obtain ⟨b, -, rfl⟩ := Option.map_eq_some_iff.mp h
      exact Json.within_bool _
    · split at h
      · split at h
        · rename_i hmeaning
          cases h
          exact Json.within_int.mpr (integerRange_of_ofNumber hmeaning)
        · cases h
      · split at h
        · split at h
          · cases h
            exact Json.within_null
          · obtain ⟨d, -, rfl⟩ := Option.map_eq_some_iff.mp h
            exact Json.within_float _
        · split at h
          · split at h
            · cases h
              exact Json.within_null
            · cases h
          · cases h
            exact Json.within_string _

/-- A scalar node stands for a scalar, whatever its tag. -/
theorem within_of_answers_scalar {props : Properties} {style : ScalarStyle} {text : String}
    {v : Json} (h : Answers (Document.scalar props style text) v) : v.Within 0 := by
  unfold Document.scalar at h
  split at h
  · exact absurd h (not_answers_failure v)
  · split at h
    · rename_i w hw
      rw [answers_pure h]
      exact within_of_scalarJson? hw
    · exact absurd h (not_answers_failure v)

/-- **Values that are read** are well-formed, and no deeper than the reading may go. -/
theorem within_of_answers_value {d : Document} {depth : Nat} {n : Node} {v : Json}
    (h : Answers (d.value depth n) v) : v.Within depth := by
  induction depth generalizing n v with
  | zero =>
    rw [Document.value] at h
    obtain ⟨target, -, h⟩ := answers_bind h
    cases target with
    | scalar props style text => exact within_of_answers_scalar h
    | _ => exact absurd h (not_answers_failure v)
  | succ depth ih =>
    rw [Document.value] at h
    obtain ⟨target, -, h⟩ := answers_bind h
    cases target with
    | scalar props style text => exact (within_of_answers_scalar h).mono (Nat.zero_le _)
    | sequence props items =>
      dsimp only at h
      split at h
      · exact absurd h (not_answers_failure v)
      · obtain ⟨values, hvalues, h⟩ := answers_bind h
        rw [answers_pure h, Json.within_array]
        exact forall_of_answers_mapM hvalues fun _ _ => ih
    | mapping props entries =>
      dsimp only at h
      split at h
      · exact absurd h (not_answers_failure v)
      · obtain ⟨members, hmembers, h⟩ := answers_bind h
        -- every value of the mapping is read with one container less
        have hall : ∀ m ∈ members, m.2.Within depth := by
          refine forall_of_answers_mapM hmembers fun e m hm => ?_
          obtain ⟨name, -, hm⟩ := answers_bind hm
          obtain ⟨w, hw, hm⟩ := answers_bind hm
          rw [answers_pure hm]
          exact ih hw
        rw [answers_pure h, Json.within_object]
        exact ⟨Fields.distinct_ofPairs members, Fields.forall_ofPairs hall⟩
    | aliasOf a => exact absurd h (not_answers_failure v)

end DocStore.Yaml
