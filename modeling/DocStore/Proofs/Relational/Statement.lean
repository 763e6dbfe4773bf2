import DocStore.Proofs.Json.NumberText
import DocStore.Relational.Statement
/-!
# Statements that are read to their end

The words of a statement hold no NUL, and quoting a name adds none. So it is the names alone that
decide whether a statement can be read.

* `fault?_eq_none_iff`: the pieces of a statement that can be read.
* `fault?_ensuring_iff`, `fault?_insertion_iff`: the names in it.
-/

namespace DocStore.Statement

theorem hasNul_eq_false_iff {s : String} : hasNul s = false ↔ '\x00' ∉ s.toList := by
  rw [hasNul, List.contains_eq_mem, decide_eq_false_iff_not]

/-- Quotes hide no NUL. -/
theorem hasNul_name (s : String) : hasNul (name s) = hasNul s := by
  rw [Bool.eq_iff_iff, hasNul, hasNul, List.contains_iff_mem, List.contains_iff_mem, name,
    quotedTwice, String.toList_ofList]
  simp only [List.cons_append, List.mem_cons, List.mem_append, List.mem_flatMap]
  constructor
  · rintro (h | ⟨c, hc, hmem⟩ | h | h)
    · exact absurd h (by decide)
    · -- a quote is doubled, and is no NUL
      split at hmem
      · rename_i hquote
        rw [hquote] at hmem
        exact absurd hmem (by decide)
      · exact List.mem_singleton.mp hmem ▸ hc
    · exact absurd h (by decide)
    · exact absurd h List.not_mem_nil
  · intro h
    exact Or.inr (Or.inl ⟨_, h, by decide⟩)

/-- A place for a value holds no NUL. -/
theorem hasNul_place (n : Nat) : hasNul ("?" ++ toString n) = false := by
  rw [hasNul_eq_false_iff, String.toList_append, Json.toList_toString, List.mem_append]
  rintro (h | h)
  · exact absurd h (by decide)
  · exact absurd (Json.isDigit_toDigits n _ h) (by decide)

-- ---------------------------------------------------------------------------
-- Pieces
-- ---------------------------------------------------------------------------

/-- A statement is cut nowhere if none of its pieces holds a NUL. -/
theorem cutPiece?_eq_none_iff {offset : Nat} {s : Statement} :
    cutPiece? offset s = none ↔ ∀ p ∈ s, hasNul p = false := by
  induction s generalizing offset with
  | nil => simp [cutPiece?]
  | cons p rest ih =>
    rw [cutPiece?, List.forall_mem_cons]
    cases hasNul p with
    | true => simp
    | false =>
      rw [if_neg (by decide), ih]
      simp

/-- **A statement can be read** exactly if none of its pieces holds a NUL. -/
theorem fault?_eq_none_iff {s : Statement} : s.fault? = none ↔ ∀ p ∈ s, hasNul p = false := by
  rw [fault?, Option.map_eq_none_iff, cutPiece?_eq_none_iff]

/-- Commas between lists matter to nothing that only words with a NUL break. -/
theorem forall_separated_iff {parts : List Statement} :
    (∀ p ∈ separated parts, hasNul p = false) ↔ ∀ s ∈ parts, ∀ p ∈ s, hasNul p = false := by
  fun_induction separated parts with
  | case1 => simp
  | case2 s => simp
  | case3 s rest hrest ih =>
    have hcomma : hasNul ", " = false := by decide
    rw [List.forall_mem_append, List.forall_mem_cons, ih, List.forall_mem_cons]
    simp only [hcomma, true_and]

-- ---------------------------------------------------------------------------
-- Names
-- ---------------------------------------------------------------------------

/-- The pieces of a column hold a NUL only in its name. -/
theorem forall_column_iff (c : String × Affinity) :
    (∀ p ∈ column c, hasNul p = false) ↔ hasNul c.1 = false := by
  have htype : hasNul (if c.2 = .none then "" else " " ++ c.2.declaredType) = false := by
    cases c.2 <;> decide
  rw [column, List.forall_mem_cons, List.forall_mem_singleton, hasNul_name, htype]
  simp only [and_true]

/-- The pieces of several columns hold a NUL only in the names of the columns. -/
theorem forall_columns_iff (cs : List (String × Affinity)) :
    (∀ s ∈ columns cs, ∀ p ∈ s, hasNul p = false) ↔ ∀ c ∈ cs, hasNul c.1 = false := by
  cases cs with
  | nil => simp [columns]
  | cons c rest =>
    have hkey : hasNul " PRIMARY KEY" = false := by decide
    rw [columns, List.forall_mem_cons, List.forall_mem_cons, List.forall_mem_append,
      List.forall_mem_singleton, forall_column_iff, List.forall_mem_map, hkey]
    simp only [forall_column_iff, and_true]

/-- **A table can be declared**, as far as reading goes, if no name has a NUL in it. -/
theorem fault?_ensuring_iff {table : String} {cs : List (String × Affinity)} :
    (ensuring table cs).fault? = none ↔
      hasNul table = false ∧ ∀ c ∈ cs, hasNul c.1 = false := by
  have hwords : hasNul "CREATE TABLE IF NOT EXISTS " = false ∧ hasNul " (" = false ∧
      hasNul ")" = false := by decide
  rw [fault?_eq_none_iff, ensuring, creation, List.forall_mem_append, List.forall_mem_append,
    forall_separated_iff, forall_columns_iff]
  simp only [List.forall_mem_cons, List.mem_nil_iff, false_implies, implies_true, hasNul_name,
    hwords, true_and, and_true]

/-- **A row can be inserted**, as far as reading goes, if no name has a NUL in it. -/
theorem fault?_insertion_iff {table : String} {names : List String} :
    (insertion table names).fault? = none ↔
      hasNul table = false ∧ ∀ n ∈ names, hasNul n = false := by
  have hwords : hasNul "INSERT INTO " = false ∧ hasNul " (" = false ∧
      hasNul ") VALUES (" = false ∧ hasNul ")" = false := by decide
  rw [fault?_eq_none_iff, insertion]
  simp only [List.forall_mem_append, forall_separated_iff, List.forall_mem_map,
    List.forall_mem_cons, List.mem_nil_iff, false_implies, implies_true, hasNul_name, hasNul_place,
    hwords, true_and, and_true]

end DocStore.Statement
