/-!
# Cutting text

* `Text.pieces`: the pieces between the separators; there is one more piece than separators.
* `Text.pieces_append`: cutting at a separator.
* `Text.not_mem_of_mem_pieces`: no piece holds a separator.
* `Text.cut`: what stands before and behind the first separator.
* `Text.cut_append`: where a text is cut.
-/

namespace DocStore

namespace Text

/-- The pieces of a row of characters between separators. -/
def pieces (separator : Char) : List Char → List (List Char)
  | [] => [[]]
  | c :: rest =>
    if c = separator then [] :: pieces separator rest
    else
      match pieces separator rest with
      | [] => [[c]]
      | piece :: others => (c :: piece) :: others

/-- The pieces of a text between separators. -/
def split (separator : Char) (text : String) : List String :=
  -- cut as characters, so that every law is one of lists
  (pieces separator text.toList).map String.ofList

/-- What stands before the first separator, and what stands behind it if there is one. -/
def cut (separator : Char) : List Char → List Char × Option (List Char)
  | [] => ([], none)
  | c :: rest =>
    if c = separator then ([], some rest)
    else
      let (before, behind) := cut separator rest
      (c :: before, behind)

/-- Even an empty text has a piece: the empty one. -/
theorem pieces_ne_nil (separator : Char) (s : List Char) : pieces separator s ≠ [] := by
  cases s with
  | nil => simp [pieces]
  | cons c rest =>
    simp only [pieces]
    split
    · simp
    · split <;> simp

/-- Cutting at one separator cuts both sides apart from each other. -/
theorem pieces_append (separator : Char) (a b : List Char) :
    pieces separator (a ++ separator :: b) = pieces separator a ++ pieces separator b := by
  induction a with
  | nil => exact if_pos rfl
  | cons c rest ih =>
    rw [List.cons_append, pieces, pieces]
    by_cases hc : c = separator
    · rw [if_pos hc, if_pos hc, ih, List.cons_append]
    · rw [if_neg hc, if_neg hc, ih]
      cases hrest : pieces separator rest with
      | nil => exact absurd hrest (pieces_ne_nil separator rest)
      | cons piece others => rfl

/-- A text without separators is its only piece. -/
theorem pieces_of_not_mem {separator : Char} {s : List Char} (h : separator ∉ s) :
    pieces separator s = [s] := by
  induction s with
  | nil => rfl
  | cons c rest ih =>
    rw [List.mem_cons, not_or] at h
    rw [pieces, if_neg (Ne.symm h.1), ih h.2]

/-- Cutting leaves no separator behind, in whichever piece. -/
theorem not_mem_of_mem_pieces {separator : Char} {s piece : List Char}
    (h : piece ∈ pieces separator s) : separator ∉ piece := by
  induction s generalizing piece with
  | nil =>
    obtain rfl := List.mem_singleton.mp h
    exact List.not_mem_nil
  | cons c rest ih =>
    rw [pieces] at h
    split at h
    · obtain rfl | h := List.mem_cons.mp h
      · exact List.not_mem_nil
      · exact ih h
    · -- the character joins the first piece, and it is no separator; the other pieces are those of
      -- the rest
      rename_i hc
      cases hrest : pieces separator rest with
      | nil => exact absurd hrest (pieces_ne_nil separator rest)
      | cons first others =>
        rw [hrest] at h ih
        obtain rfl | h := List.mem_cons.mp h
        · intro hmem
          obtain heq | hmem := List.mem_cons.mp hmem
          · exact hc heq.symm
          · exact ih List.mem_cons_self hmem
        · exact ih (List.mem_cons_of_mem _ h)

/-- A text is cut at its first separator: what stands before it holds none. -/
theorem cut_append {separator : Char} {before : List Char} (h : separator ∉ before)
    (behind : List Char) : cut separator (before ++ separator :: behind) = (before, some behind) := by
  induction before with
  | nil => exact if_pos rfl
  | cons c rest ih =>
    rw [List.mem_cons, not_or] at h
    rw [List.cons_append, cut, if_neg (Ne.symm h.1), ih h.2]

end Text

end DocStore
