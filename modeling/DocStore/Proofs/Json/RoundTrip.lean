import DocStore.Proofs.Json.Grammar
/-!
# Written values read back

Both layouts of a value are texts of it in the grammar of JSON, with no more containers around each
other than the value has. So a reader that may go as deep as the value takes each layout back to it.
A deeper value is refused, because a reader that may go deep enough would read that value and no
other.

* `valueText_compact`, `valueText_indented`: the layouts are texts of the value.
* `readWithin?_of_valueText`: they are read exactly if the value is within the limit.
* `isText_compact`, `isText_indented`: the same of whole texts.
-/

namespace DocStore.Json

-- ---------------------------------------------------------------------------
-- Rows
-- ---------------------------------------------------------------------------

/-- Texts with commas between them, and a gap after each comma. -/
def row (gap : List Char) : List (List Char) → List Char
  | [] => []
  | [s] => s
  | s :: t :: rest => s ++ ',' :: gap ++ row gap (t :: rest)

variable {α : Type} {P : α → List Char → Prop} {lead gap trail space : List Char} {limit : ℕ}

/-- Texts of items make a row of them, whatever blanks stand between them. -/
theorem rowText_row (hgap : Blank gap) (htrail : Blank trail) {xs : List α} (hne : xs ≠ [])
    {text : α → List Char} (htext : ∀ x ∈ xs, P x (text x)) (hlead : Blank lead) :
    RowText P xs (lead ++ (row gap (xs.map text) ++ trail)) := by
  induction xs generalizing lead with
  | nil => exact absurd rfl hne
  | cons x more ih =>
    rw [List.forall_mem_cons] at htext
    cases more with
    | nil => exact .single ⟨lead, text x, trail, rfl, hlead, htrail, htext.1⟩
    | cons y more =>
      have hrest := ih (List.cons_ne_nil y more) htext.2 hgap
      -- the gap behind a comma is the blank in front of the next text
      have hrow : lead ++ (row gap ((x :: y :: more).map text) ++ trail) =
          (lead ++ (text x ++ [])) ++ ',' :: (gap ++ (row gap ((y :: more).map text) ++ trail)) := by
        simp [row]
      rw [hrow]
      exact .cons ⟨lead, text x, [], rfl, hlead, blank_nil, htext.1⟩ hrest

-- ---------------------------------------------------------------------------
-- Tokens and containers
-- ---------------------------------------------------------------------------

/-- The escaped characters of a string are a text of them. -/
theorem stringText_escaped (chars : List Char) : StringText chars (chars.flatMap escaped) := by
  obtain ⟨text, heq, htext⟩ := readQuoted_sound (readQuoted_flatMap_escaped chars [])
  rw [List.append_cancel_right heq]
  exact htext

/-- The text of a number is a text of it. -/
theorem numberText_jsonText {n : Number} (hwf : WellFormed (number n)) :
    NumberText n n.jsonText.toList := by
  obtain ⟨text, heq, htext⟩ := readNumber_sound (readNumber_jsonText hwf endsNumber_nil)
  rw [List.append_cancel_right heq]
  exact htext

/-- A list has a text as soon as its items have. -/
theorem valueText_items (hlead : Blank lead) (hgap : Blank gap) (htrail : Blank trail)
    {items : List Json} (hne : items ≠ []) {text : Json → List Char}
    (htext : ∀ v ∈ items, ValueText limit v (text v)) :
    ValueText (limit + 1) (array items)
      ('[' :: (lead ++ (row gap (items.map text) ++ trail) ++ [']'])) :=
  Or.inr (Or.inl ⟨items, _, .row (rowText_row hgap htrail hne htext hlead), rfl, rfl⟩)

/-- An object of distinct names has a text as soon as its values have. -/
theorem valueText_members (hlead : Blank lead) (hgap : Blank gap) (htrail : Blank trail)
    (hspace : Blank space) {members : Fields Json} (hne : members ≠ [])
    (hdistinct : Fields.Distinct members) {text : Json → List Char}
    (htext : ∀ e ∈ members, ValueText limit e.2 (text e.2)) :
    ValueText (limit + 1) (object members)
      ('{' :: (lead ++ (row gap (members.map fun e => quoted e.1 ++ ':' :: (space ++ text e.2)) ++
        trail) ++ ['}'])) := by
  have hmember : ∀ e ∈ members, MemberText (ValueText limit) e
      (quoted e.1 ++ ':' :: (space ++ text e.2)) := by
    intro e he
    have h := MemberText.mk (stringText_escaped e.1.toList) blank_nil hspace (htext e he)
    rw [String.ofList_toList] at h
    simpa [quoted] using h
  refine Or.inr (Or.inr ⟨members, _, .row (rowText_row hgap htrail hne hmember hlead), ?_, rfl⟩)
  -- the names are distinct, so no member is dropped in reading
  rw [Fields.ofPairs_of_distinct hdistinct]

-- ---------------------------------------------------------------------------
-- The layouts
-- ---------------------------------------------------------------------------

/-- Items are written with commas alone between them. -/
theorem compactItems_eq_row : ∀ items : List Json,
    compactItems items = row [] (items.map compactChars)
  | [] => rfl
  | [_] => rfl
  | v :: w :: rest => by
    rw [compactItems, compactItems_eq_row (w :: rest)]
    simp [row]

/-- Members are written with commas alone between them, each as its name, a colon and its value. -/
theorem compactMembers_eq_row : ∀ members : List (String × Json),
    compactMembers members = row [] (members.map fun e => quoted e.1 ++ ':' :: compactChars e.2)
  | [] => rfl
  | [_] => rfl
  | (name, v) :: w :: rest => by
    rw [compactMembers, compactMembers_eq_row (w :: rest)]
    simp [row]

/-- Items are written on lines of their own. -/
theorem indentedItems_eq_row (level : Nat) : ∀ items : List Json,
    indentedItems level items = row (newline level) (items.map (indentedChars level))
  | [] => rfl
  | [_] => rfl
  | v :: w :: rest => by
    rw [indentedItems, indentedItems_eq_row level (w :: rest)]
    rfl

/-- Members are written on lines of their own, with a blank behind each colon. -/
theorem indentedMembers_eq_row (level : Nat) : ∀ members : List (String × Json),
    indentedMembers level members = row (newline level)
      (members.map fun e => quoted e.1 ++ ':' :: ([' '] ++ indentedChars level e.2))
  | [] => rfl
  | [_] => rfl
  | (name, v) :: w :: rest => by
    rw [indentedMembers, indentedMembers_eq_row level (w :: rest)]
    simp [row]

variable {v : Json}

/-- A value that is no container has its compact text at every depth. -/
theorem scalarText_compact (hwf : v.WellFormed) (hdepth : v.depth = 0) :
    ScalarText v (compactChars v) := by
  cases v with
  | null => exact .null
  | bool b => cases b with
    | true => exact .true
    | false => exact .false
  | number n => exact .number (numberText_jsonText hwf)
  | string s =>
    have h := ScalarText.string (stringText_escaped s.toList)
    rwa [String.ofList_toList] at h
  | array items => exact absurd hdepth (Nat.succ_ne_zero _)
  | object members => exact absurd hdepth (Nat.succ_ne_zero _)

/-- The compact text of a value is a text of it. -/
theorem valueText_compact (h : v.Within limit) : ValueText limit v (compactChars v) := by
  induction v using induct generalizing limit with
  | null => exact .of_scalar (scalarText_compact h.1 rfl) limit
  | bool => exact .of_scalar (scalarText_compact h.1 rfl) limit
  | number => exact .of_scalar (scalarText_compact h.1 rfl) limit
  | string => exact .of_scalar (scalarText_compact h.1 rfl) limit
  | array items ih =>
    obtain ⟨limit, rfl⟩ := Nat.exists_eq_add_of_le' (Nat.le_trans (Nat.le_add_left 1 _) h.2)
    rw [within_array] at h
    cases items with
    | nil => exact Or.inr (Or.inl ⟨[], [], .empty blank_nil, rfl, rfl⟩)
    | cons v rest =>
      have htext := valueText_items blank_nil blank_nil blank_nil (List.cons_ne_nil v rest)
        fun w hw => ih w hw (h w hw)
      rw [compactChars, compactItems_eq_row]
      simpa using htext
  | object members ih =>
    obtain ⟨limit, rfl⟩ := Nat.exists_eq_add_of_le' (Nat.le_trans (Nat.le_add_left 1 _) h.2)
    rw [within_object] at h
    cases members with
    | nil => exact Or.inr (Or.inr ⟨[], [], .empty blank_nil, rfl, rfl⟩)
    | cons e rest =>
      have htext := valueText_members blank_nil blank_nil blank_nil blank_nil
        (List.cons_ne_nil e rest) h.1 fun m hm => ih m hm (h.2 m hm)
      rw [compactChars, compactMembers_eq_row]
      simpa using htext

/-- The indented text of a value is a text of it. -/
theorem valueText_indented (h : v.Within limit) (level : Nat) :
    ValueText limit v (indentedChars level v) := by
  induction v using induct generalizing limit level with
  | null => exact valueText_compact h
  | bool => exact valueText_compact h
  | number => exact valueText_compact h
  | string => exact valueText_compact h
  | array items ih =>
    cases items with
    | nil => exact valueText_compact h
    | cons v rest =>
      obtain ⟨limit, rfl⟩ := Nat.exists_eq_add_of_le' (Nat.le_trans (Nat.le_add_left 1 _) h.2)
      rw [within_array] at h
      have htext := valueText_items (blank_newline (level + 1)) (blank_newline (level + 1))
        (blank_newline level) (List.cons_ne_nil v rest)
        fun w hw => ih w hw (h w hw) (level + 1)
      rw [indentedChars, indentedItems_eq_row]
      simpa using htext
  | object members ih =>
    cases members with
    | nil => exact valueText_compact h
    | cons e rest =>
      obtain ⟨limit, rfl⟩ := Nat.exists_eq_add_of_le' (Nat.le_trans (Nat.le_add_left 1 _) h.2)
      rw [within_object] at h
      have hblank : Blank [' '] := List.forall_mem_singleton.mpr rfl
      have htext := valueText_members (blank_newline (level + 1)) (blank_newline (level + 1))
        (blank_newline level) hblank (List.cons_ne_nil e rest) h.1
        fun m hm => ih m hm (h.2 m hm) (level + 1)
      rw [indentedChars, indentedMembers_eq_row]
      simpa using htext

-- ---------------------------------------------------------------------------
-- Whole texts
-- ---------------------------------------------------------------------------

/-- **A text that nests no more containers than its value is read exactly if the value is within
the limit.** -/
theorem readWithin?_of_valueText {s : List Char} (h : ValueText v.depth v s) (htrail : Blank trail)
    (limit : Nat) : readWithin? limit (s ++ trail) = if v.depth ≤ limit then some v else none := by
  have hread : readWithin? v.depth (s ++ trail) = some v :=
    readWithin?_eq_some_iff.mpr ⟨[], s, trail, rfl, blank_nil, htrail, h⟩
  split
  · rename_i hle
    exact readWithin?_mono hle hread
  · rename_i hgt
    -- a reader with room enough reads this value, and a smaller one can read no other
    rw [Option.eq_none_iff_forall_ne_some]
    intro w hw
    have heq := (readWithin?_mono (Nat.le_of_not_le hgt) hw).symm.trans hread
    obtain rfl := Option.some.inj heq
    exact hgt (readWithin?_sound hw).2

/-- What is written compactly is read back. -/
theorem isText_compact (h : v.Within maxDepth) : IsText v v.compact := by
  rw [IsText, compact, String.toList_ofList]
  exact ⟨[], _, [], (List.append_nil _).symm, blank_nil, blank_nil, valueText_compact h⟩

/-- What is written with indents is read back. -/
theorem isText_indented (h : v.Within maxDepth) : IsText v v.indented := by
  rw [IsText, indented, String.toList_ofList]
  exact ⟨[], _, [], (List.append_nil _).symm, blank_nil, blank_nil, valueText_indented h 0⟩

end DocStore.Json
