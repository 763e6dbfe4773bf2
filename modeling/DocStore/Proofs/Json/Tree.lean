import DocStore.Proofs.Json.Reading
/-!
# Texts as they are written

A value keeps the last of several members of one name. A tree keeps them all, in the order in which
the text has them, so it can be said what of a text a value keeps. A text has a tree exactly if it
is JSON, and its value is that of the tree.

* `readValue_eq`: reading a value is reading a tree.
* `read?_eq`: the same of a whole text.
-/

namespace DocStore

namespace Json

/-- A text as it is written, with all members of its objects in order. -/
inductive Tree where
  | null
  | bool (value : Bool)
  | number (value : Number)
  | string (value : String)
  | array (items : List Tree)
  | object (members : List (String × Tree))

namespace Tree

mutual

/-- The value that is written. -/
def value : Tree → Json
  | null => .null
  | bool b => .bool b
  | number n => .number n
  | string s => .string s
  | array items => .array (valueItems items)
  | object members => .object (Fields.ofPairs (valueMembers members))

/-- The values of items. -/
def valueItems : List Tree → List Json
  | [] => []
  | t :: rest => value t :: valueItems rest

/-- The values of members, with their names. -/
def valueMembers : List (String × Tree) → List (String × Json)
  | [] => []
  | (name, t) :: rest => (name, value t) :: valueMembers rest

end

theorem valueItems_eq (items : List Tree) : valueItems items = items.map value := by
  induction items with
  | nil => rfl
  | cons t rest ih => rw [valueItems, ih, List.map_cons]

/-- The values of members, one by one. -/
theorem valueMembers_eq (members : List (String × Tree)) :
    valueMembers members = members.map fun e => (e.1, e.2.value) := by
  induction members with
  | nil => rfl
  | cons e rest ih => rw [valueMembers, ih, List.map_cons]

theorem value_array (items : List Tree) : (array items).value = .array (items.map value) := by
  rw [value, valueItems_eq]

theorem value_object (members : List (String × Tree)) :
    (object members).value = .object (Fields.ofPairs (members.map fun e => (e.1, e.2.value))) := by
  rw [value, valueMembers_eq]

/-- The tree of a value that is no container. -/
def ofScalar? : Json → Option Tree
  | .null => some null
  | .bool b => some (bool b)
  | .number n => some (number n)
  | .string s => some (string s)
  | .array _ | .object _ => none

end Tree

-- ---------------------------------------------------------------------------
-- Reading trees
-- ---------------------------------------------------------------------------

/-- What was read, with something else made of it. -/
def mapRead {α β : Type} (f : α → β) (r : Option (α × List Char)) : Option (β × List Char) :=
  r.map fun (x, rest) => (f x, rest)

/-- A member of an object, its value read by `value`. -/
def readNamed {α : Type} (value : List Char → Option (α × List Char)) (s : List Char) :
    Option ((String × α) × List Char) :=
  match skipBlanks s with
  | '"' :: rest =>
    match readQuoted rest with
    | none => none
    | some (name, rest) =>
      match skipBlanks rest with
      | ':' :: rest => mapRead (fun v => (String.ofList name, v)) (value rest)
      | _ => none
  | _ => none

/-- A tree that is no container. -/
def readLeaf (s : List Char) : Option (Tree × List Char) :=
  (readScalar s).bind fun (v, rest) => (Tree.ofScalar? v).map fun t => (t, rest)

/-- A tree with at most this many containers around what is inside. -/
def readTree : Nat → List Char → Option (Tree × List Char)
  | 0, s => readLeaf (skipBlanks s)
  | limit + 1, s =>
    match skipBlanks s with
    | '[' :: rest => mapRead .array (readInside (readTree limit) ']' rest)
    | '{' :: rest => mapRead .object (readInside (readNamed (readTree limit)) '}' rest)
    | s => readLeaf s

/-- The tree of a text, if it is JSON of at most this depth. -/
def treeWithin? (limit : Nat) (s : List Char) : Option Tree :=
  match readTree limit s with
  | some (t, rest) => if (skipBlanks rest).isEmpty then some t else none
  | none => none

/-- The tree of a text, if it is JSON. -/
def tree? (text : String) : Option Tree := treeWithin? maxDepth text.toList

-- ---------------------------------------------------------------------------
-- Values of trees
-- ---------------------------------------------------------------------------

variable {α β : Type} {close : Char}

theorem mapRead_mapRead {γ : Type} (g : β → γ) (f : α → β) (r : Option (α × List Char)) :
    mapRead g (mapRead f r) = mapRead (g ∘ f) r :=
  Option.map_map ..

theorem readMember_eq (value : List Char → Option (Json × List Char)) :
    readMember value = readNamed value := rfl

/-- Items that are read as something else are read in the same rows. -/
theorem readRow_mapRead (f : α → β) (item : List Char → Option (α × List Char)) (bound : Nat)
    (s : List Char) : readRow (fun s => mapRead f (item s)) close bound s =
      mapRead (List.map f) (readRow item close bound s) := by
  induction bound generalizing s with
  | zero => rfl
  | succ bound ih =>
    rw [readRow, readRow]
    cases item s with
    | none => rfl
    | some r =>
      obtain ⟨x, rest⟩ := r
      rw [mapRead, Option.map_some]
      dsimp only
      split
      · rw [ih, mapRead, mapRead, Option.map_map, Option.map_map]
        rfl
      · split <;> rfl
      · rfl

/-- What is made of each item is made of the inside of a container. -/
theorem readInside_mapRead (f : α → β) (item : List Char → Option (α × List Char))
    (s : List Char) : readInside (fun s => mapRead f (item s)) close s =
      mapRead (List.map f) (readInside item close s) := by
  unfold readInside
  cases skipBlanks s with
  | nil => rfl
  | cons c rest =>
    dsimp only
    split
    · rfl
    · exact readRow_mapRead f item _ _

/-- What is made of a value is made of the member that has it. -/
theorem readNamed_mapRead (f : α → β) (value : List Char → Option (α × List Char))
    (s : List Char) : readNamed (fun s => mapRead f (value s)) s =
      mapRead (fun e => (e.1, f e.2)) (readNamed value s) := by
  unfold readNamed
  split
  · split
    · rfl
    · split
      · rw [mapRead_mapRead, mapRead_mapRead]
        rfl
      · rfl
  · rfl

/-- A scalar is the value of its tree. -/
theorem readScalar_eq (s : List Char) : readScalar s = mapRead Tree.value (readLeaf s) := by
  rw [readLeaf]
  cases hread : readScalar s with
  | none => rfl
  | some r =>
    obtain ⟨v, rest⟩ := r
    cases v with
    -- the reader of scalars answers no container
    | array items => exact absurd (readScalar_sound hread).2 (Nat.succ_ne_zero _)
    | object members => exact absurd (readScalar_sound hread).2 (Nat.succ_ne_zero _)
    | _ => rfl

variable {limit : Nat} {s rest : List Char}

theorem readTree_array (h : skipBlanks s = '[' :: rest) :
    readTree (limit + 1) s = mapRead .array (readInside (readTree limit) ']' rest) := by
  simp only [readTree, h]

theorem readTree_object (h : skipBlanks s = '{' :: rest) :
    readTree (limit + 1) s =
      mapRead .object (readInside (readNamed (readTree limit)) '}' rest) := by
  simp only [readTree, h]

/-- A text that opens neither with a bracket nor with a brace is read as a scalar. -/
theorem readTree_leaf (hbracket : ∀ rest, skipBlanks s ≠ '[' :: rest)
    (hbrace : ∀ rest, skipBlanks s ≠ '{' :: rest) :
    readTree (limit + 1) s = readLeaf (skipBlanks s) := by
  rw [readTree]
  split
  · rename_i rest h
    exact absurd h (hbracket rest)
  · rename_i rest h
    exact absurd h (hbrace rest)
  · rfl

/-- **Reading a value is reading a tree.** -/
theorem readValue_eq (limit : Nat) (s : List Char) :
    readValue limit s = mapRead Tree.value (readTree limit s) := by
  induction limit generalizing s with
  | zero => exact readScalar_eq (skipBlanks s)
  | succ limit ih =>
    have hvalue : readValue limit = fun s => mapRead Tree.value (readTree limit s) := funext ih
    rw [readValue]
    split
    · rename_i rest hbracket
      rw [readTree_array hbracket]
      change mapRead _ _ = mapRead _ (mapRead _ _)
      -- values are taken of the items that were read, instead of while reading
      rw [hvalue, readInside_mapRead, mapRead_mapRead, mapRead_mapRead]
      exact congrFun (congrArg mapRead (funext fun items => (Tree.value_array items).symm)) _
    · rename_i rest hbrace
      rw [readTree_object hbrace]
      change mapRead (fun members => object (Fields.ofPairs members)) _ = mapRead _ (mapRead _ _)
      rw [hvalue, readMember_eq, funext (readNamed_mapRead Tree.value (readTree limit)),
        readInside_mapRead, mapRead_mapRead, mapRead_mapRead]
      exact congrFun (congrArg mapRead (funext fun members => (Tree.value_object members).symm)) _
    · rename_i hbracket hbrace
      rw [readTree_leaf hbracket hbrace]
      exact readScalar_eq _

/-- **The value of a text is that of its tree**, and a text has the one if it has the other. -/
theorem read?_eq (text : String) : read? text = (tree? text).map Tree.value := by
  rw [read?, tree?, readWithin?, treeWithin?, readValue_eq]
  cases readTree maxDepth text.toList with
  | none => rfl
  | some r =>
    rw [mapRead, Option.map_some]
    dsimp only
    split <;> rfl

end Json

end DocStore
