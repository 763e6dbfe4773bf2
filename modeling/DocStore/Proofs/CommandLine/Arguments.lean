import DocStore.CommandLine.Run
import DocStore.Proofs.Json.RoundTrip
/-!
# Values given as arguments

A field or filter is given as a name and a text with an equals sign between them. The text stands
for the value it is a JSON text of, or else for itself. So each value can be given by its compact
text, whatever that text holds, and each text that is no JSON can be given as it is.

* `pair?_argument`, `mapM_pair?_arguments`: arguments are cut where they were put together.
* `valueOf_of_isText`, `valueOf_of_not_isText`: what a text stands for.
* `names_recordOf`, `get?_recordOf`: the record of some pairs.
* `recordOf_arguments`: the record that is given by arguments.
-/

namespace DocStore.CommandLine

-- ---------------------------------------------------------------------------
-- Cutting arguments
-- ---------------------------------------------------------------------------

/-- An argument is cut at its first equals sign, so the text may hold more of them. -/
theorem pair?_argument {name : String} (h : '=' ∉ name.toList) (text : String) :
    pair? (name ++ "=" ++ text) = some (name, text) := by
  have hchars : (name ++ "=" ++ text).toList = name.toList ++ '=' :: text.toList := by
    rw [String.toList_append, String.toList_append, List.append_assoc]
    rfl
  rw [pair?, hchars, Text.cut_append h]
  simp only [String.ofList_toList]

/-- A row of arguments is cut into its pairs. -/
theorem mapM_pair?_arguments {given : List (String × String)}
    (h : ∀ e ∈ given, '=' ∉ e.1.toList) :
    (given.map fun e => e.1 ++ "=" ++ e.2).mapM pair? = some given := by
  induction given with
  | nil => rfl
  | cons e rest ih =>
    rw [List.forall_mem_cons] at h
    rw [List.map_cons, List.mapM_cons, pair?_argument h.1, ih h.2]
    rfl

-- ---------------------------------------------------------------------------
-- The values of texts
-- ---------------------------------------------------------------------------

variable {text : String} {v : Json}

theorem valueOf_of_isText (h : Json.IsText v text) : valueOf text = v := by
  rw [valueOf, Json.read?_eq_some_iff.mpr h]
  rfl

theorem valueOf_of_not_isText (h : ∀ v, ¬ Json.IsText v text) : valueOf text = .string text := by
  rw [valueOf, Json.read?_eq_none_iff.mpr h]
  rfl

/-- A name stays where it is first given. -/
theorem names_recordOf (pairs : List (String × String)) :
    Fields.names (recordOf pairs) = (Fields.names pairs).eraseDups := by
  rw [recordOf, Fields.names_ofPairs]
  exact congrArg List.eraseDups (Fields.names_map pairs valueOf)

/-- The last text of a name counts. -/
theorem get?_recordOf (pairs : List (String × String)) (name : String) :
    Fields.get? (recordOf pairs) name = (Fields.get? pairs.reverse name).map valueOf := by
  rw [recordOf, Fields.get?_ofPairs, ← List.map_reverse]
  exact Fields.get?_map pairs.reverse valueOf name

-- ---------------------------------------------------------------------------
-- The record of arguments
-- ---------------------------------------------------------------------------

/-- **Values and texts as arguments.** Values that are given by their compact texts make the record
that has the last value of each name, with the names in the order in which they are first given. A
text that is no JSON is the value of its name as it stands, among whatever other pairs, if the name
is not given again. -/
theorem recordOf_arguments :
    (∀ given : Fields Json, (∀ e ∈ given, '=' ∉ e.1.toList ∧ e.2.Within Json.maxDepth) →
      ∃ pairs, (given.map fun e => e.1 ++ "=" ++ e.2.compact).mapM pair? = some pairs ∧
        Fields.names (recordOf pairs) = (Fields.names given).eraseDups ∧
        ∀ name, Fields.get? (recordOf pairs) name = Fields.get? given.reverse name) ∧
    ∀ name text, '=' ∉ name.toList → (∀ v, ¬ Json.IsText v text) →
      pair? (name ++ "=" ++ text) = some (name, text) ∧
        ∀ before behind, name ∉ Fields.names behind →
          Fields.get? (recordOf (before ++ (name, text) :: behind)) name = some (.string text) := by
  constructor
  · intro given h
    obtain ⟨pairs, hpairs⟩ : ∃ pairs, pairs = given.map fun e => (e.1, e.2.compact) := ⟨_, rfl⟩
    refine ⟨pairs, ?_, ?_, ?_⟩
    · -- no name has an equals sign, so each argument is cut right after it
      have hnames : ∀ e ∈ pairs, '=' ∉ e.1.toList := by
        rw [hpairs, List.forall_mem_map]
        exact fun e he => (h e he).1
      rw [← mapM_pair?_arguments hnames, hpairs, List.map_map]
      rfl
    · rw [names_recordOf, hpairs]
      exact congrArg List.eraseDups (Fields.names_map given Json.compact)
    · intro name
      rw [get?_recordOf, hpairs, ← List.map_reverse, Fields.get?_map, Option.map_map]
      -- the pair that is given last counts, and its text is read back
      cases hget : Fields.get? given.reverse name with
      | none => rfl
      | some v =>
        have hmem : (name, v) ∈ given := List.mem_reverse.mp (Fields.mem_of_get? hget)
        exact congrArg some (valueOf_of_isText (Json.isText_compact (h _ hmem).2))
  · intro name text hname htext
    refine ⟨pair?_argument hname text, fun before behind hbehind => ?_⟩
    -- no pair behind has the name, so this one is the last that does
    have hlast : Fields.get? behind.reverse name = none := by
      rw [Fields.get?_eq_none_iff, Fields.names, List.map_reverse, List.mem_reverse]
      exact hbehind
    rw [get?_recordOf, List.reverse_append, List.reverse_cons, Fields.get?_append,
      Fields.get?_append, hlast, Option.none_or, Fields.get?_cons_self, Option.some_or,
      Option.map_some, valueOf_of_not_isText htext]

namespace Sample

/-- Values whose texts hold equals signs and quotes or look like other values, one of them given
again. -/
def values : Fields Json :=
  [("b", .string "x=\"y"), ("", .string "3"), ("a", .array [.null, .int (-3)]),
    ("b", .object [("k=", .object [])])]

end Sample

/-- Two values of one name beside others, and a text that opens like a number and is none. -/
theorem recordOf_arguments_repeated :
    ((∀ e ∈ Sample.values, '=' ∉ e.1.toList ∧ e.2.Within Json.maxDepth) ∧
      ∃ pairs, ["b=\"x=\\\"y\"", "=\"3\"", "a=[null,-3]", "b=\x7b\"k=\":\x7b\x7d\x7d"].mapM pair? =
          some pairs ∧
        Fields.names (recordOf pairs) = ["b", "", "a"] ∧
        ∀ name, Fields.get? (recordOf pairs) name = Fields.get? Sample.values.reverse name) ∧
    ('=' ∉ "b".toList ∧ (∀ v, ¬ Json.IsText v "01 = 1") ∧
      pair? "b=01 = 1" = some ("b", "01 = 1") ∧
      Fields.get? (recordOf [("b", "5"), ("b", "01 = 1"), ("a", "true")]) "b" =
        some (.string "01 = 1")) := by
  have hvalues : ∀ e ∈ Sample.values, '=' ∉ e.1.toList ∧ e.2.Within Json.maxDepth := by
    simp [Sample.values, Json.Within, Json.WellFormed, Json.WellFormedItems,
      Json.WellFormedMembers, Json.depth, Json.depthItems, Json.depthMembers, Json.int,
      Json.maxDepth, Fields.Distinct, Fields.names, Number.IntegerRange]
  have hname : '=' ∉ "b".toList := by decide
  have htext : ∀ v, ¬ Json.IsText v "01 = 1" := Json.read?_eq_none_iff.mp rfl
  have htexts := recordOf_arguments.2 "b" "01 = 1" hname htext
  exact ⟨⟨hvalues, recordOf_arguments.1 Sample.values hvalues⟩, hname, htext, htexts.1,
    htexts.2 [("b", "5")] [("a", "true")] (by decide)⟩

end DocStore.CommandLine
