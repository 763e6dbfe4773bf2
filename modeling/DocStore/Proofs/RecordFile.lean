import DocStore.Proofs.Json.RoundTrip
import DocStore.RecordFile
/-!
# Collection files read back

A collection file wraps the records in one more container, so records that were read one by one may
be written into a file that is too deep to be read again.

* `read?_text`: what is read from the file that was written for these records.
* `read?_sound`: what holds of records that were read from a file.
* `text_roundTrip`: which records are read back as they were written.
-/

namespace DocStore.RecordFile

/-- Records as values: distinct names, 64-bit integers. -/
def WellFormed (records : List Record) : Prop := ∀ r ∈ records, Json.WellFormed (.object r)

theorem wellFormed_nil : WellFormed [] := by
  intro r hr
  simp at hr

theorem wellFormed_value {records : List Record} :
    Json.WellFormed (value records) ↔ WellFormed records := by
  rw [value, Json.wellFormed_array, List.forall_mem_map]
  rfl

/-- The file nests one container more than its records. -/
theorem depth_value_le {records : List Record} {n : Nat} :
    (value records).depth ≤ n + 1 ↔ ∀ r ∈ records, (Json.object r).depth < n + 1 := by
  rw [value, Json.depth_array_le, List.forall_mem_map]
  simp only [Nat.lt_succ_iff]

/-- The list of some records is taken apart into them. -/
theorem recordsOf?_value (records : List Record) : recordsOf? (value records) = some records := by
  have hmap : (records.map Json.object).mapM Json.asObject? = some records := by
    induction records with
    | nil => rfl
    | cons r rest ih => simp [List.mapM_cons, Json.asObject?, ih]
  rw [recordsOf?, value]
  exact hmap

/-- A value that is taken apart into records is the list of them. -/
theorem eq_value_of_recordsOf? {v : Json} {records : List Record}
    (h : recordsOf? v = some records) : v = value records := by
  cases v with
  | array items =>
    have hitems : items.mapM Json.asObject? = some records := h
    have hmap : items = records.map Json.object := by
      clear h
      induction items generalizing records with
      | nil =>
        rw [List.mapM_nil] at hitems
        rw [← Option.some.inj hitems]
        rfl
      | cons v rest ih =>
        rw [List.mapM_cons] at hitems
        simp only [Option.bind_eq_bind, Option.bind_eq_some_iff] at hitems
        obtain ⟨r, hr, more, hmore, heq⟩ := hitems
        obtain rfl : r :: more = records := Option.some.inj heq
        rw [List.map_cons, ih hmore]
        cases v with
        | object members => rw [Option.some.inj hr]
        | _ => exact absurd hr (by simp [Json.asObject?])
    rw [hmap, value]
  | _ => exact absurd h (by simp [recordsOf?, Json.asArray?])

theorem toList_text (records : List Record) :
    (text records).toList = (value records).indentedChars 0 ++ ['\n'] := by
  rw [text, Json.indented, String.toList_append, String.toList_ofList]
  rfl

/-- **What was written is read back**, if the file is not too deep; a deeper file is refused. -/
theorem read?_text {records : List Record} (h : WellFormed records) :
    read? (text records) =
      if (value records).depth ≤ Json.maxDepth then some records else none := by
  -- the indented text is one of the value, and the line break behind it is blank
  have htext := Json.valueText_indented ⟨wellFormed_value.mpr h, Nat.le_refl _⟩ 0
  have hblank : Json.Blank ['\n'] := List.forall_mem_singleton.mpr rfl
  rw [read?, Json.read?, toList_text, Json.readWithin?_of_valueText htext hblank]
  split
  · exact recordsOf?_value records
  · rfl

/-- Records that were read are well-formed, and their file is not too deep. -/
theorem read?_sound {s : String} {records : List Record} (h : read? s = some records) :
    WellFormed records ∧ (value records).depth ≤ Json.maxDepth := by
  obtain ⟨v, hv, hrecords⟩ := Option.bind_eq_some_iff.mp h
  obtain ⟨hwf, hdepth⟩ := Json.read?_sound hv
  rw [eq_value_of_recordsOf? hrecords] at hwf hdepth
  exact ⟨wellFormed_value.mp hwf, hdepth⟩

/-- **Writing and reading are inverse.** Records are read back as they were written, except when
their file is too deep; it never is when a text was read for them. -/
theorem text_roundTrip :
    (∀ records, WellFormed records →
      (read? (text records) = some records ↔ (value records).depth ≤ Json.maxDepth)) ∧
    ∀ s records, read? s = some records → read? (text records) = some records := by
  have hback : ∀ records, WellFormed records →
      (read? (text records) = some records ↔ (value records).depth ≤ Json.maxDepth) := by
    intro records hwf
    rw [read?_text hwf]
    by_cases hdepth : (value records).depth ≤ Json.maxDepth
    · rw [if_pos hdepth]
      exact iff_of_true rfl hdepth
    · rw [if_neg hdepth]
      exact iff_of_false (by simp) hdepth
  refine ⟨hback, ?_⟩
  intro s records hread
  -- what was read is no deeper than the reader went, so its own text is not too deep either
  obtain ⟨hwf, hdepth⟩ := read?_sound hread
  exact (hback records hwf).mpr hdepth

namespace Sample

def oneFloat : Json := .number (.float ⟨false, 4503599627370496, -52, by decide⟩)

/-- Records with what is easily lost: both ends of the integers, `1` beside `1.0`, negative zero,
characters of every kind, empty containers, and members out of order. -/
def mixed : List Record :=
  [[("zeta", .int (-9223372036854775808)), ("alpha", .int 18446744073709551615), ("one", .int 1),
    ("whole", oneFloat), ("zero", .number (.float (Double.signedZero true))),
    ("text", .string "\"\\/\n\r\t\x08\x0c\x01 é😀"),
    ("", .array [.array [], .object [], .null, .bool true])],
   [("b", .object [("b", .string ""), ("a", .int 0)]), ("_id", .string "x")], []]

end Sample

/-- Records of every kind come back, and a text that is spelled in another way is stable once it is
read. -/
theorem text_roundTrip_mixed :
    (WellFormed Sample.mixed ∧ (value Sample.mixed).depth ≤ Json.maxDepth ∧
      read? (text Sample.mixed) = some Sample.mixed) ∧
    (read? " [\x7b\"b\":1E0 ,\"a\":\"x\\/\"\x7d]" =
        some [[("b", Sample.oneFloat), ("a", .string "x/")]] ∧
      read? (text [[("b", Sample.oneFloat), ("a", .string "x/")]]) =
        some [[("b", Sample.oneFloat), ("a", .string "x/")]]) := by
  have hwf : WellFormed Sample.mixed := by
    simp [WellFormed, Sample.mixed, Sample.oneFloat, Json.WellFormed, Json.WellFormedItems,
      Json.WellFormedMembers, Json.int, Fields.Distinct, Fields.names, Number.IntegerRange]
  have hdepth : (value Sample.mixed).depth ≤ Json.maxDepth := by decide
  have hread : read? " [\x7b\"b\":1E0 ,\"a\":\"x\\/\"\x7d]" =
      some [[("b", Sample.oneFloat), ("a", .string "x/")]] := rfl
  exact ⟨⟨hwf, hdepth, (text_roundTrip.1 Sample.mixed hwf).mpr hdepth⟩, hread,
    text_roundTrip.2 _ _ hread⟩

end DocStore.RecordFile
