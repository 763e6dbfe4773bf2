import DocStore.Proofs.Json.Tree
import DocStore.Proofs.Schema.Described
import DocStore.Proofs.Yaml.Reading
/-!
# Schemas that were read

A schema is read from a JSON text, or from a schema file. Either way its fields have the order in
which the text first names them, and each is declared by the last of its descriptions. What is read
is never deeper than a JSON reader may go, so that the text of a schema that was read is read as the
same schema, and has the same text again.

* `describes_of_read?`: a schema that was read from a JSON text.
* `describes_of_answers`: a schema that was read from a node of a schema file.
* `codec_stable`: both are read again as they were.
-/

namespace DocStore

namespace Schema

variable {s : Schema} {v : Json}

-- ---------------------------------------------------------------------------
-- Texts
-- ---------------------------------------------------------------------------

/-- The schema that a text describes. -/
def read? (text : String) : Option Schema := (Json.read? text).bind fun v => (decode v).toOption

/-- The text of a schema. -/
def text (s : Schema) : String := (encode s).compact

/-- The entry `fields` of a description, by name or by place. -/
def writtenEntry : Json.Tree → Option Json.Tree
  | .object members => Fields.last? members "fields"
  | .array items => items[1]?
  | _ => none

/-- The descriptions of fields in the order in which they are written. -/
def writtenFields (t : Json.Tree) : List (String × Json.Tree) :=
  match writtenEntry t with
  | some (.object members) => members
  | _ => []

/-- **A schema that was read is read from its text**, which is no deeper than a reader may go. -/
theorem read?_text_of_decode (h : decode v = .ok s) (hv : v.Within Json.maxDepth) :
    read? s.text = some s := by
  have hwithin : ∀ e ∈ s.fields, ∀ d, e.2.default? = some d → d.Within (Json.maxDepth - 3) :=
    within_default_of_decode h hv
  have hread : Json.read? s.text = some (encode s) :=
    read?_compact_encode (fun e he d hd => (hwithin e he d hd).1)
      fun e he d hd => Nat.add_le_of_le_sub (by decide) (hwithin e he d hd).2
  rw [read?, hread, Option.bind_some, decode_encode_of_decode h]
  rfl

/-- The entry `fields` is the one that is written. -/
theorem get?_entries_value {tree : Json.Tree} {entries : Fields Json}
    (h : entries? ["timestamps", "fields"] tree.value = some entries) :
    Fields.get? entries "fields" = (writtenEntry tree).map Json.Tree.value := by
  cases tree with
  | object members =>
    rw [Json.Tree.value_object] at h
    rw [← Option.some.inj h, Fields.get?_ofPairs, ← List.map_reverse, Fields.get?_map]
    rfl
  | array items =>
    rw [Json.Tree.value_array, entries?] at h
    split at h
    · rw [← Option.some.inj h]
      -- by place the fields come second, after the flag
      match items with
      | [] => rfl
      | [_] => rfl
      | _ :: _ :: _ => rfl
    · cases h
  | _ => cases h

/-- What is described of fields is what is written of them, of each name the last. -/
theorem fieldsOf?_value {tree : Json.Tree} {entries described : Fields Json}
    (hentries : entries? ["timestamps", "fields"] tree.value = some entries)
    (h : fieldsOf? entries = some described) :
    described = Fields.ofPairs ((writtenFields tree).map fun e => (e.1, e.2.value)) := by
  rw [fieldsOf?, get?_entries_value hentries] at h
  rw [writtenFields]
  cases hentry : writtenEntry tree with
  | none =>
    rw [hentry] at h
    exact (Option.some.inj h).symm
  | some entry =>
    rw [hentry] at h
    cases entry with
    | object members =>
      rw [Option.map_some, Json.Tree.value_object] at h
      exact (Option.some.inj h).symm
    | array items =>
      rw [Option.map_some, Json.Tree.value_array] at h
      cases h
    | _ => cases h

/-- **A schema that was read from a JSON text.** -/
theorem describes_of_read? {text : String} (h : read? text = some s) :
    ∃ tree, Json.tree? text = some tree ∧
      Describes ((writtenFields tree).map fun e => (e.1, e.2.value)) s ∧ read? s.text = some s := by
  rw [read?, Json.read?_eq] at h
  obtain ⟨v, hv, hdecode⟩ := Option.bind_eq_some_iff.mp h
  obtain ⟨tree, htree, rfl⟩ := Option.map_eq_some_iff.mp hv
  -- the value of the tree was decoded, and it is no deeper than the reader goes
  have hok : decode tree.value = .ok s := by
    cases hs : decode tree.value with
    | ok t =>
      rw [hs] at hdecode
      rw [Option.some.inj hdecode]
    | error fault =>
      rw [hs] at hdecode
      cases hdecode
  have hwithin : tree.value.Within Json.maxDepth := by
    have hread : Json.read? text = some tree.value := by
      rw [Json.read?_eq, htree, Option.map_some]
    exact Json.read?_sound hread
  obtain ⟨entries, described, -, hentries, hdescribed, -⟩ := decode_eq_ok hok
  have hwritten := fieldsOf?_value hentries hdescribed
  exact ⟨tree, htree, describes_of_decode hok hentries (hwritten ▸ hdescribed),
    read?_text_of_decode hok hwithin⟩

end Schema

-- ---------------------------------------------------------------------------
-- Schema files
-- ---------------------------------------------------------------------------

namespace SchemaFile

open Yaml

variable {d : Document} {n : Yaml.Node} {s : Schema}

/-- The descriptions of fields in the order in which a node has them. -/
def FieldsAt (d : Document) (n : Yaml.Node) (written : List (String × Json)) : Prop :=
  ∃ entries, Answers (d.described ["timestamps", "fields"] n) entries ∧
    match List.lookup "fields" entries with
    | none => written = []
    | some m => ∃ fields, Answers (d.entries m) fields ∧
        List.Forall₂ (fun e w => w.1 = e.1 ∧ Answers (d.value fieldDepth e.2) w.2) fields written

/-- What a reader of schema files answers was decoded. -/
theorem answers_decoded {v : Json} (h : Answers (match Schema.decode v with
    | .ok schema => pure schema
    | .error _ => failure) s) : Schema.decode v = .ok s := by
  split at h
  · rename_i hdecode
    rw [answers_pure h]
    exact hdecode
  · exact absurd h (not_answers_failure s)

/-- The fields that are read from a node are an object made of their descriptions in order. -/
theorem exists_of_answers_fields {v : Json} (h : Answers (fields d n) v) :
    ∃ entries written, Answers (d.entries n) entries ∧
      List.Forall₂ (fun e w => w.1 = e.1 ∧ Answers (d.value fieldDepth e.2) w.2) entries written ∧
      v = .object (Fields.ofPairs written) := by
  obtain ⟨entries, hentries, h⟩ := answers_bind h
  obtain ⟨written, hwritten, h⟩ := answers_bind h
  refine ⟨entries, written, hentries, (answers_mapM hwritten).imp ?_, answers_pure h⟩
  intro e w hw
  obtain ⟨v, hv, hw⟩ := answers_bind hw
  rw [answers_pure hw]
  exact ⟨rfl, hv⟩

/-- What is read from a node is the description that the node has. -/
theorem fieldsAt_of_answers (h : Answers (schema d n) s) :
    ∃ timestamps written, FieldsAt d n written ∧
      Schema.decode (.object [("timestamps", .bool timestamps),
        ("fields", .object (Fields.ofPairs written))]) = .ok s := by
  obtain ⟨es, hes, h⟩ := answers_bind h
  -- the fields may be left out, and the flag too
  split at h
  · rename_i m hm
    split at h
    all_goals
      obtain ⟨timestamps, -, h⟩ := answers_bind h
      obtain ⟨v, hv, h⟩ := answers_bind h
      obtain ⟨entries, written, hentries, hwritten, rfl⟩ := exists_of_answers_fields hv
      refine ⟨timestamps, written, ⟨es, hes, ?_⟩, answers_decoded h⟩
      rw [hm]
      exact ⟨entries, hentries, hwritten⟩
  · rename_i hm
    split at h
    all_goals
      obtain ⟨timestamps, -, h⟩ := answers_bind h
      obtain ⟨v, hv, h⟩ := answers_bind h
      obtain rfl := answers_pure hv
      refine ⟨timestamps, [], ⟨es, hes, ?_⟩, answers_decoded h⟩
      rw [hm]

/-- Descriptions of fields are values that a reading can answer. -/
theorem FieldsAt.within {written : List (String × Json)} (h : FieldsAt d n written) :
    ∀ w ∈ written, w.2.Within fieldDepth := by
  obtain ⟨es, -, h⟩ := h
  split at h
  · rw [h]
    exact List.forall_mem_nil _
  · obtain ⟨entries, -, hwritten⟩ := h
    clear * - hwritten
    induction hwritten with
    | nil => exact List.forall_mem_nil _
    | cons hw _ ih => exact List.forall_mem_cons.mpr ⟨within_of_answers_value hw.2, ih⟩

/-- **A schema that was read from a node of a schema file.** -/
theorem describes_of_answers (h : Answers (schema d n) s) :
    ∃ written, FieldsAt d n written ∧ Schema.Describes written s ∧
      Schema.read? s.text = some s := by
  obtain ⟨timestamps, written, hat, hdecode⟩ := fieldsAt_of_answers h
  have hfields : (Json.object (Fields.ofPairs written)).Within (fieldDepth + 1) :=
    Json.within_object.mpr ⟨Fields.distinct_ofPairs _, Fields.forall_ofPairs hat.within⟩
  have hwithin : (Json.object [("timestamps", .bool timestamps),
      ("fields", .object (Fields.ofPairs written))]).Within (fieldDepth + 2) := by
    rw [Json.within_object, List.forall_mem_cons, List.forall_mem_singleton]
    exact ⟨by simp [Fields.Distinct, Fields.names], Json.within_bool _, hfields⟩
  exact ⟨written, hat, Schema.describes_of_decode hdecode rfl rfl,
    Schema.read?_text_of_decode hdecode (hwithin.mono (by decide))⟩

/-- The node that declares the schema of a collection: the last of those with its name. -/
def DeclaredAt (d : Document) (name : String) (n : Yaml.Node) : Prop :=
  ∃ top collections entries, Answers (d.described ["collections"] d.root) top ∧
    List.lookup "collections" top = some collections ∧
    Answers (d.entries collections) entries ∧ Fields.last? entries name = some n

/-- Of two lists that belong together, what is found in one is found in the other. -/
theorem exists_of_forall₂ {α β : Type} {R : α → β → Prop} {xs : Fields α} {ys : Fields β}
    (h : List.Forall₂ (fun x y => y.1 = x.1 ∧ R x.2 y.2) xs ys) {name : String} {y : β}
    (hy : Fields.get? ys name = some y) : ∃ x, Fields.get? xs name = some x ∧ R x y := by
  induction h with
  | nil => cases hy
  | @cons x y _ _ hxy _ ih =>
    obtain ⟨first, x⟩ := x
    obtain ⟨second, w⟩ := y
    obtain rfl : second = first := hxy.1
    by_cases hname : name = second
    · subst hname
      rw [Fields.get?_cons_self] at hy
      obtain rfl := Option.some.inj hy
      exact ⟨x, Fields.get?_cons_self _ _ _, hxy.2⟩
    · rw [Fields.get?_cons_of_ne hname] at hy
      rw [Fields.get?_cons_of_ne hname]
      exact ih hy

/-- Each schema of a file is declared there under its name. -/
theorem declaredAt_of_read? {text : String} {schemas : Fields Schema}
    (h : read? text = some schemas) : ∃ d, readDocument? text = some d ∧
      ∀ e ∈ schemas, ∃ n, DeclaredAt d e.1 n ∧ Answers (schema d n) e.2 := by
  obtain ⟨d, hd, hread⟩ := Option.bind_eq_some_iff.mp h
  refine ⟨d, hd, ?_⟩
  obtain ⟨top, htop, h⟩ := answers_bind (answers_of_read? hread)
  split at h
  · rename_i node hnode
    obtain ⟨entries, hentries, h⟩ := answers_bind h
    obtain ⟨pairs, hpairs, h⟩ := answers_bind h
    rw [answers_pure h]
    rintro ⟨name, s⟩ he
    have hmem : (name, s) ∈ Fields.ofPairs pairs := (List.mem_mergeSort).mp he
    -- the schemas are sorted by name, and of several of one name the last was kept
    have hget := (Fields.mem_iff_get? (Fields.distinct_ofPairs pairs)).mp hmem
    rw [Fields.get?_ofPairs] at hget
    have hsteps :
        List.Forall₂ (fun e p => p.1 = e.1 ∧ Answers (schema d e.2) p.2) entries pairs := by
      refine (answers_mapM hpairs).imp ?_
      intro e p hp
      obtain ⟨t, ht, hp⟩ := answers_bind hp
      rw [answers_pure hp]
      exact ⟨rfl, ht⟩
    obtain ⟨n, hn, hs⟩ := exists_of_forall₂ (R := fun n s => Answers (schema d n) s)
      (List.forall₂_reverse_iff.mpr hsteps) hget
    exact ⟨n, ⟨top, node, entries, htop, hnode, hentries, hn⟩, hs⟩
  · rw [answers_pure h]
    exact List.forall_mem_nil _

end SchemaFile

-- ---------------------------------------------------------------------------
-- All that is read
-- ---------------------------------------------------------------------------

namespace Schema

/-- The text of the schema is read as this very schema, so that it has the same text again. -/
structure Rereads (s : Schema) : Prop where
  same : read? s.text = some s
  text : ∀ again, read? s.text = some again → again.text = s.text

/-- A schema that is read from its text has the same text again. -/
theorem rereads_of_read? {s : Schema} (h : read? s.text = some s) : s.Rereads where
  same := h
  text := by
    intro again hagain
    rw [h] at hagain
    rw [Option.some.inj hagain]

/-- **What is read of a schema is stable.** A schema that a description stands for is read where it
was written. Read from a JSON text or from a schema file, it has the fields that the text describes,
in the order in which their names first appear and each by the last description of its name, and its
own text is read as the same schema. -/
theorem codec_stable :
    (∀ v s, decode v = .ok s → decode (encode s) = .ok s) ∧
    (∀ text s, read? text = some s →
      (∃ tree, Json.tree? text = some tree ∧
        Describes ((writtenFields tree).map fun e => (e.1, e.2.value)) s) ∧
      s.Rereads) ∧
    (∀ text schemas, SchemaFile.read? text = some schemas →
      ∃ d, Yaml.readDocument? text = some d ∧ ∀ name s, (name, s) ∈ schemas →
        (∃ n written, SchemaFile.DeclaredAt d name n ∧ SchemaFile.FieldsAt d n written ∧
          Describes written s) ∧
        s.Rereads) := by
  refine ⟨fun v s => decode_encode_of_decode, ?_, ?_⟩
  · intro text s hread
    obtain ⟨tree, htree, hdescribes, hagain⟩ := describes_of_read? hread
    exact ⟨⟨tree, htree, hdescribes⟩, rereads_of_read? hagain⟩
  · intro text schemas hread
    obtain ⟨d, hd, hall⟩ := SchemaFile.declaredAt_of_read? hread
    refine ⟨d, hd, fun name s hmem => ?_⟩
    obtain ⟨n, hn, hs⟩ := hall (name, s) hmem
    obtain ⟨written, hat, hdescribes, hagain⟩ := SchemaFile.describes_of_answers hs
    exact ⟨⟨n, written, hn, hat, hdescribes⟩, rereads_of_read? hagain⟩

namespace Sample

/-- A field is described twice, first by no description at all, and the other one has a type that is
not supported and an entry that is not known. -/
def described : String :=
  "\x7b\"fields\":\x7b\"a\":5,\"b\":\x7b\"type\":\"text\",\"note\":[]\x7d," ++
    "\"a\":\x7b\"type\":\"string\",\"default\":null\x7d\x7d\x7d"

/-- What that text describes. -/
def twoFields : Schema :=
  ((empty false).add "a" (.plain .string)).add "b" (.plain (.unsupported "text"))

/-- A collection with a field that is described twice. -/
def file : String :=
  "collections: \x7bc: \x7bfields: \x7ba: \x7btype: text\x7d, b: \x7btype: string\x7d, " ++
    "a: \x7btype: array, default: []\x7d\x7d\x7d\x7d"

end Sample

/-- The first of two fields is described again after the second, and stays the first. -/
theorem codec_stable_repeated :
    (read? Sample.described = some Sample.twoFields ∧
      decode (encode Sample.twoFields) = .ok Sample.twoFields ∧
      read? Sample.twoFields.text = some Sample.twoFields) ∧
    ∃ schemas, SchemaFile.read? Sample.file = some schemas ∧
      (schemas.map fun e => (e.1, Fields.names e.2.fields)) = [("c", ["a", "b"])] ∧
      ∀ name s, (name, s) ∈ schemas → read? s.text = some s := by
  have hread : read? Sample.described = some Sample.twoFields := rfl
  have hrereads := (codec_stable.2.1 Sample.described Sample.twoFields hread).2
  have hdecode := codec_stable.1 (encode Sample.twoFields) Sample.twoFields rfl
  refine ⟨⟨hread, hdecode, hrereads.same⟩, ?_⟩
  have hfile : (SchemaFile.read? Sample.file).map
      (fun schemas => schemas.map fun e => (e.1, Fields.names e.2.fields)) =
        some [("c", ["a", "b"])] := by
    decide +kernel
  obtain ⟨schemas, hschemas, hnames⟩ := Option.map_eq_some_iff.mp hfile
  obtain ⟨d, -, hall⟩ := codec_stable.2.2 Sample.file schemas hschemas
  exact ⟨schemas, hschemas, hnames, fun name s hmem => (hall name s hmem).2.same⟩

end Schema

end DocStore
