import DocStore.Proofs.Schema.Codec
/-!
# Descriptions that were read

A description of a schema may name a field several times. What is declared then is the last of its
descriptions, at the place of the first. Two things about a schema can be lost by writing and
reading it, and neither is in a schema that was read: a default of null is left out, and a type is
the one that its name stands for.

* `addAll_eq_ok`: what declaring described fields in turn amounts to.
* `describes_of_decode`: the fields of a schema that was read.
* `decode_encode_of_decode`: a schema that was read is read again as it was.
* `within_default_of_decode`: how deep a default can be.
-/

namespace DocStore

/-- The last entry of this name. -/
def Fields.last? {α : Type} (entries : Fields α) (name : String) : Option α :=
  Fields.get? entries.reverse name

/-- The type that a name stands for is the one that its own name stands for. -/
theorem FieldType.ofName_name_ofName (name : String) :
    ofName (ofName name).name = ofName name := by
  cases hkind : (ofName name).kind? with
  | none => rw [ofName_of_kind? hkind, FieldType.name, ofName_of_kind? hkind]
  | some kind =>
    by_contra hne
    obtain ⟨_, _, heq, -⟩ := kind?_of_ofName_ne hne
    rw [heq] at hkind
    cases hkind

namespace Schema

variable {s t : Schema} {v : Json} {spec : FieldSpec} {limit : Nat}

-- ---------------------------------------------------------------------------
-- Declarations
-- ---------------------------------------------------------------------------

/-- A type that was read is the one that its name stands for. -/
theorem ofName_name_of_typeOf? {type : FieldType} (h : typeOf? v = some type) :
    FieldType.ofName type.name = type := by
  unfold typeOf? at h
  split at h
  · rw [← Option.some.inj h, FieldType.ofName_name_ofName]
  · obtain ⟨hname, -⟩ := Option.filter_eq_some_iff.mp h
    rw [← Option.some.inj hname, FieldType.ofName_name_ofName]
  · cases h

/-- The parts of a declaration that is read. -/
theorem decodeField_eq_some (h : decodeField v = some spec) :
    ∃ entries, entries? ["type", "required", "default", "unique", "ref"] v = some entries ∧
      FieldType.ofName spec.type.name = spec.type ∧ spec.default? = givenDefault entries := by
  simp only [decodeField, bind, Option.bind_eq_some_iff, Option.some.injEq] at h
  obtain ⟨entries, hentries, type, ⟨named, -, htype⟩, -, -, -, -, -, -, rfl⟩ := h
  exact ⟨entries, hentries, ofName_name_of_typeOf? htype, rfl⟩

/-- **A declaration that is read is written as it is.** -/
theorem readBack_of_decodeField (h : decodeField v = some spec) : spec.readBack = spec := by
  obtain ⟨entries, -, htype, hdefault⟩ := decodeField_eq_some h
  have hkept : spec.default?.filter (fun v => !v.isNull) = spec.default? := by
    rw [hdefault, givenDefault, Option.filter_filter]
    simp only [Bool.and_self]
  rw [FieldSpec.readBack, htype, hkept]

/-- The entries of a description lie within one container less. -/
theorem within_of_entries {names : List String} {entries : Fields Json}
    (h : entries? names v = some entries) (hv : v.Within (limit + 1)) :
    ∀ e ∈ entries, e.2.Within limit := by
  unfold entries? at h
  split at h
  · rw [← Option.some.inj h]
    exact (Json.within_object.mp hv).2
  · split at h
    · rw [← Option.some.inj h]
      exact fun e he => Json.within_array.mp hv e.2 (List.of_mem_zip he).2
    · cases h
  · cases h

/-- A default stands one container inside its declaration. -/
theorem within_default_of_decodeField (h : decodeField v = some spec) (hv : v.Within (limit + 1)) :
    ∀ d, spec.default? = some d → d.Within limit := by
  intro d hd
  obtain ⟨entries, hentries, -, hdefault⟩ := decodeField_eq_some h
  rw [hdefault, givenDefault, Option.filter_eq_some_iff] at hd
  exact within_of_entries hentries hv _ (Fields.mem_of_get? hd.1)

-- ---------------------------------------------------------------------------
-- Fields
-- ---------------------------------------------------------------------------

/-- **Declaring described fields in turn** is reading each description and writing all of the
declarations over those that were there. -/
theorem addAll_eq_ok {described : List (String × Json)} (h : addAll s described = .ok t) :
    ∃ fields, (described.map fun e => (e.1, decodeField e.2)) =
        (fields.map fun e => (e.1, some e.2)) ∧
      t.fields = Fields.merge s.fields fields ∧ t.timestamps = s.timestamps := by
  -- over the descriptions, for any fields that were declared before them
  induction described generalizing s with
  | nil =>
    obtain rfl := Except.ok.inj h
    exact ⟨[], rfl, rfl, rfl⟩
  | cons e rest ih =>
    obtain ⟨name, v⟩ := e
    rw [addAll] at h
    cases hspec : decodeField v with
    | none =>
      rw [hspec] at h
      cases h
    | some spec =>
      rw [hspec] at h
      obtain ⟨fields, hfields, hmerge, htimestamps⟩ := ih h
      refine ⟨(name, spec) :: fields, ?_, hmerge, htimestamps⟩
      rw [List.map_cons, List.map_cons, hfields, hspec]

/-- **The fields of a schema that was read** are the declarations that are described, written in
turn. -/
theorem decode_eq_ok (h : decode v = .ok s) : ∃ entries described fields,
    entries? ["timestamps", "fields"] v = some entries ∧ fieldsOf? entries = some described ∧
      flag? entries "timestamps" = some s.timestamps ∧
      (described.map fun e => (e.1, decodeField e.2)) = (fields.map fun e => (e.1, some e.2)) ∧
      s.fields = Fields.ofPairs fields := by
  unfold decode at h
  split at h
  · cases h
  · rename_i entries hentries
    split at h
    · rename_i timestamps described htimestamps hdescribed
      obtain ⟨fields, hfields, hmerge, hsame⟩ := addAll_eq_ok h
      refine ⟨entries, described, fields, hentries, hdescribed, ?_, hfields, hmerge⟩
      rw [htimestamps, hsame]
      rfl
    · cases h

/-- The fields of a schema are those that are described here: in the order in which their names
first appear, each declared as the last description of its name is read. -/
structure Describes (written : List (String × Json)) (s : Schema) : Prop where
  distinct : Fields.Distinct s.fields
  names : Fields.names s.fields = (Fields.names written).eraseDups
  declared : ∀ name spec, (name, spec) ∈ s.fields →
    ∃ v, Fields.last? written name = some v ∧ decodeField v = some spec

/-- Declarations that are described are found under the names of their descriptions. -/
theorem get?_of_decoded {described : List (String × Json)} {fields : Fields FieldSpec}
    (h : (described.map fun e => (e.1, decodeField e.2)) = fields.map fun e => (e.1, some e.2))
    {name : String} (hspec : Fields.get? fields name = some spec) :
    ∃ v, Fields.get? described name = some v ∧ decodeField v = some spec := by
  have hget := Fields.get?_map fields some name
  rw [← h, Fields.get?_map, hspec] at hget
  exact Option.map_eq_some_iff.mp hget

/-- **The fields of a schema that was read** are those that were described. -/
theorem describes_of_decode {entries : Fields Json} {written : List (String × Json)}
    (h : decode v = .ok s) (hentries : entries? ["timestamps", "fields"] v = some entries)
    (hwritten : fieldsOf? entries = some (Fields.ofPairs written)) : Describes written s := by
  obtain ⟨entries', described, fields, hentries', hdescribed, -, hdecoded, hfields⟩ :=
    decode_eq_ok h
  obtain rfl := Option.some.inj (hentries.symm.trans hentries')
  obtain rfl := Option.some.inj (hwritten.symm.trans hdescribed)
  have hnames : Fields.names fields = (Fields.names written).eraseDups := by
    rw [← Fields.names_map fields some, ← hdecoded, Fields.names_map, Fields.names_ofPairs]
  -- the names that an object keeps are distinct, so that no declaration replaces another
  have hkept : s.fields = fields := by
    rw [hfields]
    refine Fields.ofPairs_of_distinct ?_
    rw [Fields.Distinct, hnames, ← Fields.names_ofPairs]
    exact Fields.distinct_ofPairs written
  refine ⟨s.distinct, by rw [hkept, hnames], ?_⟩
  intro name spec hmem
  have hget : Fields.get? fields name = some spec := by
    rw [← hkept]
    exact get?_of_mem hmem
  obtain ⟨w, hw, hdecode⟩ := get?_of_decoded hdecoded hget
  rw [Fields.get?_ofPairs] at hw
  exact ⟨w, hw, hdecode⟩

/-- Each declaration of a schema that was read is one that was described. -/
theorem exists_decodeField {described : List (String × Json)} {fields : Fields FieldSpec}
    (hdecoded : (described.map fun e => (e.1, decodeField e.2)) =
      fields.map fun e => (e.1, some e.2))
    (hfields : s.fields = Fields.ofPairs fields) :
    ∀ e ∈ s.fields, ∃ d ∈ described, decodeField d.2 = some e.2 := by
  rw [hfields]
  refine Fields.forall_ofPairs (P := fun spec => ∃ d ∈ described, decodeField d.2 = some spec) ?_
  intro e he
  have hmem : (e.1, some e.2) ∈ described.map fun d => (d.1, decodeField d.2) := by
    rw [hdecoded]
    exact List.mem_map_of_mem (f := fun e => (e.1, some e.2)) he
  obtain ⟨d, hd, heq⟩ := List.mem_map.mp hmem
  exact ⟨d, hd, (Prod.mk.inj heq).2⟩

-- ---------------------------------------------------------------------------
-- Reading again
-- ---------------------------------------------------------------------------

/-- **A schema that was read loses nothing** by being written and read. -/
theorem readBack_of_decode (h : decode v = .ok s) : s.readBack = s := by
  obtain ⟨entries, described, fields, -, -, -, hdescribed, hfields⟩ := decode_eq_ok h
  refine eq_of_fields ?_ rfl
  have hall : ∀ e ∈ s.fields, (e.1, e.2.readBack) = e := by
    intro e he
    obtain ⟨d, -, hdecode⟩ := exists_decodeField hdescribed hfields e he
    rw [readBack_of_decodeField hdecode]
  rw [fields_readBack, List.map_congr_left hall, List.map_id']

/-- **A schema that was read is read again as it was.** -/
theorem decode_encode_of_decode (h : decode v = .ok s) : decode (encode s) = .ok s := by
  rw [decode_encode, readBack_of_decode h]

/-- The defaults of a schema lie within three containers less than its description. -/
theorem within_default_of_decode (h : decode v = .ok s) (hv : v.Within (limit + 3)) :
    ∀ e ∈ s.fields, ∀ d, e.2.default? = some d → d.Within limit := by
  obtain ⟨entries, described, fields, hentries, hof, -, hdescribed, hfields⟩ := decode_eq_ok h
  intro e he
  obtain ⟨d, hd, hdecode⟩ := exists_decodeField hdescribed hfields e he
  have hwithin : d.2.Within (limit + 1) := by
    rw [fieldsOf?] at hof
    -- the fields are an object inside the description, and a declaration stands inside of it
    cases hget : Fields.get? entries "fields" with
    | none =>
      rw [hget] at hof
      rw [← Option.some.inj hof] at hd
      cases hd
    | some w =>
      rw [hget] at hof
      have hw : w.Within (limit + 2) := within_of_entries hentries hv _ (Fields.mem_of_get? hget)
      cases w with
      | object members =>
        rw [← Option.some.inj hof] at hd
        exact (Json.within_object.mp hw).2 d hd
      | _ => cases hof
  exact within_default_of_decodeField hdecode hwithin

end Schema

end DocStore
