import DocStore.Proofs.Collection.Layout
/-!
# Records conform to their schema

What an operation stores it has validated, so in every record each declared field holds a value of
its type. The id and the timestamps are texts. This is kept by whatever rewrites the records, so it
holds of all of them at any time.

* `Record.Conforms`: what is known of a stored record.
* `Rewrites.conforms`: rewriting keeps it.
* `Storable.conforms`: it holds of every record that saving can lead to.
-/

namespace DocStore

/-- A record holds declared fields with values of their types, and texts for the fields the store
manages; timestamps only if the schema wants them. -/
structure Record.Conforms (schema : Schema) (r : Record) : Prop where
  wellFormed : Json.WellFormed (.object r)
  own : ∀ name v, Record.isReserved name = false → Fields.get? r name = some v →
    ∃ spec, (name, spec) ∈ schema.fields ∧ spec.type.kind? = some v.kind
  reserved : ∀ name v, Record.isReserved name = true → Fields.get? r name = some v →
    (∃ s, v = .string s) ∧ (name = Record.idField ∨ schema.timestamps = true)

namespace Record

variable {schema : Schema} {r : Record}

theorem isReserved_iff {name : String} : isReserved name = true ↔
    name = createdField ∨ name = updatedField ∨ name = idField := by
  simp [isReserved, reservedFields]

/-- A record that conforms has no field that a record of its schema may not have. -/
theorem Conforms.admits (h : r.Conforms schema) : ∀ e ∈ r, schema.Admits e.1 := by
  intro e he
  have hget := (Fields.mem_iff_get? (Json.wellFormed_object.mp h.wellFormed).1).mp he
  cases hreserved : isReserved e.1 with
  | false =>
    obtain ⟨spec, hspec, -⟩ := h.own e.1 e.2 hreserved hget
    exact Or.inr (Or.inl (Schema.declares_of_mem_names (List.mem_map_of_mem (f := Prod.fst) hspec)))
  | true =>
    obtain ⟨-, hname⟩ := h.reserved e.1 e.2 hreserved hget
    rcases hname with hid | htimestamps
    · exact Or.inl hid
    · rcases isReserved_iff.mp hreserved with hcreated | hupdated | hid
      · exact Or.inr (Or.inr ⟨htimestamps, Or.inl hcreated⟩)
      · exact Or.inr (Or.inr ⟨htimestamps, Or.inr hupdated⟩)
      · exact Or.inl hid

theorem Conforms.reservedLast (h : r.Conforms schema) : (reservedLast r).Conforms schema where
  wellFormed := wellFormed_reservedLast h.wellFormed
  own name v hname hv := h.own name v hname (by rwa [get?_reservedLast] at hv)
  reserved name v hname hv := h.reserved name v hname (by rwa [get?_reservedLast] at hv)

end Record

namespace Collection

variable {schema : Schema} {now raw : Json} {records records' : List Record} {r : Record}
  {ids ids' : IdSupply}

/-- A time that is put into a record is a text, and the schema wants it. -/
theorem stamp_string {v w : Json} (hv : ∃ s, v = .string s) (h : stamp schema v = some w) :
    (∃ s, w = .string s) ∧ schema.timestamps = true := by
  obtain ⟨s, rfl⟩ := hv
  refine ⟨⟨s, eq_of_stamp h⟩, ?_⟩
  by_contra hoff
  rw [stamp, if_neg hoff] at h
  cases h

theorem wellFormed_of_stamp {v w : Json} (hv : ∃ s, v = .string s) (h : stamp schema v = some w) :
    w.WellFormed := by
  obtain ⟨⟨s, rfl⟩, -⟩ := stamp_string hv h
  trivial

/-- An accepted field is declared, and has a value of its type. -/
theorem exists_spec_of_validate {selfId : Option String} {fields : Record} {name : String}
    {v : Json} (h : Validation.validate schema raw records selfId = .ok fields)
    (hv : Fields.get? fields name = some v) :
    ∃ spec, (name, spec) ∈ schema.fields ∧ spec.type.kind? = some v.kind := by
  obtain ⟨input, -, hsanitized, hcheck⟩ := Validation.validate_eq_ok.mp h
  have hget := hv
  rw [hsanitized, Validation.get?_sanitizeFields] at hget
  obtain ⟨spec, hspec, -⟩ := Option.bind_eq_some_iff.mp hget
  have hmem : (name, spec) ∈ schema.fields := Fields.mem_of_get? hspec
  exact ⟨spec, hmem, (Validation.fits_of_checkFields hcheck).type name spec hmem v hv⟩

/-- **Accepted fields make a record that conforms.** -/
theorem conforms_assemble {selfId : Option String} {fields : Record} {id : String}
    {created updated : Json} (hschema : schema.WellFormed) (hraw : raw.WellFormed)
    (hfields : Validation.validate schema raw records selfId = .ok fields)
    (hcreated : ∃ s, created = .string s) (hupdated : ∃ s, updated = .string s) :
    (Record.assemble id fields (stamp schema created) (stamp schema updated)).Conforms schema where
  wellFormed := Record.wellFormed_assemble (wellFormed_validate hschema hraw hfields)
    (fun _ hv => wellFormed_of_stamp hcreated hv) (fun _ hv => wellFormed_of_stamp hupdated hv)
  own name v hname hv := by
    rw [Record.get?_assemble _ _ _ _ hname] at hv
    exact exists_spec_of_validate hfields hv
  reserved name v hname hv := by
    -- the times are there only if the schema keeps them, the id always
    rcases Record.isReserved_iff.mp hname with rfl | rfl | rfl
    · rw [Record.get?_assemble_created] at hv
      exact (stamp_string hcreated hv).imp_right Or.inr
    · rw [Record.get?_assemble_updated] at hv
      exact (stamp_string hupdated hv).imp_right Or.inr
    · rw [Record.get?_assemble_id] at hv
      exact ⟨⟨id, (Option.some.inj hv).symm⟩, Or.inl rfl⟩

/-- A new record conforms. -/
theorem conforms_inserted (hschema : schema.WellFormed) (hnow : ∃ s, now = .string s)
    (hraw : raw.WellFormed) (h : inserted schema now records raw ids = (.ok r, ids')) :
    r.Conforms schema := by
  obtain ⟨fields, id, hfields, -, rfl⟩ := inserted_eq_ok h
  exact conforms_assemble hschema hraw hfields hnow hnow

/-- A record that was merged with one that conforms, conforms. -/
theorem conforms_merged (hschema : schema.WellFormed) (hnow : ∃ s, now = .string s)
    {existing patch : Record} (hexisting : existing.Conforms schema)
    (hpatch : Json.WellFormed (.object patch))
    (h : merged schema now records existing patch ids = (.ok r, ids')) : r.Conforms schema := by
  obtain ⟨fields, id, created, -, hfields, rfl, rfl⟩ := merged_eq_ok h
  refine conforms_assemble hschema (wellFormed_mergedFields hexisting.wellFormed hpatch) hfields
    ?_ hnow
  -- the time of creation is taken over from the stored record, where it is a text as well
  cases hget : Fields.get? existing Record.createdField with
  | none => exact hnow
  | some v => exact (hexisting.reserved _ v rfl hget).1

/-- **Rewriting keeps records conforming.** -/
theorem Rewrites.conforms (hschema : schema.WellFormed) (hnow : ∃ s, now = .string s)
    (h : ∀ r ∈ records, Record.Conforms schema r)
    (hrewrites : Rewrites schema now records ids records' ids') :
    ∀ r ∈ records', Record.Conforms schema r := by
  cases hrewrites with
  | append hraw hinserted =>
    exact Record.forall_append h (conforms_inserted hschema hnow hraw hinserted)
  | set hi hpatch hmerged =>
    exact Record.forall_set h
      (conforms_merged hschema hnow (h _ (List.mem_of_getElem? hi)) hpatch hmerged) _
  | setLast hi hpatch hmerged =>
    exact Record.forall_set h
      (conforms_merged hschema hnow (h _ (List.mem_of_getElem? hi)) hpatch hmerged).reservedLast _
  | erase i => exact Record.forall_eraseIdx h i

variable {c c₀ : Collection} {w w₀ : World}

/-- **At any time all records conform.** -/
theorem conforms_of_reaches (hschema : c₀.schema.WellFormed) (hstart : c₀.StartsEmpty w₀)
    (h : Reaches (fun _ _ k => k.op.WellFormed) c₀ w₀ c w) :
    c.schema = c₀.schema ∧ ∀ records, (c.load w).answer = .ok records →
      ∀ r ∈ records, Record.Conforms c₀.schema r := by
  induction h with
  | start =>
    refine ⟨rfl, fun records hrecords => ?_⟩
    rw [load_of_startsEmpty hstart] at hrecords
    split at hrecords
    · rw [← Except.ok.inj hrecords]
      exact List.forall_mem_nil _
    · cases hrecords
  | @step c w k _ hop ih =>
    obtain ⟨hsame, hconforms⟩ := ih
    refine ⟨(call_schema c w k).trans hsame, fun records hrecords => ?_⟩
    rw [Collection.call] at hrecords
    -- a call rewrites the records that it finds, or finds none and leaves what is stored
    rcases load_perform c { w with clock := k.clock } k.op with
      ⟨found, found', answer, hfound, hresult, -, hafter⟩ | ⟨hload, -⟩
    · obtain rfl : found' = records := Except.ok.inj (hafter.symm.trans hrecords)
      rw [load_answer_clock c w] at hfound
      rw [decision, hsame] at hresult
      exact (effect_rewrites hop hresult).conforms hschema ⟨_, rfl⟩ (hconforms found hfound)
    · rw [load_answer_clock c w] at hload
      exact hconforms records (hload.symm.trans hrecords)

/-- A record that calls with JSON values can store under a schema, in a collection that starts
empty. -/
def Storable (schema : Schema) (r : Record) : Prop :=
  ∃ (c₀ : Collection) (w₀ : World) (c : Collection) (w : World) (records : List Record),
    c₀.schema = schema ∧ c₀.StartsEmpty w₀ ∧
      Reaches (fun _ _ k => k.op.WellFormed) c₀ w₀ c w ∧ (c.load w).answer = .ok records ∧
        r ∈ records

/-- **Whatever saving can lead to conforms.** -/
theorem Storable.conforms (hschema : schema.WellFormed) (h : Storable schema r) :
    r.Conforms schema := by
  obtain ⟨c₀, w₀, c, w, records, rfl, hstart, hreaches, hload, hr⟩ := h
  exact (conforms_of_reaches hschema hstart hreaches).2 records hload r hr

end Collection

end DocStore
