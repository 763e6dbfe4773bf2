import DocStore.Proofs.Collection.Identity
/-!
# Records hold the fields of their schema

Every record that an operation stores is laid out from accepted fields, so it has no field but
declared ones, its id and, if the schema wants them, the timestamps. This asks nothing of the schema
or of the arguments.

* `LaidOut`: a property that records have by their layout.
* `forall_of_reaches`: it holds of all records at any time.
* `laidOut_admits`: the names of the fields in records.
-/

namespace DocStore

/-- A record of this schema may have a field of this name. -/
def Schema.Admits (schema : Schema) (name : String) : Prop :=
  name = Record.idField ∨ schema.declares name = true ∨
    schema.timestamps = true ∧ (name = Record.createdField ∨ name = Record.updatedField)

namespace Collection

variable {schema : Schema} {P : Record → Prop}

/-- A property that every record has as it is laid out, for this schema. -/
structure LaidOut (schema : Schema) (P : Record → Prop) : Prop where
  assemble : ∀ {raw : Json} {records : List Record} {selfId : Option String} {fields : Record},
    Validation.validate schema raw records selfId = .ok fields → ∀ id created updated,
      P (Record.assemble id fields (stamp schema created) (stamp schema updated))
  reservedLast : ∀ {r : Record}, P r → P (Record.reservedLast r)

section Decisions

variable {now raw : Json} {records records' : List Record} {r : Record} {ids ids' : IdSupply}

theorem LaidOut.inserted (hP : LaidOut schema P)
    (h : inserted schema now records raw ids = (.ok r, ids')) : P r := by
  obtain ⟨fields, id, hfields, -, rfl⟩ := inserted_eq_ok h
  exact hP.assemble hfields id now now

theorem LaidOut.merged (hP : LaidOut schema P) {existing patch : Record}
    (h : merged schema now records existing patch ids = (.ok r, ids')) : P r := by
  obtain ⟨fields, id, created, -, hfields, -, rfl⟩ := merged_eq_ok h
  exact hP.assemble hfields id created now

/-- Whatever rewrites the records leaves them laid out. -/
theorem LaidOut.rewrites (hP : LaidOut schema P) (h : ∀ r ∈ records, P r)
    (hrewrites : Rewrites schema now records ids records' ids') : ∀ r ∈ records', P r := by
  cases hrewrites with
  | append hraw hinserted => exact Record.forall_append h (hP.inserted hinserted)
  | set hi hpatch hmerged => exact Record.forall_set h (hP.merged hmerged) _
  | setLast hi hpatch hmerged =>
    exact Record.forall_set h (hP.reservedLast (hP.merged hmerged)) _
  | erase i => exact Record.forall_eraseIdx h i

/-- **Whatever an operation decides keeps the property.** -/
theorem LaidOut.replaced (hP : LaidOut schema P) (h : ∀ r ∈ records, P r) {op : Operation}
    {random : WordSource} {answer : Answer}
    (hresult : (op.effect schema now records ids random).result =
      .ok (.replace records' answer)) : ∀ r ∈ records', P r := by
  -- one case for each step by which an operation replaces records
  rcases effect_replacedBy hresult with
    ⟨hstep, -⟩ | ⟨hstep, -⟩ | ⟨hquery, hstep, -⟩ | ⟨hstep, -⟩
  · obtain ⟨s, hinserted, heq⟩ := saveStep_eq_ok hstep
    obtain ⟨rfl, -⟩ := Change.replace.inj heq
    exact Record.forall_append h (hP.inserted hinserted)
  · rcases updateStep_eq_ok hstep with ⟨-, hkeep⟩ | ⟨i, s, -, hmerged, heq⟩
    · cases hkeep
    · obtain ⟨rfl, -⟩ := Change.replace.inj heq
      exact Record.forall_set h (hP.merged hmerged) i
  · rcases upsertStep_eq_ok hstep with ⟨i, s, -, hmerged, heq⟩ | ⟨-, s, hinserted, heq⟩
    · obtain ⟨rfl, -⟩ := Change.replace.inj heq
      exact Record.forall_set h (hP.reservedLast (hP.merged hmerged)) i
    · obtain ⟨rfl, -⟩ := Change.replace.inj heq
      exact Record.forall_append h (hP.inserted hinserted)
  · rcases deleteStep_eq_ok hstep with ⟨-, hkeep⟩ | ⟨i, -, heq⟩
    · cases hkeep
    · obtain ⟨rfl, -⟩ := Change.replace.inj heq
      exact Record.forall_eraseIdx h i

end Decisions

variable {c c₀ : Collection} {w w₀ : World} {allowed : Collection → World → Call → Prop}

/-- **At any time all records have the property.** They are found as long as the file could be made
when it was first asked for. -/
theorem forall_of_reaches (hP : LaidOut c₀.schema P) (hstart : c₀.StartsEmpty w₀)
    (h : Reaches allowed c₀ w₀ c w) :
    c.schema = c₀.schema ∧ ∃ records, (∀ r ∈ records, P r) ∧
      (c.load w).answer =
        if (c₀.ensureFile w₀.files).2 then .ok records else .error .file := by
  induction h with
  | start =>
    exact ⟨rfl, [], fun _ hr => absurd hr List.not_mem_nil, load_of_startsEmpty hstart⟩
  | @step c w k _ _ ih =>
    obtain ⟨hschema, records, hrecords, hload⟩ := ih
    refine ⟨(call_schema c w k).trans hschema, ?_⟩
    rw [← load_answer_clock c w k.clock] at hload
    rw [Collection.call]
    -- the call replaced the records that it found, or left what is found
    rcases load_perform c { w with clock := k.clock } k.op with
      ⟨found, found', answer, hfound, hresult, -, hafter⟩ | ⟨hsame, -⟩
    · rw [hfound] at hload
      split at hload
      · rename_i hmade
        obtain rfl := Except.ok.inj hload
        rw [decision, hschema] at hresult
        exact ⟨found', hP.replaced hrecords hresult, by rw [hafter, if_pos hmade]⟩
      · cases hload
    · exact ⟨records, hrecords, hsame.trans hload⟩

-- ---------------------------------------------------------------------------
-- The names of fields
-- ---------------------------------------------------------------------------

/-- A record has a time only if the schema keeps times. -/
theorem admits_of_mem_stamp {name : String} {v : Json} {e : String × Json}
    (hname : name = Record.createdField ∨ name = Record.updatedField)
    (he : e ∈ Record.optionalField name (stamp schema v)) : schema.Admits e.1 := by
  obtain ⟨rfl, hv⟩ := Record.mem_optionalField he
  refine Or.inr (Or.inr ⟨?_, hname⟩)
  by_contra hoff
  rw [stamp, if_neg hoff] at hv
  cases hv

/-- **No field gets into a record** but the id, declared fields and the timestamps. -/
theorem laidOut_admits (schema : Schema) :
    LaidOut schema fun r => ∀ e ∈ r, schema.Admits e.1 := by
  constructor
  · intro raw records selfId fields hfields id created updated e he
    obtain ⟨input, -, rfl, -⟩ := Validation.validate_eq_ok.mp hfields
    rw [Record.assemble, List.mem_append, List.mem_append, List.mem_cons] at he
    -- huser) | hcreated) | hupdated | the id, a declared field, or one of the two times
    rcases he with ((rfl | huser) | hcreated) | hupdated
    · exact Or.inl rfl
    · have hmem := (List.mem_filter.mp huser).1
      exact Or.inr (Or.inl (Validation.declares_of_mem_sanitizeFields (List.mem_map_of_mem hmem)))
    · exact admits_of_mem_stamp (Or.inl rfl) hcreated
    · exact admits_of_mem_stamp (Or.inr rfl) hupdated
  · intro r hr e he
    rw [Record.reservedLast, List.mem_append] at he
    rcases he with huser | hreserved
    · exact hr e (List.mem_filter.mp huser).1
    · exact hr e (Record.mem_flatMap_optionalField hreserved).2

end Collection

end DocStore
