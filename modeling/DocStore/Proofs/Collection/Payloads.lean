import DocStore.Proofs.Collection.Merging
import DocStore.Proofs.Collection.Upsert
/-!
# What callers cannot write

Payloads that differ in nothing but fields the store manages make no difference: what is checked,
refused, stored and answered is the same, and so are the collection, the files and the supplies
after the call. A patch leaves all reserved fields to the store. A new record may bring its own id,
so only its timestamps make no difference, as long as they are not declared like other fields.

* `merged_congr`, `inserted_congr`: the two records that are stored, and from them the three steps.
* `perform_congr`: operations that decide alike are alike.
* `perform_of_agreeBut`: every call that takes a payload.
-/

namespace DocStore

/-- The same is found under all but some names. -/
def Fields.AgreeBut {α : Type} (names : List String) (a b : Fields α) : Prop :=
  ∀ name, name ∉ names → get? a name = get? b name

namespace Collection

variable {schema : Schema} {now : Json} {records : List Record} {ids : IdSupply} {p q : Record}
  {c : Collection} {w : World} {filter : Json}

-- ---------------------------------------------------------------------------
-- The records that are stored
-- ---------------------------------------------------------------------------

/-- Patches that agree but for reserved names are the same to every record. -/
theorem merged_congr (hp : Fields.Distinct p) (hq : Fields.Distinct q)
    (h : Fields.AgreeBut Record.reservedFields p q) (existing : Record) :
    merged schema now records existing p ids = merged schema now records existing q ids := by
  have hfound : ∀ name, Fields.get? (mergedFields existing p) name =
      Fields.get? (mergedFields existing q) name := by
    intro name
    cases hname : Record.isReserved name with
    | true => rw [get?_mergedFields_reserved hp hname, get?_mergedFields_reserved hq hname]
    | false =>
      have hnot : name ∉ Record.reservedFields := by simpa [Record.isReserved] using hname
      rw [get?_mergedFields hp hname, get?_mergedFields hq hname, h name hnot]
  -- the check reads what is found under the declared names, and no more
  have hsanitized : Validation.sanitizeFields schema (mergedFields existing p) =
      Validation.sanitizeFields schema (mergedFields existing q) :=
    Validation.sanitizeFields_congr fun name _ => hfound name
  unfold merged
  simp only [Validation.validate_object, hsanitized]

/-- Where timestamps are not declared, new records that agree but for them are the same. -/
theorem inserted_congr (hcreated : schema.declares Record.createdField = false)
    (hupdated : schema.declares Record.updatedField = false)
    (h : Fields.AgreeBut [Record.createdField, Record.updatedField] p q) :
    inserted schema now records (.object p) ids = inserted schema now records (.object q) ids := by
  have hsanitized : Validation.sanitizeFields schema p = Validation.sanitizeFields schema q := by
    refine Validation.sanitizeFields_congr fun name hname => h name ?_
    rintro hmem
    rcases List.mem_pair.mp hmem with rfl | rfl
    · exact absurd hname (by rw [hcreated]; decide)
    · exact absurd hname (by rw [hupdated]; decide)
  -- the id is read from the payload itself, so that field has to be the same
  have hid : newId records (.object p) ids = newId records (.object q) ids := by
    unfold newId
    simp only [Json.asObject?, Option.bind_some, h Record.idField (by decide)]
  unfold inserted
  simp only [Validation.validate_object, hsanitized, hid]

-- ---------------------------------------------------------------------------
-- Steps
-- ---------------------------------------------------------------------------

/-- Saves of payloads that differ in times alone decide alike. -/
theorem saveStep_congr (hcreated : schema.declares Record.createdField = false)
    (hupdated : schema.declares Record.updatedField = false)
    (h : Fields.AgreeBut [Record.createdField, Record.updatedField] p q) :
    saveStep schema now (.object p) records ids = saveStep schema now (.object q) records ids := by
  rw [saveStep, saveStep, inserted_congr hcreated hupdated h]

/-- Updates by patches that differ in reserved fields alone decide alike. -/
theorem updateStep_congr (hp : Fields.Distinct p) (hq : Fields.Distinct q)
    (h : Fields.AgreeBut Record.reservedFields p q) (id : String) :
    updateStep schema now id p records ids = updateStep schema now id q records ids := by
  unfold updateStep
  simp only [merged_congr hp hq h]

/-- The step of an upsert that finds a record. -/
theorem upsertStep_congr (hp : Fields.Distinct p) (hq : Fields.Distinct q)
    (h : Fields.AgreeBut Record.reservedFields p q) {query r : Record} (hr : r ∈ records)
    (hmatches : Record.matchesQuery r query = true) :
    upsertStep schema now query p records ids = upsertStep schema now query q records ids := by
  cases hfirst : records.findIdx? fun r => Record.matchesQuery r query with
  | none =>
    have hmiss := List.findIdx?_eq_none_iff.mp hfirst r hr
    rw [hmatches] at hmiss
    cases hmiss
  | some i =>
    rw [upsertStep, upsertStep, hfirst]
    dsimp only
    rw [merged_congr hp hq h]

-- ---------------------------------------------------------------------------
-- Whole calls
-- ---------------------------------------------------------------------------

/-- **Operations that decide alike are alike.** -/
theorem perform_congr {op op' : Operation} (hfault : op.fault? = op'.fault?)
    (h : ∀ records, (c.load w).answer = .ok records →
      c.decision w op records = c.decision w op' records) : c.perform w op = c.perform w op' := by
  cases hop : op.fault? with
  | some e => rw [perform_fault hop, perform_fault (hfault ▸ hop)]
  | none =>
    have hop' : op'.fault? = none := hfault ▸ hop
    cases hload : (c.load w).answer with
    | error e => rw [perform_eq, perform_eq, hop, hop', hload]
    | ok records => rw [perform_of_found hop hload, perform_of_found hop' hload, h records hload]

/-- A record that is stored matches the filter. -/
def Finds (c : Collection) (w : World) (filter : Json) : Prop :=
  ∃ records query, (c.load w).answer = .ok records ∧ queryOf filter = .ok query ∧
    ∃ r ∈ records, Record.matchesQuery r query = true

/-- Two upserts of one filter are alike if their steps are, on the records and the query that are
found. -/
theorem perform_upsert_congr
    (h : ∀ records query, (c.load w).answer = .ok records → queryOf filter = .ok query →
      upsertStep c.schema w.now query p records (c.idSupply w) =
        upsertStep c.schema w.now query q records (c.idSupply w)) :
    c.perform w (.upsert filter (.object p)) = c.perform w (.upsert filter (.object q)) := by
  cases hquery : queryOf filter with
  | error e =>
    have hfault : ∀ patch, Operation.fault? (.upsert filter (.object patch)) = some e := by
      intro patch
      simp only [Operation.fault?, hquery]
    rw [perform_fault (hfault p), perform_fault (hfault q)]
  | ok query =>
    refine perform_congr rfl fun records hload => ?_
    -- given the query, the decision of the upsert is that of its step
    have hdecision : ∀ patch, c.decision w (.upsert filter (.object patch)) records =
        .ofStep (fun r => .record (some r))
          (upsertStep c.schema w.now query patch records (c.idSupply w))
          (c.load w).world.random := by
      intro patch
      simp only [decision, Operation.effect, hquery, patchOf]
    rw [hdecision, hdecision, h records query hload hquery]

/-- **Callers cannot write reserved fields.** -/
theorem perform_of_agreeBut (c : Collection) (w : World) :
    (∀ p q, Fields.Distinct p → Fields.Distinct q → Fields.AgreeBut Record.reservedFields p q →
      (∀ id, c.perform w (.update id (.object p)) = c.perform w (.update id (.object q))) ∧
      (∀ filter, c.Finds w filter →
        c.perform w (.upsert filter (.object p)) = c.perform w (.upsert filter (.object q)))) ∧
    (c.schema.declares Record.createdField = false →
      c.schema.declares Record.updatedField = false →
      ∀ p q, Fields.AgreeBut [Record.createdField, Record.updatedField] p q →
        c.perform w (.save (.object p)) = c.perform w (.save (.object q)) ∧
        (∀ filter, ¬ c.Finds w filter →
          c.perform w (.upsert filter (.object p)) = c.perform w (.upsert filter (.object q)))) := by
  constructor
  · intro p q hp hq hagree
    constructor
    · intro id
      refine perform_congr rfl fun records _ => ?_
      exact congrArg (Effect.ofStep .record · _) (updateStep_congr hp hq hagree id)
    · rintro filter ⟨found, query, hload, hquery, r, hr, hmatches⟩
      refine perform_upsert_congr fun records query' hload' hquery' => ?_
      obtain rfl : found = records := Except.ok.inj (hload.symm.trans hload')
      obtain rfl : query = query' := Except.ok.inj (hquery.symm.trans hquery')
      exact upsertStep_congr hp hq hagree hr hmatches
  · intro hcreated hupdated p q hagree
    constructor
    · refine perform_congr rfl fun records _ => ?_
      exact congrArg (Effect.ofStep _ · _) (saveStep_congr hcreated hupdated hagree)
    · intro filter hmisses
      refine perform_upsert_congr fun records query hload hquery => ?_
      -- no record matches, so the upsert is a save
      have hnone : (records.find? fun r => Record.matchesQuery r query) = none :=
        List.find?_eq_none.mpr fun r hr hmatches =>
          hmisses ⟨records, query, hload, hquery, r, hr, hmatches⟩
      rw [upsertStep_of_no_match hnone, upsertStep_of_no_match hnone]
      exact saveStep_congr hcreated hupdated hagree

namespace Sample

/-- An email with times that no caller may write. -/
def backdated (text : String) : Record :=
  (Record.createdField, .string "then") :: (Record.updatedField, .null) :: email text

/-- An email with these times and an id, which only a new record may bring. -/
def disguised (text : String) : Record := backdated text ++ [(Record.idField, .string "other")]

/-- The times are all that was added to the email. -/
theorem agreeBut_backdated (text : String) :
    Fields.AgreeBut [Record.createdField, Record.updatedField] (email text) (backdated text) := by
  intro name hname
  rw [List.mem_pair, not_or] at hname
  rw [backdated, Fields.get?_cons_of_ne hname.1, Fields.get?_cons_of_ne hname.2]

/-- Reserved fields are all that was added to the email. -/
theorem agreeBut_disguised (text : String) :
    Fields.AgreeBut Record.reservedFields (email text) (disguised text) := by
  intro name hname
  have huser : Record.userFields (disguised text) = email text := rfl
  have hreserved : Record.isReserved name = false := by simpa [Record.isReserved] using hname
  rw [← huser, Record.get?_userFields hreserved]

end Sample

/-- One record is stored. Payloads with reserved fields update it, and are stored beside it, as the
same payloads without. -/
theorem perform_of_agreeBut_disguised :
    (Sample.first.collection.perform Sample.first.world
        (.update (IdSupply.numberedId 1) (.object (Sample.email "c"))) =
      Sample.first.collection.perform Sample.first.world
        (.update (IdSupply.numberedId 1) (.object (Sample.disguised "c")))) ∧
    (Sample.first.collection.perform Sample.first.world
        (.upsert (.object (Sample.email "a")) (.object (Sample.email "c"))) =
      Sample.first.collection.perform Sample.first.world
        (.upsert (.object (Sample.email "a")) (.object (Sample.disguised "c")))) ∧
    (Sample.first.collection.perform Sample.first.world (.save (.object (Sample.email "b"))) =
      Sample.first.collection.perform Sample.first.world
        (.save (.object (Sample.backdated "b")))) ∧
    Sample.first.collection.perform Sample.first.world
        (.upsert (.object (Sample.email "b")) (.object (Sample.email "b"))) =
      Sample.first.collection.perform Sample.first.world
        (.upsert (.object (Sample.email "b")) (.object (Sample.backdated "b"))) := by
  obtain ⟨hpatches, hpayloads⟩ := perform_of_agreeBut Sample.first.collection Sample.first.world
  have hemail : Fields.Distinct (Sample.email "c") := List.nodup_singleton _
  have hdisguised : (Fields.names (Sample.disguised "c")).Nodup := by decide
  have hfinds : Sample.first.collection.Finds Sample.first.world (.object (Sample.email "a")) :=
    ⟨_, _, rfl, rfl, _, List.mem_singleton.mpr rfl, rfl⟩
  have hmisses :
      ¬ Sample.first.collection.Finds Sample.first.world (.object (Sample.email "b")) := by
    rintro ⟨records, query, hload, hquery, r, hr, hmatches⟩
    rw [← Except.ok.inj hload] at hr
    rw [← Except.ok.inj hquery, List.mem_singleton.mp hr] at hmatches
    cases hmatches
  have hpatched := hpatches _ _ hemail hdisguised (Sample.agreeBut_disguised "c")
  have hstored := hpayloads rfl rfl _ _ (Sample.agreeBut_backdated "b")
  exact ⟨hpatched.1 _, hpatched.2 _ hfinds, hstored.1, hstored.2 _ hmisses⟩

end Collection

end DocStore
