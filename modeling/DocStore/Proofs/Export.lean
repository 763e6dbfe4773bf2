import DocStore.Export
import DocStore.Proofs.Collection.Layout
import DocStore.Proofs.Relational.Table
/-!
# Exports that lose no record

A table that is declared for a schema has a column for every field that a record of the schema may
have, and under no other name. So of the records of a collection each is accepted, as long as no two
have the same id, and the rows of the table are the records in their order.

* `Schema.mem_columnNames_iff`: the columns of a table for a schema.
* `Table.Holds`: a table that holds records, see `Holds.exportRecord` and `Holds.exportRows`.
* `Collection.export_complete`: the export of a collection that started empty.
-/

namespace DocStore

-- ---------------------------------------------------------------------------
-- Records as rows
-- ---------------------------------------------------------------------------

namespace Record

/-- The values of a record as they are handed to a table. -/
def cells (r : Record) : Fields Cell := r.map fun (name, v) => (name, Cell.ofJson v)

theorem names_cells (r : Record) : r.cells.names = Fields.names r := by
  rw [Fields.names, Fields.names, cells, List.map_map]
  rfl

/-- What is handed over under a name is the cell of the value there. -/
theorem get?_cells (r : Record) (name : String) :
    Fields.get? r.cells name = (Fields.get? r name).map Cell.ofJson := by
  induction r with
  | nil => rfl
  | cons e rest ih =>
    obtain ⟨n, v⟩ := e
    rw [cells, List.map_cons]
    by_cases hn : name = n
    · rw [hn, Fields.get?_cons_self, Fields.get?_cons_self]
      rfl
    · rw [Fields.get?_cons_of_ne hn, Fields.get?_cons_of_ne hn]
      exact ih

end Record

/-- An export is complete if every record was inserted. -/
theorem ExportReport.isComplete_iff {report : ExportReport} :
    report.isComplete = true ↔ ∀ o ∈ report.rows, o.isInserted = true := by
  have hcount : report.inserted ≤ report.rows.length := List.countP_le_length
  rw [← List.countP_eq_length, isComplete, failed, beq_iff_eq, ← inserted]
  omega

/-- **A table for a schema has columns for the fields that records may have**, and no others. -/
theorem Schema.mem_columnNames_iff {schema : Schema} {name : String} :
    name ∈ schema.columns.map Prod.fst ↔ schema.Admits name := by
  have hdeclared : name ∈ Fields.names schema.fields ↔ schema.declares name = true := by
    refine ⟨declares_of_mem_names, fun h => ?_⟩
    obtain ⟨spec, hspec⟩ := Option.isSome_iff_exists.mp h
    exact Fields.mem_names_of_get? hspec
  rw [columns, List.map_append, List.mem_append, List.map_cons, List.mem_cons, List.map_map, Admits,
    or_assoc, ← hdeclared]
  refine or_congr_right (or_congr Iff.rfl ?_)
  -- the columns of the times are there only if the schema keeps times
  by_cases htimestamps : schema.timestamps = true <;> simp [htimestamps]

-- ---------------------------------------------------------------------------
-- Tables that hold records
-- ---------------------------------------------------------------------------

/-- The rows of a table for a schema are those of these records: counted from one, with the ids of
the records. -/
structure Table.Holds (t : Table) (table : String) (schema : Schema) (records : List Record) :
    Prop where
  name : t.name = table
  columns : t.columns = schema.columns
  declared : t.Declared
  numbered : t.Numbered
  ids : t.rows.map (fun row => row.cells.head?) =
    records.map fun r => (Record.id? r).map Cell.text

namespace Table

variable {t : Table} {table : String} {schema : Schema} {records : List Record} {r : Record}

theorem Holds.length (h : t.Holds table schema records) : t.rows.length = records.length := by
  simpa using congrArg List.length h.ids

/-- A record of a schema has fields only for the columns of a table for the schema. -/
theorem mem_columnNames_of_admits (hcolumns : t.columns = schema.columns)
    (hr : ∀ e ∈ r, schema.Admits e.1) : ∀ n ∈ r.cells.names, n ∈ t.columnNames := by
  intro n hn
  rw [Record.names_cells] at hn
  obtain ⟨e, he, rfl⟩ := List.mem_map.mp hn
  rw [columnNames, hcolumns, Schema.mem_columnNames_iff]
  exact hr e he

/-- The first cell of a row is the id of its record. -/
theorem Holds.head?_cellsFor (h : t.Holds table schema records)
    (hr : ∀ e ∈ r, schema.Admits e.1) {id : String} (hid : Record.id? r = some id) :
    (t.cellsFor r.cells).head? = some (.text id) := by
  obtain ⟨others, hcolumns⟩ : ∃ others, t.columns = (Record.idField, .text) :: others :=
    ⟨_, h.columns⟩
  have hcell := h.declared.cellFor (mem_columnNames_of_admits h.columns hr)
    (hcolumns ▸ List.mem_cons_self : (Record.idField, Affinity.text) ∈ t.columns)
  rw [Record.get?_cells, Record.get?_of_id? hid] at hcell
  rw [cellsFor, hcolumns, List.map_cons, List.head?_cons, hcell]
  rfl

/-- An id that no record of the table has repeats none. -/
theorem Holds.repeatsId (h : t.Holds table schema records)
    (hr : ∀ e ∈ r, schema.Admits e.1) {id : String} (hid : Record.id? r = some id)
    (hnew : some id ∉ records.map Record.id?) : t.repeatsId (t.cellsFor r.cells) = false := by
  rw [Table.repeatsId, h.head?_cellsFor hr hid]
  dsimp only
  rw [List.any_eq_false]
  -- the first cells are the ids of the records, so a repeated cell is a repeated id
  intro row hrow hsame
  have hmem : row.cells.head? ∈ t.rows.map fun row => row.cells.head? := List.mem_map_of_mem hrow
  rw [h.ids, beq_iff_eq.mp hsame] at hmem
  obtain ⟨s, hs, hcell⟩ := List.mem_map.mp hmem
  obtain ⟨own, hown, heq⟩ := Option.map_eq_some_iff.mp hcell
  refine hnew (List.mem_map.mpr ⟨s, hs, ?_⟩)
  rw [hown, Cell.text.inj heq]

/-- A table that holds records holds one more once its row is appended. -/
theorem Holds.push (h : t.Holds table schema records) (hr : ∀ e ∈ r, schema.Admits e.1)
    {id : String} (hid : Record.id? r = some id) :
    (t.push r.cells).Holds table schema (records ++ [r]) := by
  refine ⟨h.name, h.columns, h.declared.push r.cells, h.numbered.push r.cells, ?_⟩
  rw [Table.push, List.map_append, List.map_append, h.ids, List.map_singleton, List.map_singleton,
    h.head?_cellsFor hr hid, hid, Option.map_some]

/-- **A record with an id of its own gets the next row**, and the table holds it then. -/
theorem Holds.exportRecord (h : t.Holds table schema records) (hr : ∀ e ∈ r, schema.Admits e.1)
    {id : String} (hid : Record.id? r = some id) (hnew : some id ∉ records.map Record.id?) :
    exportRecord (databaseSink .full) table ⟨[t]⟩ r =
      (.inserted (Record.id? r) (Int.ofNat (records.length + 1)), ⟨[t.push r.cells]⟩) := by
  have hinsert := Database.insert_of_declared h.declared (mem_columnNames_of_admits h.columns hr)
    (h.repeatsId hr hid hnew)
  rw [h.name, h.numbered.nextId, h.length] at hinsert
  -- a record with an id is not empty, so the sink does not refuse it
  have hfields : r.isEmpty = false := by
    cases r with
    | nil => cases hid
    | cons _ _ => rfl
  have hsink : (databaseSink .full).insert ⟨[t]⟩ table r =
      .ok (Int.ofNat (records.length + 1), ⟨[t.push r.cells]⟩) := by
    rw [databaseSink]
    dsimp only
    rw [hfields, if_neg Bool.false_ne_true]
    exact congrArg (Except.mapError StoreError.table) hinsert
  rw [DocStore.exportRecord, hsink]

/-- **Records with ids of their own all become rows**, in their order. -/
theorem Holds.exportRows {done : List Record} (h : t.Holds table schema done)
    (hr : ∀ r ∈ records, ∀ e ∈ r, schema.Admits e.1)
    (hids : Collection.Identified (done ++ records)) :
    ∃ t', t'.Holds table schema (done ++ records) ∧
      exportRows (databaseSink .full) table ⟨[t]⟩ records =
        ((records.zipIdx (done.length + 1)).map fun (r, i) =>
          .inserted (Record.id? r) (Int.ofNat i), ⟨[t']⟩) := by
  -- over the records that are left, for any that are there already
  induction records generalizing t done with
  | nil => exact ⟨t, by rwa [List.append_nil], rfl⟩
  | cons r rest ih =>
    obtain ⟨hfirst, hrest⟩ := List.forall_mem_cons.mp hr
    obtain ⟨id, hid⟩ := Option.isSome_iff_exists.mp (hids.hasId r (by simp))
    have hnew : some id ∉ done.map Record.id? := by
      have hdistinct := hids.distinct
      rw [List.map_append, List.map_cons, List.nodup_append] at hdistinct
      intro hmem
      exact hdistinct.2.2 _ hmem _ List.mem_cons_self hid.symm
    have hsplit : done ++ r :: rest = done ++ [r] ++ rest := List.append_cons done r rest
    rw [hsplit] at hids ⊢
    obtain ⟨t', hholds, hrows⟩ := ih (h.push hfirst hid) hrest hids
    refine ⟨t', hholds, ?_⟩
    rw [DocStore.exportRows, h.exportRecord hfirst hid hnew]
    dsimp only
    rw [hrows, List.length_append, List.length_singleton, List.zipIdx_cons, List.map_cons]

/-- A fresh database that accepts a table for a schema has that table, which holds no records. -/
theorem holds_of_ensureFor {db : Database} (h : Database.empty.ensureFor table schema = .ok db) :
    ∃ t, db = ⟨[t]⟩ ∧ t.Holds table schema [] := by
  rw [Database.ensureFor] at h
  cases hensure : Database.empty.ensure .full table schema.columns with
  | error fault =>
    rw [hensure] at h
    cases h
  | ok made =>
    rw [hensure] at h
    obtain rfl := Except.ok.inj h
    obtain ⟨rfl, hdeclared⟩ := Database.ensure_eq_ok hensure
    exact ⟨_, rfl, rfl, rfl, hdeclared, rfl, rfl⟩

end Table

-- ---------------------------------------------------------------------------
-- The records of a collection
-- ---------------------------------------------------------------------------

namespace Collection

variable {c c₀ : Collection} {w w₀ : World}

/-- **An export into the own table of a collection is complete.** At any time of a collection that
started empty, all its records are answered, unless its file cannot be made; and if a fresh database
accepts a table for the schema, then every record is inserted, in the order of the collection, with
row numbers from one on. The table has these rows only, and their first cells are the ids. -/
theorem export_complete (hstart : c₀.StartsEmpty w₀)
    (h : Reaches (fun c w k => ¬ GivesTakenId c w k) c₀ w₀ c w) {table : String} {db : Database}
    (hensure : Database.empty.ensureFor table c₀.schema = .ok db) :
    (c₀.ensureFile w₀.files).2 = false ∧ (c.perform w .getAll).answer = .error .file ∨
    ∃ records, (c.perform w .getAll).answer = .ok (.records records) ∧
      let report := (exportRecords (databaseSink .full) table db records).1
      let after := (exportRecords (databaseSink .full) table db records).2
      (report.table = table ∧ report.isComplete = true ∧
        report.rows = (records.zipIdx 1).map fun (r, i) =>
          .inserted (Record.id? r) (Int.ofNat i)) ∧
      (∀ r ∈ records, (Record.id? r).isSome) ∧
      ∃ t, after.tables = [t] ∧ t.name = table ∧ t.columns = c₀.schema.columns ∧
        t.rows.length = records.length ∧
        t.rows.map Row.id = (List.range records.length).map (fun i => Int.ofNat (i + 1)) ∧
        t.rows.map (fun row => row.cells.head?) =
          records.map fun r => (Record.id? r).map Cell.text := by
  -- the records have fields for the columns only, as long as the schema stays what it was
  obtain ⟨-, records, hadmits, hload⟩ := forall_of_reaches (laidOut_admits c₀.schema) hstart h
  have hgetAll : (c.perform w .getAll).answer =
      ((c.load w).answer.map id).map Answer.records := rfl
  cases hmade : (c₀.ensureFile w₀.files).2 with
  | false =>
    rw [hmade] at hload
    rw [hgetAll, hload]
    exact Or.inl ⟨rfl, rfl⟩
  | true =>
    rw [hmade] at hload
    have hids : Identified records := allIdentified_of_reaches hstart h records hload
    obtain ⟨t₀, rfl, hempty⟩ := Table.holds_of_ensureFor hensure
    obtain ⟨t, hholds, hrows⟩ := hempty.exportRows hadmits hids
    rw [List.nil_append] at hholds
    have hcomplete : ExportReport.isComplete ⟨table, (records.zipIdx 1).map fun (r, i) =>
        .inserted (Record.id? r) (Int.ofNat i)⟩ = true :=
      ExportReport.isComplete_iff.mpr (List.forall_mem_map.mpr fun _ _ => rfl)
    have hnumbers : t.rows.map Row.id =
        (List.range records.length).map fun i => Int.ofNat (i + 1) := by
      rw [← hholds.length]
      exact hholds.numbered
    refine Or.inr ⟨records, by rw [hgetAll, hload]; rfl, ?_⟩
    rw [exportRecords, hrows]
    exact ⟨⟨rfl, hcomplete, rfl⟩, hids.hasId, t, rfl, hholds.name, hholds.columns,
      hholds.length, hnumbers, hholds.ids⟩

namespace Sample

/-- A fresh database with a table for the records. -/
def ensured : Database := ⟨[⟨"mail", schema.columns, []⟩]⟩

/-- What the export of the two records reports. -/
def outcomes : List RowOutcome :=
  [.inserted (some (IdSupply.numberedId 1)) 1, .inserted (some (IdSupply.numberedId 2)) 2]

end Sample

/-- Two saved records become the first two rows of their table. -/
theorem export_complete_second :
    Database.empty.ensureFor "mail" Sample.collection.schema = .ok Sample.ensured ∧
      ∃ records,
        (Sample.second.collection.perform Sample.second.world .getAll).answer =
          .ok (.records records) ∧
        (exportRecords (databaseSink .full) "mail" Sample.ensured records).1.rows =
          Sample.outcomes := by
  have hensure : Database.empty.ensureFor "mail" Sample.collection.schema = .ok Sample.ensured := by
    have hmade : (Database.empty.ensureFor "mail" Sample.collection.schema).toOption =
        some Sample.ensured := by decide +kernel
    cases h : Database.empty.ensureFor "mail" Sample.collection.schema with
    | error e =>
      rw [h] at hmade
      cases hmade
    | ok db =>
      rw [h] at hmade
      rw [Option.some.inj hmade]
  have hnone : IdSupply.numberedId 1 ∉ ([] : List String) := List.not_mem_nil
  have hone : IdSupply.numberedId 2 ∉ [IdSupply.numberedId 1] := by decide
  have hreaches : Reaches (fun c w k => ¬ GivesTakenId c w k) Sample.collection Sample.world
      Sample.second.collection Sample.second.world :=
    (Reaches.start.step (Sample.saving "a") (not_givesTakenId_of_ids rfl hnone)).step
      (Sample.saving "b") (not_givesTakenId_of_ids rfl hone)
  have h := export_complete (⟨rfl, Or.inl rfl⟩ : Sample.collection.StartsEmpty Sample.world)
    hreaches hensure
  rcases h with ⟨hmissing, -⟩ | ⟨records, hrecords, ⟨-, -, hrows⟩, -⟩
  · cases hmissing
  · refine ⟨hensure, records, hrecords, hrows.trans ?_⟩
    obtain rfl := Answer.records.inj (Except.ok.inj hrecords)
    rfl

end Collection

end DocStore
