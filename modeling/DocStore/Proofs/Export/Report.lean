import DocStore.Proofs.Export
import DocStore.Proofs.Relational.Insertion
/-!
# What a report says of a sink

An export tries each record once, in order, and a record that is refused leaves the sink as it was.
So the report tells what became of the sink: the rows that it reports were added, with the numbers
it reports, and nothing else happened.

* `exports_iff`: an export step by step.
* `Exports.refused`: a refused record might as well not have been tried.
* `Database.gains_of_exports`: the tables of a database afterwards.
* `Database.numbers_eq_of_exports`: the numbers of the rows.
* `RowList.gains_of_exports`: a list of rows afterwards.
* `export_reported`: what a report says, of all sinks, of databases and of lists.
-/

namespace DocStore

/-- The number of the row that the record became. -/
def RowOutcome.number? : RowOutcome → Option Int
  | inserted _ n => some n
  | failed _ _ => none

/-- The records that became rows, with the numbers of the rows. -/
def storedRows (records : List Record) (outcomes : List RowOutcome) : List (Record × Int) :=
  (records.zip outcomes).filterMap fun e => e.2.number?.map fun n => (e.1, n)

/-- The outcomes for records that became rows. -/
def insertions (stored : List (Record × Int)) : List RowOutcome :=
  stored.map fun e => .inserted (Record.id? e.1) e.2

variable {σ : Type} {sink : Sink σ} {table : String} {start after : σ} {records : List Record}
  {outcomes : List RowOutcome}

-- ---------------------------------------------------------------------------
-- Step by step
-- ---------------------------------------------------------------------------

/-- Each record is tried once, in order. A record that is refused leaves the sink as it was. -/
inductive Exports (sink : Sink σ) (table : String) :
    σ → List Record → List RowOutcome → σ → Prop where
  | done (s : σ) : Exports sink table s [] [] s
  | inserted {s next after : σ} {r : Record} {rest : List Record} {outcomes : List RowOutcome}
      {n : Int} (hrow : sink.insert s table r = .ok (n, next))
      (hrest : Exports sink table next rest outcomes after) :
      Exports sink table s (r :: rest) (.inserted (Record.id? r) n :: outcomes) after
  | failed {s after : σ} {r : Record} {rest : List Record} {outcomes : List RowOutcome}
      {e : StoreError} (hrow : sink.insert s table r = .error e)
      (hrest : Exports sink table s rest outcomes after) :
      Exports sink table s (r :: rest) (.failed (Record.id? r) e :: outcomes) after

/-- The first record is tried first, and the rest where it leaves the sink. -/
theorem exportRows_cons (r : Record) (rest : List Record) :
    exportRows sink table start (r :: rest) =
      ((exportRecord sink table start r).1 ::
        (exportRows sink table (exportRecord sink table start r).2 rest).1,
        (exportRows sink table (exportRecord sink table start r).2 rest).2) := rfl

/-- **An export step by step.** -/
theorem exports_iff : Exports sink table start records outcomes after ↔
    exportRows sink table start records = (outcomes, after) := by
  constructor
  · intro h
    induction h with
    | done s => rfl
    | inserted hrow _ ih =>
      rw [exportRows_cons, exportRecord, hrow]
      dsimp only
      rw [ih]
    | failed hrow _ ih =>
      rw [exportRows_cons, exportRecord, hrow]
      dsimp only
      rw [ih]
  · intro h
    induction records generalizing start outcomes with
    | nil =>
      obtain ⟨rfl, rfl⟩ := Prod.mk.inj h
      exact .done start
    | cons r rest ih =>
      rw [exportRows_cons, exportRecord] at h
      cases hrow : sink.insert start table r with
      | ok p =>
        rw [hrow] at h
        obtain ⟨rfl, rfl⟩ := Prod.mk.inj h
        exact .inserted hrow (ih rfl)
      | error e =>
        rw [hrow] at h
        obtain ⟨rfl, rfl⟩ := Prod.mk.inj h
        exact .failed hrow (ih rfl)

/-- The outcomes name the records that were tried. -/
theorem Exports.ids (h : Exports sink table start records outcomes after) :
    outcomes.map RowOutcome.id? = records.map Record.id? := by
  induction h with
  | done s => rfl
  | inserted _ _ ih => rw [List.map_cons, List.map_cons, ih, RowOutcome.id?]
  | failed _ _ ih => rw [List.map_cons, List.map_cons, ih, RowOutcome.id?]

/-- **A refused record might as well not have been tried.** -/
theorem Exports.refused (h : Exports sink table start records outcomes after) :
    Exports sink table start ((storedRows records outcomes).map Prod.fst)
      (insertions (storedRows records outcomes)) after := by
  induction h with
  | done s => exact .done s
  | inserted hrow _ ih => exact .inserted hrow ih
  | failed _ _ ih => exact ih

/-- As many records became rows as are reported to. -/
theorem Exports.length_storedRows (h : Exports sink table start records outcomes after) :
    (storedRows records outcomes).length = outcomes.countP RowOutcome.isInserted := by
  induction h with
  | done s => rfl
  | inserted _ _ ih =>
    rw [List.countP_cons_of_pos rfl, ← ih]
    rfl
  | failed _ _ ih =>
    rw [List.countP_cons_of_neg Bool.false_ne_true, ← ih]
    rfl

/-- An export of two lists goes on where the first one ends. -/
theorem exportRows_append (done rest : List Record) : exportRows sink table start (done ++ rest) =
    ((exportRows sink table start done).1 ++
      (exportRows sink table (exportRows sink table start done).2 rest).1,
      (exportRows sink table (exportRows sink table start done).2 rest).2) := by
  induction done generalizing start with
  | nil => rfl
  | cons r done ih =>
    rw [List.cons_append, exportRows_cons, ih]
    rfl

theorem length_exportRows : (exportRows sink table start records).1.length = records.length := by
  induction records generalizing start with
  | nil => rfl
  | cons r rest ih => rw [exportRows_cons, List.length_cons, List.length_cons, ih]

/-- The outcome for a record is what the sink answers after the records before it. -/
theorem getElem?_exportRows {done rest : List Record} {r : Record} :
    (exportRows sink table start (done ++ r :: rest)).1[done.length]? =
      some (exportRecord sink table (exportRows sink table start done).2 r).1 := by
  rw [exportRows_append, List.getElem?_append_right (Nat.le_of_eq length_exportRows),
    length_exportRows, Nat.sub_self, exportRows_cons, List.getElem?_cons_zero]

-- ---------------------------------------------------------------------------
-- Databases
-- ---------------------------------------------------------------------------

namespace Database

variable {db db' : Database} {access : Access} {r : Record} {t : Table} {n : Int}

/-- When a database takes a record, and what becomes of it. -/
theorem insert_databaseSink_eq_ok_iff : (databaseSink access).insert db table r = .ok (n, db') ↔
    r ≠ [] ∧ ∃ t, db.Accepts access table r.cells t n ∧
      db' = ⟨replace table (t.withRow n r.cells) db.tables⟩ := by
  rw [databaseSink, ← insert_eq_ok_iff]
  dsimp only
  cases r with
  | nil => simp
  | cons e rest =>
    rw [List.isEmpty_cons, if_neg Bool.false_ne_true]
    change Except.mapError StoreError.table (db.insert access table (Record.cells (e :: rest))) =
      _ ↔ _
    cases db.insert access table (Record.cells (e :: rest)) <;> simp [Except.mapError]

/-- These rows were added at the end of this table, and nothing else happened. -/
structure Gains (db : Database) (table : String) (stored : List (Record × Int))
    (after : Database) : Prop where
  gained : ∀ t, db.table? table = some t → after.table? table =
    some { t with rows := t.rows ++ stored.map fun e => ⟨e.2, t.cellsFor e.1.cells⟩ }
  missing : db.table? table = none → stored = [] ∧ after = db
  others : ∀ other, sameIdentifier table other = false → after.table? other = db.table? other
  names : after.tables.map Table.name = db.tables.map Table.name

/-- Without rows nothing has happened. -/
theorem gains_nil (db : Database) (table : String) : db.Gains table [] db where
  gained t ht := by rw [List.map_nil, List.append_nil, ht]
  missing _ := ⟨rfl, rfl⟩
  others _ _ := rfl
  names := rfl

/-- A row that is accepted comes before those that are added later. -/
theorem Accepts.gains {stored : List (Record × Int)} {after : Database}
    (h : db.Accepts access table r.cells t n)
    (hrest : Gains ⟨replace table (t.withRow n r.cells) db.tables⟩ table stored after) :
    db.Gains table ((r, n) :: stored) after where
  gained u hu := by
    obtain rfl := Option.some.inj (h.table.symm.trans hu)
    rw [hrest.gained _ h.table?_replace, Table.withRow, List.append_assoc]
    rfl
  missing hnone := by
    rw [h.table] at hnone
    cases hnone
  others other hother := by rw [hrest.others other hother, h.table?_replace_other hother]
  names := by rw [hrest.names, h.map_name_replace]

/-- **The tables after an export.** -/
theorem gains_of_exports {after : Database}
    (h : Exports (databaseSink access) table db records outcomes after) :
    db.Gains table (storedRows records outcomes) after := by
  induction h with
  | done s => exact gains_nil s table
  | inserted hrow _ ih =>
    obtain ⟨-, t, haccepts, rfl⟩ := insert_databaseSink_eq_ok_iff.mp hrow
    exact haccepts.gains ih
  | failed _ _ ih => exact ih

-- ---------------------------------------------------------------------------
-- Numbers of rows
-- ---------------------------------------------------------------------------

/-- The databases that come of making tables and exporting into them. -/
inductive Made : Database → Prop where
  | empty : Made .empty
  | ensureFor {db db' : Database} {table : String} {schema : Schema} (h : Made db)
      (hmade : db.ensureFor table schema = .ok db') : Made db'
  | exportRecords {db : Database} (h : Made db) (access : Access) (table : String)
      (records : List Record) : Made (exportRecords (databaseSink access) table db records).2

/-- A table for records: its columns are those of a schema, and no two rows have one number. -/
structure Proper (t : Table) : Prop where
  columns : ∃ schema : Schema, t.columns = schema.columns
  numbers : t.numbers.Nodup

/-- Making a table leaves those that are there, and adds at most this one. -/
theorem ensure_subset {name : String} {columns : List (String × Affinity)}
    (h : db.ensure .full name columns = .ok db') :
    ∀ t ∈ db'.tables, t ∈ db.tables ∨ t = ⟨name, columns, []⟩ := by
  unfold ensure at h
  dsimp only at h
  split at h
  · cases h
  · split at h
    · -- no table had the name, and an empty one was made
      obtain ⟨-, rfl⟩ := create_eq_ok h
      intro t ht
      exact (List.mem_append.mp ht).imp_right List.mem_singleton.mp
    · split at h
      · cases h
      · rw [← Except.ok.inj h]
        exact fun t ht => Or.inl ht

/-- A table is changed in one place only. -/
theorem mem_replace {tables : List Table} {u : Table} (h : u ∈ replace table t tables) :
    u = t ∨ u ∈ tables := by
  induction tables with
  | nil => cases h
  | cons first rest ih =>
    rw [replace] at h
    split at h
    · exact (List.mem_cons.mp h).imp_right (List.mem_cons_of_mem _)
    · rcases List.mem_cons.mp h with rfl | h
      · exact Or.inr List.mem_cons_self
      · exact (ih h).imp_right (List.mem_cons_of_mem _)

/-- The number of a row that is accepted is new, so the table stays proper. -/
theorem Accepts.proper (h : db.Accepts access table r.cells t n) (ht : Proper t) :
    Proper (t.withRow n r.cells) where
  columns := ht.columns
  numbers := by
    have hnew : n ∉ t.numbers := Table.idFor_not_mem h.number
    rw [Table.numbers, Table.withRow, List.map_append, List.map_singleton]
    refine List.nodup_append.mpr ⟨ht.numbers, List.nodup_singleton n, fun a ha b hb hab => ?_⟩
    rw [hab, List.mem_singleton.mp hb] at ha
    exact hnew ha

/-- Exporting keeps tables in order, whatever is refused. -/
theorem proper_of_exports {after : Database}
    (h : Exports (databaseSink access) table db records outcomes after)
    (hproper : ∀ t ∈ db.tables, Proper t) : ∀ t ∈ after.tables, Proper t := by
  induction h with
  | done s => exact hproper
  | inserted hrow _ ih =>
    obtain ⟨-, t, haccepts, rfl⟩ := insert_databaseSink_eq_ok_iff.mp hrow
    refine ih fun u hu => ?_
    rcases mem_replace hu with rfl | hu
    · exact haccepts.proper (hproper t (List.mem_of_find?_eq_some haccepts.table))
    · exact hproper u hu
  | failed _ _ ih => exact ih hproper

/-- **Every table of a database that was made is proper.** -/
theorem Made.proper (h : db.Made) : ∀ t ∈ db.tables, Proper t := by
  induction h with
  | empty => exact List.forall_mem_nil _
  | @ensureFor db db' table schema _ hmade ih =>
    intro t ht
    rw [Database.ensureFor] at hmade
    cases hensure : db.ensure .full table schema.columns with
    | error fault =>
      rw [hensure] at hmade
      cases hmade
    | ok made =>
      rw [hensure] at hmade
      obtain rfl := Except.ok.inj hmade
      rcases ensure_subset hensure t ht with ht | rfl
      · exact ih t ht
      · exact ⟨⟨schema, rfl⟩, List.nodup_nil⟩
  | exportRecords _ access table records ih =>
    exact proper_of_exports (exports_iff.mpr rfl) ih

/-- The number after the greatest, in a table that has room for it. -/
theorem nextId_of_range {last : Int} (h : t.lastId?.getD 0 = last)
    (hrange : Cell.IntegerRange (last + 1)) : t.nextId = last + 1 := by
  rw [Table.nextId]
  cases hlast : t.lastId? with
  | none =>
    rw [hlast, Option.getD_none] at h
    rw [← h]
    rfl
  | some id =>
    rw [hlast, Option.getD_some] at h
    subst h
    exact if_pos hrange

/-- The next number is the greatest once it is given. -/
theorem lastId?_withRow {last : Int} (h : t.lastId?.getD 0 = last) (row : Fields Cell) :
    (t.withRow (last + 1) row).lastId?.getD 0 = last + 1 := by
  have hmax : (t.withRow (last + 1) row).lastId? = some (last + 1) := by
    rw [Table.lastId?, List.max?_eq_some_iff, Table.withRow, List.map_append, List.map_singleton]
    -- the new number is there, and all others are at most the old greatest
    refine ⟨List.mem_append_right _ List.mem_cons_self, fun n hn => ?_⟩
    rcases List.mem_append.mp hn with hn | hn
    · cases hlast : t.lastId? with
      | none =>
        rw [Table.lastId?, List.max?_eq_none_iff] at hlast
        rw [hlast] at hn
        cases hn
      | some id =>
        have hle := Table.le_of_lastId? hlast n hn
        rw [hlast, Option.getD_some] at h
        omega
    · exact Int.le_of_eq (List.mem_singleton.mp hn)
  rw [hmax, Option.getD_some]

/-- **Rows that bring no number are counted on**, and a refused one uses no number. -/
theorem numbers_eq_of_exports {after : Database} {last : Int}
    (h : Exports (databaseSink access) table db records outcomes after)
    (ht : db.table? table = some t) (hlast : t.lastId?.getD 0 = last)
    (hown : ∀ r ∈ records, ∀ name ∈ Fields.names r, t.isRowId name = false)
    (hlow : -Nat.pow 2 63 ≤ last) (hhigh : last + records.length < Nat.pow 2 63) :
    (storedRows records outcomes).map Prod.snd =
      (List.range (storedRows records outcomes).length).map fun i : Nat => last + 1 + i := by
  -- over the export, for any greatest number before it
  induction h generalizing t last with
  | done s => rfl
  | @inserted db next after r rest outcomes n hrow _ ih =>
    obtain ⟨-, u, haccepts, rfl⟩ := insert_databaseSink_eq_ok_iff.mp hrow
    obtain rfl := Option.some.inj (ht.symm.trans haccepts.table)
    obtain ⟨hfirst, hrest⟩ := List.forall_mem_cons.mp hown
    rw [List.length_cons] at hhigh
    have hnumber := haccepts.number
    -- no field of the record is a name for the number, so none is given
    have hgiven : t.givenId? r.cells = none := by
      rw [Table.givenId?, Option.map_eq_none_iff, List.find?_eq_none]
      intro e he
      rw [Bool.not_eq_true]
      refine hfirst e.1 ?_
      rw [← Record.names_cells]
      exact List.mem_map_of_mem (List.mem_reverse.mp he)
    have hnext : t.nextId = last + 1 := nextId_of_range hlast ⟨by omega, by omega⟩
    obtain rfl : n = last + 1 := by
      rw [Table.idFor, hgiven] at hnumber
      exact (Except.ok.inj hnumber).symm.trans hnext
    have hstored : storedRows (r :: rest) (.inserted (Record.id? r) (last + 1) :: outcomes) =
        (r, last + 1) :: storedRows rest outcomes := rfl
    -- the rest is numbered from this row on
    have hlater := ih haccepts.table?_replace (lastId?_withRow hlast r.cells) hrest (by omega)
      (by omega)
    rw [hstored, List.map_cons, hlater, List.length_cons, List.range_succ_eq_map, List.map_cons,
      List.map_map]
    congr 1
    · simp
    · refine List.map_congr_left fun i _ => ?_
      simp only [Function.comp_apply]
      push_cast
      ring
  | failed _ _ ih =>
    rw [List.length_cons] at hhigh
    exact ih ht hlast (List.forall_mem_cons.mp hown).2 hlow (by omega)

-- ---------------------------------------------------------------------------
-- Rows that are refused
-- ---------------------------------------------------------------------------

/-- Why a record cannot become a row. -/
inductive Unfit (db : Database) (table : String) (r : Record) : Prop where
  /-- It has no fields. -/
  | empty (h : r = [])
  | missing (h : db.table? table = none)
  /-- A field has no column, and its name is none for the number of a row. -/
  | column {t : Table} {name : String} (ht : db.table? table = some t)
      (hname : name ∈ Fields.names r) (hcolumn : t.hasColumn name = false)
      (hnumber : t.isRowId name = false)
  /-- Its id is that of a row. Of several names for the column of ids the first would count. -/
  | repeated {t : Table} {id : String} (ht : db.table? table = some t)
      (hid : Record.id? r = some id)
      (honly : ∀ name ∈ Fields.names r, sameIdentifier name Record.idField = true →
        name = Record.idField)
      (hrow : some (.text id) ∈ t.rows.map fun row => row.cells.head?)

/-- A value under the only name of a column is what the row stores there. -/
theorem cellFor_of_only {column : String} {a : Affinity} {v : Json}
    (hv : Fields.get? r column = some v)
    (honly : ∀ name ∈ Fields.names r, sameIdentifier name column = true → name = column) :
    Table.cellFor r.cells (column, a) = (Cell.ofJson v).convert a := by
  induction r with
  | nil => cases hv
  | cons e rest ih =>
    obtain ⟨name, w⟩ := e
    have hcells : Record.cells ((name, w) :: rest) =
        (name, Cell.ofJson w) :: Record.cells rest := rfl
    rw [Table.cellFor, hcells, List.find?_cons]
    by_cases hname : column = name
    · subst hname
      rw [Fields.get?_cons_self] at hv
      rw [sameIdentifier_self, Option.some.inj hv]
    · -- another field would count only if its name were the column's in other letters
      have hother : sameIdentifier name column = false := by
        rw [← Bool.not_eq_true]
        exact fun hsame => hname (honly name List.mem_cons_self hsame).symm
      rw [Fields.get?_cons_of_ne hname] at hv
      rw [hother]
      exact ih hv fun n hn => honly n (List.mem_cons_of_mem _ hn)

/-- **A record that cannot become a row is not accepted.** -/
theorem Unfit.not_inserts (h : db.Unfit table r) (hproper : ∀ t ∈ db.tables, Proper t) :
    ¬ (r ≠ [] ∧ ∃ t n, db.Accepts access table r.cells t n) := by
  rintro ⟨hfields, t, n, haccepts⟩
  cases h with
  | empty h => exact hfields h
  | missing h =>
    rw [haccepts.table] at h
    cases h
  | column ht hname hcolumn hnumber =>
    obtain rfl := Option.some.inj (ht.symm.trans haccepts.table)
    rw [← Record.names_cells] at hname
    have hknown := haccepts.columns _ hname
    rw [hcolumn, hnumber] at hknown
    exact hknown.elim Bool.false_ne_true Bool.false_ne_true
  | repeated ht hid honly hrow =>
    rename_i u id
    obtain rfl := Option.some.inj (ht.symm.trans haccepts.table)
    obtain ⟨schema, hschema⟩ := (hproper u (List.mem_of_find?_eq_some ht)).columns
    -- the first column of a table for records is that of ids, so the cell is the record's id
    obtain ⟨others, hcolumns⟩ : ∃ others, u.columns = (Record.idField, .text) :: others :=
      ⟨_, hschema⟩
    have hcell : Table.cellFor r.cells (Record.idField, .text) =
        (Cell.ofJson (.string id)).convert .text :=
      cellFor_of_only (Record.get?_of_id? hid) honly
    have hhead : (u.cellsFor r.cells).head? = some (.text id) := by
      rw [Table.cellsFor, hcolumns, List.map_cons, List.head?_cons, hcell]
      rfl
    have hfresh := haccepts.fresh
    rw [Table.repeatsId, hhead] at hfresh
    obtain ⟨row, hmem, hsame⟩ := List.mem_map.mp hrow
    exact List.any_eq_false.mp hfresh row hmem (beq_iff_eq.mpr hsame)

/-- A record that the database takes is reported as a row. -/
theorem exportRecord_eq_inserted_iff :
    (exportRecord (databaseSink access) table db r).1 = .inserted (Record.id? r) n ↔
      r ≠ [] ∧ ∃ t, db.Accepts access table r.cells t n := by
  constructor
  · intro h
    rw [exportRecord] at h
    split at h
    · rename_i m db' hrow
      obtain ⟨hfields, t, haccepts, -⟩ := insert_databaseSink_eq_ok_iff.mp hrow
      rw [← (RowOutcome.inserted.inj h).2]
      exact ⟨hfields, t, haccepts⟩
    · cases h
  · rintro ⟨hfields, t, haccepts⟩
    rw [exportRecord, insert_databaseSink_eq_ok_iff.mpr ⟨hfields, t, haccepts, rfl⟩]

/-- A record that is unfit is reported as failed. -/
theorem Unfit.exportRecord_eq_failed (h : db.Unfit table r) (hproper : ∀ t ∈ db.tables, Proper t) :
    ∃ e, (exportRecord (databaseSink access) table db r).1 = .failed (Record.id? r) e := by
  rw [exportRecord]
  cases hrow : (databaseSink access).insert db table r with
  | ok p =>
    obtain ⟨n, db'⟩ := p
    obtain ⟨hfields, t, haccepts, -⟩ := insert_databaseSink_eq_ok_iff.mp hrow
    exact absurd ⟨hfields, t, n, haccepts⟩ (h.not_inserts hproper)
  | error e => exact ⟨e, rfl⟩

end Database

-- ---------------------------------------------------------------------------
-- Lists
-- ---------------------------------------------------------------------------

/-- These rows were added at the end of a list, with the numbers after its last one, and they are
the records that are not refused. -/
structure RowList.Gains (kept : RowList) (refuses : String → Record → Option RowFault)
    (table : String) (records : List Record) (stored : List (Record × Int)) (after : RowList) :
    Prop where
  rows : after.rows = kept.rows ++ stored.map fun e => (table, e.1)
  accepted : stored.map Prod.fst = records.filter fun r => (refuses table r).isNone
  numbers : stored.map Prod.snd =
    (List.range stored.length).map fun i => Int.ofNat (kept.lastId + 1 + i)
  lastId : after.lastId = kept.lastId + stored.length

/-- **The list after an export.** -/
theorem RowList.gains_of_exports {refuses : String → Record → Option RowFault}
    {kept after : RowList} (h : Exports (listSink refuses) table kept records outcomes after) :
    kept.Gains refuses table records (storedRows records outcomes) after := by
  induction h with
  | done s => exact ⟨(List.append_nil _).symm, rfl, rfl, rfl⟩
  | @inserted kept next after r rest outcomes n hrow _ ih =>
    rw [listSink] at hrow
    dsimp only at hrow
    split at hrow
    · cases hrow
    · rename_i hnone
      obtain ⟨rfl, rfl⟩ := Prod.mk.inj (Except.ok.inj hrow)
      have hstored : storedRows (r :: rest)
          (.inserted (Record.id? r) (kept.lastId + 1) :: outcomes) =
            (r, (kept.lastId + 1 : Int)) :: storedRows rest outcomes := rfl
      rw [hstored]
      refine ⟨?_, ?_, ?_, ?_⟩
      · rw [ih.rows, List.append_assoc, List.map_cons, List.singleton_append]
      · rw [List.filter_cons_of_pos (by rw [hnone]; rfl), ← ih.accepted, List.map_cons]
      · rw [List.map_cons, ih.numbers, List.length_cons, List.range_succ_eq_map, List.map_cons,
          List.map_map]
        congr 1
        refine List.map_congr_left fun i _ => congrArg Int.ofNat ?_
        rw [Nat.add_assoc (kept.lastId + 1), Nat.add_comm 1]
      · rw [ih.lastId, List.length_cons, Nat.add_assoc, Nat.add_comm 1]
  | @failed kept after r rest outcomes e hrow _ ih =>
    rw [listSink] at hrow
    dsimp only at hrow
    -- a record that is refused is not among those that are accepted
    split at hrow
    · rename_i fault hsome
      refine ⟨ih.rows, ?_, ih.numbers, ih.lastId⟩
      rw [List.filter_cons_of_neg (by rw [hsome]; exact Bool.false_ne_true), ← ih.accepted]
      rfl
    · cases hrow

-- ---------------------------------------------------------------------------
-- Reports
-- ---------------------------------------------------------------------------

/-- A report tells of an export: each record was tried once, in order, and has an outcome with its
id; and the sink is as if the refused records had not been there. -/
structure ExportReport.Tells (report : ExportReport) (sink : Sink σ) (table : String) (start : σ)
    (records : List Record) (after : σ) : Prop where
  named : report.table = table
  tried : Exports sink table start records report.rows after
  ids : report.rows.map RowOutcome.id? = records.map Record.id?
  total : report.inserted + report.failed = records.length
  inserted : report.inserted = (storedRows records report.rows).length
  accepted : Exports sink table start ((storedRows records report.rows).map Prod.fst)
    (insertions (storedRows records report.rows)) after
  refused : ∀ done r rest id e, records = done ++ r :: rest →
    report.rows[done.length]? = some (.failed id e) →
      (exportRecords sink table start (done ++ [r])).2 = (exportRecords sink table start done).2

/-- The report of an export tells what became of the sink. -/
theorem tells_exportRecords (sink : Sink σ) (table : String) (start : σ) (records : List Record) :
    (exportRecords sink table start records).1.Tells sink table start records
      (exportRecords sink table start records).2 where
  named := rfl
  tried := exports_iff.mpr rfl
  ids := (exports_iff.mpr rfl : Exports sink table start records _ _).ids
  total := by
    have hle : (exportRecords sink table start records).1.inserted ≤
        (exportRecords sink table start records).1.rows.length := List.countP_le_length
    rw [ExportReport.failed, Nat.add_sub_cancel' hle]
    exact length_exportRows
  inserted := (exports_iff.mpr rfl : Exports sink table start records _ _).length_storedRows.symm
  accepted := (exports_iff.mpr rfl : Exports sink table start records _ _).refused
  refused := by
    rintro done r rest id e rfl hfailed
    -- the outcome at this place is that of this record, tried after those before it
    change (exportRows sink table start (done ++ r :: rest)).1[done.length]? = _ at hfailed
    rw [getElem?_exportRows, exportRecord, Option.some.injEq] at hfailed
    change (exportRows sink table start (done ++ [r])).2 = (exportRows sink table start done).2
    rw [exportRows_append, exportRows_cons, exportRecord]
    cases hrow : sink.insert (exportRows sink table start done).2 table r with
    | ok p =>
      rw [hrow] at hfailed
      cases hfailed
    | error fault => rfl

/-- **What a report says of a sink.** -/
theorem export_reported :
    (∀ {σ : Type} (sink : Sink σ) (table : String) (start : σ) (records : List Record),
      (exportRecords sink table start records).1.Tells sink table start records
        (exportRecords sink table start records).2) ∧
    (∀ (access : Access) (db : Database) (table : String) (records : List Record), db.Made →
      let report := (exportRecords (databaseSink access) table db records).1
      let after := (exportRecords (databaseSink access) table db records).2
      let stored := storedRows records report.rows
      db.Gains table stored after ∧
      (∀ t ∈ after.tables, t.numbers.Nodup) ∧
      (∀ done r rest, records = done ++ r :: rest →
        let before := (exportRecords (databaseSink access) table db done).2
        (∀ n, report.rows[done.length]? = some (.inserted (Record.id? r) n) ↔
          r ≠ [] ∧ ∃ t, before.Accepts access table r.cells t n) ∧
        (before.Unfit table r →
          ∃ e, report.rows[done.length]? = some (.failed (Record.id? r) e))) ∧
      (∀ t, db.table? table = some t →
        (∀ r ∈ records, ∀ name ∈ Fields.names r, t.isRowId name = false) →
        ∀ last, t.lastId?.getD 0 = last → -Nat.pow 2 63 ≤ last →
          last + records.length < Nat.pow 2 63 →
            stored.map Prod.snd = (List.range stored.length).map fun i : Nat => last + 1 + i)) ∧
    (∀ (refuses : String → Record → Option RowFault) (kept : RowList) (table : String)
        (records : List Record),
      let report := (exportRecords (listSink refuses) table kept records).1
      kept.Gains refuses table records (storedRows records report.rows)
        (exportRecords (listSink refuses) table kept records).2) := by
  refine ⟨tells_exportRecords, ?_, fun _ _ _ _ => RowList.gains_of_exports (exports_iff.mpr rfl)⟩
  intro access db table records hmade
  have hexports : Exports (databaseSink access) table db records
      (exportRecords (databaseSink access) table db records).1.rows
      (exportRecords (databaseSink access) table db records).2 := exports_iff.mpr rfl
  refine ⟨Database.gains_of_exports hexports,
    fun t ht => (Database.proper_of_exports hexports hmade.proper t ht).numbers, ?_,
    fun t ht hown last hlast hlow hhigh =>
      Database.numbers_eq_of_exports hexports ht hlast hown hlow hhigh⟩
  rintro done r rest rfl
  have hbefore := (hmade.exportRecords access table done).proper
  -- what is reported at the place of a record was decided in the database before it
  have houtcome : (exportRecords (databaseSink access) table db (done ++ r :: rest)).1.rows[
      done.length]? = some (exportRecord (databaseSink access) table
        (exportRecords (databaseSink access) table db done).2 r).1 := getElem?_exportRows
  dsimp only
  rw [houtcome]
  constructor
  · intro n
    rw [Option.some.injEq]
    exact Database.exportRecord_eq_inserted_iff
  · intro hunfit
    obtain ⟨e, he⟩ := hunfit.exportRecord_eq_failed hbefore
    exact ⟨e, congrArg some he⟩

namespace Sample

/-- Records with a name. -/
def named : Schema := (Schema.empty false).add "name" (.plain .string)

/-- A database with a table for them. -/
def ready : Database := ⟨[⟨"people", named.columns, []⟩]⟩

/-- A record, one without fields, one with a field that has no column, one with the id of the first,
and another one. -/
def mixed : List Record := [
  [("_id", .string "a"), ("name", .string "Alice")],
  [],
  [("_id", .string "b"), ("age", .string "30")],
  [("_id", .string "a")],
  [("_id", .string "d")]]

end Sample

/-- What a computation gives can be seen from its result without the error. -/
theorem eq_ok_of_toOption {ε α : Type} {r : Except ε α} {x : α} (h : r.toOption = some x) :
    r = .ok x := by
  cases r with
  | error e => cases h
  | ok y => rw [Option.some.inj h]

theorem Sample.made_ready : Sample.ready.Made := by
  have hmade : (Database.empty.ensureFor "people" Sample.named).toOption = some Sample.ready := by
    decide +kernel
  exact .ensureFor .empty (eq_ok_of_toOption hmade)

/-- Of five records the first and the last become rows, and these have the numbers one and two. -/
theorem export_reported_mixed :
    Sample.ready.Made ∧
      (let report := (exportRecords (databaseSink .full) "people" Sample.ready Sample.mixed).1
       let after := (exportRecords (databaseSink .full) "people" Sample.ready Sample.mixed).2
       report.rows.map RowOutcome.number? = [some 1, none, none, none, some 2] ∧
        (∃ e, report.rows[1]? = some (.failed none e)) ∧ report.inserted + report.failed = 5 ∧
        after.table? "people" = some ⟨"people", Sample.named.columns,
          [⟨1, [.text "a", .text "Alice"]⟩, ⟨2, [.text "d", .null]⟩]⟩ ∧
        (storedRows Sample.mixed report.rows).map Prod.snd = [1, 2]) := by
  obtain ⟨htells, hdatabases, -⟩ := export_reported
  have htotal := (htells (databaseSink .full) "people" Sample.ready Sample.mixed).total
  obtain ⟨hgains, -, hsteps, hnumbers⟩ :=
    hdatabases .full Sample.ready "people" Sample.mixed Sample.made_ready
  have htable : Sample.ready.table? "people" = some ⟨"people", Sample.named.columns, []⟩ := by
    decide +kernel
  have hcounted := hnumbers _ htable (by decide +kernel) 0 (by decide +kernel) (by decide)
    (by decide)
  have hunfit := (hsteps [Sample.mixed[0]] [] (Sample.mixed.drop 2) rfl).2 (.empty rfl)
  refine ⟨Sample.made_ready, by decide +kernel, hunfit, htotal, ?_,
    hcounted.trans (by decide +kernel)⟩
  exact (hgains.gained _ htable).trans (by decide +kernel)

end DocStore
