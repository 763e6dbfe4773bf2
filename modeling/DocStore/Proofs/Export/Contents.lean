import DocStore.Proofs.Collection.Conforming
import DocStore.Proofs.Export.Report
import DocStore.Proofs.Relational.Conversion
/-!
# What exported rows hold

A stored record has values of the types of its fields, and a table for the schema has a column for
each of them. So a row that is reported says what the record says, cell by cell. Integers from
`2 ^ 63` on are the exception: they become doubles, and the row is reported all the same.

* `Record.Conforms.column`: the column of a field is one for its type.
* `Table.cell?_cellsFor`: the cell of a row under a name.
* `export_faithful`: the rows of an export.
* `export_not_faithful`: an integer that is lost.
-/

namespace DocStore

-- ---------------------------------------------------------------------------
-- Columns and cells
-- ---------------------------------------------------------------------------

/-- The column of a field that a record has is one for values of its type. -/
theorem Record.Conforms.column {schema : Schema} {r : Record} (h : r.Conforms schema)
    {name : String} {v : Json} (hv : Fields.get? r name = some v) :
    ∃ type : FieldType, (name, type.affinity) ∈ schema.columns ∧ type.kind? = some v.kind := by
  rw [Schema.columns]
  cases hreserved : Record.isReserved name with
  | false =>
    obtain ⟨spec, hspec, hkind⟩ := h.own name v hreserved hv
    refine ⟨spec.type, List.mem_append_left _ (List.mem_cons_of_mem _ ?_), hkind⟩
    exact List.mem_map_of_mem (f := fun e => (e.1, e.2.type.affinity)) hspec
  | true =>
    -- such a field is not declared, but every table has columns for the fields the store manages
    obtain ⟨⟨s, rfl⟩, hname⟩ := h.reserved name v hreserved hv
    refine ⟨.string, ?_, rfl⟩
    rcases hname with rfl | htimestamps
    · exact List.mem_append_left _ List.mem_cons_self
    · rw [if_pos htimestamps]
      rcases isReserved_iff.mp hreserved with rfl | rfl | rfl
      · exact List.mem_append_right _ List.mem_cons_self
      · exact List.mem_append_right _ (List.mem_cons_of_mem _ List.mem_cons_self)
      · exact List.mem_append_left _ List.mem_cons_self

namespace Table

variable {t : Table} {row : Row} {values : Fields Cell} {name : String} {a : Affinity} {n : Int}

/-- The cell of a row in the column of this name. -/
def cell? (t : Table) (row : Row) (name : String) : Option Cell :=
  Fields.get? (t.columnNames.zip row.cells) name

theorem Declared.distinct (h : t.Declared) : t.columnNames.Nodup := by
  refine h.apart.imp fun {a b} hab heq => ?_
  rw [heq, sameIdentifier_self] at hab
  cases hab

/-- The cell of a row is what the row stores in the column. -/
theorem cell?_cellsFor (h : t.Declared) (hcolumn : (name, a) ∈ t.columns) :
    t.cell? ⟨n, t.cellsFor values⟩ name = some (cellFor values (name, a)) := by
  have hzip : t.columnNames.zip (t.cellsFor values) =
      t.columns.map fun c => (c.1, cellFor values c) := by
    rw [columnNames, cellsFor, List.zip_map']
  have hnames : Fields.names (t.columns.map fun c => (c.1, cellFor values c)) = t.columnNames := by
    rw [Fields.names, List.map_map]
    rfl
  rw [cell?, hzip, ← Fields.mem_iff_get? (by rw [Fields.Distinct, hnames]; exact h.distinct)]
  exact List.mem_map_of_mem (f := fun c => (c.1, cellFor values c)) hcolumn

end Table

-- ---------------------------------------------------------------------------
-- Rows of records
-- ---------------------------------------------------------------------------

/-- A row says what a record says: the cell for a field says what the value says, a column for a
field that the record lacks is empty, and a wide integer is the nearest double, which says the same
if it is that integer. -/
structure Table.Says (t : Table) (row : Row) (r : Record) : Prop where
  narrow : ∀ name v, Fields.get? r name = some v → ¬ Cell.Wide v →
    ∃ cell : Cell, t.cell? row name = some cell ∧ cell.Denotes v
  wide : ∀ (name : String) (k : Int), Fields.get? r name = some (.int k) → Nat.pow 2 63 ≤ k →
    ∃ d, Double.ofInt? k = some d ∧ t.cell? row name = some (.real d) ∧
      ((Cell.real d).Denotes (.int k) ↔ d.toInt? = some k)
  absent : ∀ name ∈ t.columnNames, Fields.get? r name = none → t.cell? row name = some .null

namespace Record

variable {t : Table} {schema : Schema} {r : Record} {name : String} {v : Json} {a : Affinity}
  {n : Int}

theorem Conforms.wellFormed_of_get? (h : r.Conforms schema) (hv : Fields.get? r name = some v) :
    v.WellFormed :=
  (Json.wellFormed_object.mp h.wellFormed).2 (name, v) (Fields.mem_of_get? hv)

/-- A cell of the row for a record is the value in the column of that name. -/
theorem Conforms.cell? (h : r.Conforms schema) (ht : t.Declared)
    (hcolumns : t.columns = schema.columns) (hcolumn : (name, a) ∈ t.columns) :
    t.cell? ⟨n, t.cellsFor r.cells⟩ name =
      some (((Fields.get? r name).map fun v => (Cell.ofJson v).convert a).getD .null) := by
  rw [Table.cell?_cellsFor ht hcolumn,
    ht.cellFor (Table.mem_columnNames_of_admits hcolumns h.admits) hcolumn, get?_cells,
    Option.map_map]
  rfl

/-- **The row for a record says what the record says.** -/
theorem Conforms.says (h : r.Conforms schema) (ht : t.Declared)
    (hcolumns : t.columns = schema.columns) : t.Says ⟨n, t.cellsFor r.cells⟩ r where
  narrow name v hv hnarrow := by
    obtain ⟨type, hcolumn, hkind⟩ := h.column hv
    have hcell := h.cell? (n := n) ht hcolumns (hcolumns ▸ hcolumn)
    rw [hv] at hcell
    exact ⟨_, hcell, Cell.denotes_convert hkind (h.wellFormed_of_get? hv) hnarrow⟩
  wide name k hk hwide := by
    obtain ⟨type, hcolumn, hkind⟩ := h.column hk
    have hcell := h.cell? (n := n) ht hcolumns (hcolumns ▸ hcolumn)
    obtain ⟨d, hd, hreal, hsays⟩ := Cell.convert_wide (h.wellFormed_of_get? hk) hwide
    -- a field that holds a number was declared as one
    have htype : type = .number := by
      cases type with
      | number => rfl
      | _ => cases hkind
    rw [hk, htype] at hcell
    exact ⟨d, hd, hcell.trans (congrArg some hreal), hsays⟩
  absent name hname hnone := by
    obtain ⟨column, hcolumn, rfl⟩ := List.mem_map.mp hname
    rw [h.cell? ht hcolumns hcolumn, hnone]
    rfl

end Record

-- ---------------------------------------------------------------------------
-- Exports
-- ---------------------------------------------------------------------------

/-- An outcome with the number of a row reports that row. -/
theorem RowOutcome.exists_getElem?_eq_inserted {outcomes : List RowOutcome}
    {numbers : List (Option Int)} {i : Nat} {n : Int} (h : outcomes.map number? = numbers)
    (hn : numbers[i]? = some (some n)) : ∃ id, outcomes[i]? = some (.inserted id n) := by
  rw [← h, List.getElem?_map] at hn
  obtain ⟨o, ho, hnumber⟩ := Option.map_eq_some_iff.mp hn
  cases o with
  | inserted id m =>
    obtain rfl := Option.some.inj hnumber
    exact ⟨id, ho⟩
  | failed id e => cases hnumber

/-- An outcome that reports a row is that of a record that was stored. -/
theorem mem_storedRows {records : List Record} {outcomes : List RowOutcome} {i : Nat} {r : Record}
    {id : Option String} {n : Int} (hr : records[i]? = some r)
    (ho : outcomes[i]? = some (.inserted id n)) : (r, n) ∈ storedRows records outcomes := by
  have hzip : (r, RowOutcome.inserted id n) ∈ records.zip outcomes :=
    List.mem_of_getElem? (List.getElem?_zip_eq_some.mpr ⟨hr, ho⟩)
  exact List.mem_filterMap.mpr ⟨_, hzip, rfl⟩

/-- **Rows that are reported say what their records say.** A fresh database in which a table for the
schema was made has that table, and after an export of stored records, for each one that is reported
as a row, the table has one row of that number, and it says what the record says. -/
theorem export_faithful (access : Access) {table : String} {schema : Schema} {db : Database}
    {records : List Record} (hschema : schema.WellFormed)
    (hensure : Database.empty.ensureFor table schema = .ok db)
    (hrecords : ∀ r ∈ records, Collection.Storable schema r) :
    let report := (exportRecords (databaseSink access) table db records).1
    let after := (exportRecords (databaseSink access) table db records).2
    ∃ t, after.table? table = some t ∧ t.columns = schema.columns ∧
      ∀ (i : Nat) (r : Record) (id : Option String) (n : Int), records[i]? = some r →
        report.rows[i]? = some (.inserted id n) →
          ∃ row ∈ t.rows, row.id = n ∧ (∀ other ∈ t.rows, other.id = n → other = row) ∧
            t.Says row r := by
  intro report after
  obtain ⟨t₀, rfl, hholds⟩ := Table.holds_of_ensureFor hensure
  have hgains : Database.Gains ⟨[t₀]⟩ table (storedRows records report.rows) after :=
    Database.gains_of_exports (exports_iff.mpr rfl)
  have hstart : Database.table? ⟨[t₀]⟩ table = some t₀ := by
    rw [← hholds.name]
    exact Database.table?_single t₀
  have htable := hgains.gained t₀ hstart
  -- the database was made by the two operations alone, so its tables are in order
  have hproper : Database.Proper _ :=
    ((Database.Made.ensureFor .empty hensure).exportRecords access table records).proper _
      (List.mem_of_find?_eq_some htable)
  refine ⟨_, htable, hholds.columns, ?_⟩
  intro i r id n hr ho
  have hrow := List.mem_append_right t₀.rows (List.mem_map_of_mem
    (f := fun e => (⟨e.2, t₀.cellsFor e.1.cells⟩ : Row)) (mem_storedRows hr ho))
  refine ⟨_, hrow, rfl, fun other hother hsame => ?_, ?_⟩
  -- the number finds one row only, since an insertion never gives a number again
  · exact List.inj_on_of_nodup_map hproper.numbers hother hrow hsame
  · have hconforms := (hrecords r (List.mem_of_getElem? hr)).conforms hschema
    exact hconforms.says ⟨hholds.declared.name, hholds.declared.columns, hholds.declared.apart⟩
      hholds.columns

namespace Sample

/-- Records with a count, a remark, a mark and labels. -/
def goods : Schema :=
  ((((Schema.empty false).add "count" (.plain .number)).add "remark" (.plain .string)).add "sold"
    (.plain .boolean)).add "labels" (.plain .array)

/-- A table for them with these rows. -/
def stock (rows : List Row) : Table := ⟨"goods", goods.columns, rows⟩

/-- No records yet. -/
def shop : Collection := .unloaded "goods" goods "goods.json"

/-- A record with these fields is saved. -/
def stocking (fields : Record) : Collection.Call := ⟨0, .save (.object fields)⟩

/-- The record as it is stored first. -/
def stocked (fields : Record) : Record :=
  (Record.idField, .string (IdSupply.numberedId 1)) :: fields

/-- A whole float, a text that looks like a number, true, and a list. -/
def ware : Record :=
  [("count", .number (.float (Number.int 2).toDouble)), ("remark", .string "007"),
    ("sold", .bool true), ("labels", .array [.string "x"])]

/-- The row of this record. -/
def wareRow : Row :=
  ⟨1, [.text (IdSupply.numberedId 1), .integer 2, .text "007", .integer 1, .text "[\"x\"]"]⟩

/-- The greatest integer that a value can be. -/
def crowd : Record := [("count", .int 18446744073709551615)]

/-- The row of this record. -/
def crowdRow : Row :=
  ⟨1, [.text (IdSupply.numberedId 1), .real (Number.int 18446744073709551615).toDouble, .null,
    .null, .null]⟩

/-- The schema has no default that does not fit. -/
theorem wellFormed_goods : goods.WellFormed := by
  intro e he v hv
  have hplain : ∀ e ∈ goods.fields, e.2.default? = none := by decide
  rw [hplain e he] at hv
  cases hv

/-- A record that a save leaves in an empty collection can be stored. -/
theorem storable_stocked {fields : Record} (hfields : (stocking fields).op.WellFormed)
    (hsaved : (let saved := shop.call Collection.Sample.world (stocking fields)
      (saved.collection.load saved.world).answer) = .ok [stocked fields]) :
    Collection.Storable goods (stocked fields) :=
  ⟨shop, Collection.Sample.world, _, _, [stocked fields], rfl, ⟨rfl, Or.inl rfl⟩,
    Collection.Reaches.start.step (stocking fields) hfields, hsaved, List.mem_cons_self⟩

theorem storable_ware : Collection.Storable goods (stocked ware) :=
  storable_stocked
    ⟨(by decide : (Fields.names ware).Nodup), trivial, trivial, trivial, ⟨trivial, trivial⟩,
      trivial⟩ rfl

theorem storable_crowd : Collection.Storable goods (stocked crowd) :=
  storable_stocked ⟨List.nodup_singleton _, ⟨by decide, by decide⟩, trivial⟩ rfl

theorem ensureFor_goods : Database.empty.ensureFor "goods" goods = .ok ⟨[stock []]⟩ := by
  have hmade : (Database.empty.ensureFor "goods" goods).toOption = some ⟨[stock []]⟩ := by
    decide +kernel
  exact eq_ok_of_toOption hmade

end Sample

/-- A saved record with a value of each type becomes the first row of its table. -/
theorem export_faithful_goods :
    Database.empty.ensureFor "goods" Sample.goods = .ok ⟨[Sample.stock []]⟩ ∧
      Collection.Storable Sample.goods (Sample.stocked Sample.ware) ∧
      (let done := exportRecords (databaseSink .full) "goods" ⟨[Sample.stock []]⟩
          [Sample.stocked Sample.ware]
       done.1.rows.map RowOutcome.number? = [some 1] ∧
        done.2.table? "goods" = some (Sample.stock [Sample.wareRow])) ∧
      (Sample.stock [Sample.wareRow]).Says Sample.wareRow (Sample.stocked Sample.ware) := by
  have hrecords : ∀ r ∈ [Sample.stocked Sample.ware], Collection.Storable Sample.goods r :=
    List.forall_mem_singleton.mpr Sample.storable_ware
  obtain ⟨t, ht, -, hrows⟩ :=
    export_faithful .full Sample.wellFormed_goods Sample.ensureFor_goods hrecords
  have htable : (exportRecords (databaseSink .full) "goods" ⟨[Sample.stock []]⟩
      [Sample.stocked Sample.ware]).2.table? "goods" = some (Sample.stock [Sample.wareRow]) := by
    decide +kernel
  obtain rfl := Option.some.inj (ht.symm.trans htable)
  have hnumbers : (exportRecords (databaseSink .full) "goods" ⟨[Sample.stock []]⟩
      [Sample.stocked Sample.ware]).1.rows.map RowOutcome.number? = [some 1] := by
    decide +kernel
  obtain ⟨id, hfirst⟩ := RowOutcome.exists_getElem?_eq_inserted (i := 0) hnumbers rfl
  obtain ⟨row, hrow, -, -, hsays⟩ := hrows 0 _ id 1 rfl hfirst
  obtain rfl := List.mem_singleton.mp hrow
  exact ⟨Sample.ensureFor_goods, Sample.storable_ware, ⟨hnumbers, htable⟩, hsays⟩

/-- The greatest integer can be saved, and its record is reported as a row. The cell is a double
that is greater by one. -/
theorem export_not_faithful :
    Database.empty.ensureFor "goods" Sample.goods = .ok ⟨[Sample.stock []]⟩ ∧
      Collection.Storable Sample.goods (Sample.stocked Sample.crowd) ∧
      Fields.get? (Sample.stocked Sample.crowd) "count" = some (.int 18446744073709551615) ∧
      (let done := exportRecords (databaseSink .full) "goods" ⟨[Sample.stock []]⟩
          [Sample.stocked Sample.crowd]
       done.1.rows.map RowOutcome.number? = [some 1] ∧
        done.2.table? "goods" = some (Sample.stock [Sample.crowdRow])) ∧
      (∃ cell : Cell,
        (Sample.stock [Sample.crowdRow]).cell? Sample.crowdRow "count" = some cell ∧
          ¬ cell.Denotes (.int 18446744073709551615)) := by
  have htable : (exportRecords (databaseSink .full) "goods" ⟨[Sample.stock []]⟩
      [Sample.stocked Sample.crowd]).2.table? "goods" = some (Sample.stock [Sample.crowdRow]) := by
    decide +kernel
  -- the double next to it is one larger
  have hwhole : (Number.int 18446744073709551615).toDouble.toInt? = some 18446744073709551616 := by
    decide +kernel
  refine ⟨Sample.ensureFor_goods, Sample.storable_crowd, rfl, ⟨by decide +kernel, htable⟩,
    .real (Number.int 18446744073709551615).toDouble, rfl, fun hsays => ?_⟩
  rw [Json.int, Cell.Denotes, Cell.value?, Option.some.injEq] at hsays
  have hexact := Double.toInt?_eq_some_iff_value.mpr hsays
  rw [hwhole] at hexact
  cases hexact

end DocStore
