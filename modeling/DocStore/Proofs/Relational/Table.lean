import DocStore.Proofs.Fields
import DocStore.Proofs.Relational.Statement
import DocStore.Relational.Database
import Mathlib.Data.List.Pairwise
/-!
# Tables that rows fit into

A table that was declared has names that can be read and columns that no name confuses. A row whose
values are all for such columns is refused for one reason only, that its id is there already; and as
long as no row brings its own number, rows are counted from one.

* `Table.Declared`: what declaring a table ensures, see `ensure_eq_ok`.
* `Table.Numbered`: rows counted from one, see `Numbered.push`.
* `insert_of_declared`: a row that is accepted.
-/

namespace DocStore

theorem sameIdentifier_self (a : String) : sameIdentifier a a = true := beq_self_eq_true _

theorem sameIdentifier_comm (a b : String) : sameIdentifier a b = sameIdentifier b a :=
  Bool.beq_comm

-- ---------------------------------------------------------------------------
-- Declared tables
-- ---------------------------------------------------------------------------

namespace Table

/-- The names of the columns. -/
def columnNames (t : Table) : List String := t.columns.map Prod.fst

/-- The names of a table can be read, and no two columns have the same. -/
structure Declared (t : Table) : Prop where
  name : Statement.hasNul t.name = false
  columns : ∀ n ∈ t.columnNames, Statement.hasNul n = false
  apart : t.columnNames.Pairwise fun a b => sameIdentifier a b = false

variable {t : Table} {row : Fields Cell}

theorem hasColumn_of_mem {name : String} (h : name ∈ t.columnNames) : t.hasColumn name = true := by
  obtain ⟨c, hc, rfl⟩ := List.mem_map.mp h
  exact List.any_eq_true.mpr ⟨c, hc, sameIdentifier_self c.1⟩

/-- No two columns of a declared table are one identifier. -/
theorem Declared.eq_of_sameIdentifier (h : t.Declared) {a b : String} (ha : a ∈ t.columnNames)
    (hb : b ∈ t.columnNames) (hsame : sameIdentifier a b = true) : a = b := by
  by_contra hne
  have : Std.Symm fun a b => sameIdentifier a b = false :=
    ⟨fun a b hab => (sameIdentifier_comm b a).trans hab⟩
  have hapart := h.apart.forall ha hb hne
  rw [hsame] at hapart
  cases hapart

/-- A row whose names are those of columns stores in a column what it gives under that very name. -/
theorem Declared.cellFor (h : t.Declared) (hrow : ∀ n ∈ row.names, n ∈ t.columnNames)
    {column : String × Affinity} (hcolumn : column ∈ t.columns) :
    cellFor row column = ((Fields.get? row column.1).map (Cell.convert column.2)).getD .null := by
  have hmem : column.1 ∈ t.columnNames := List.mem_map_of_mem hcolumn
  induction row with
  | nil => rfl
  | cons e rest ih =>
    obtain ⟨name, v⟩ := e
    have hname : name ∈ t.columnNames := hrow name List.mem_cons_self
    have hrest := ih fun n hn => hrow n (List.mem_cons_of_mem _ hn)
    by_cases heq : column.1 = name
    · rw [← heq, Fields.get?_cons_self, Table.cellFor, List.find?_cons,
        sameIdentifier_self]
      rfl
    · -- the two are names of columns, and these are apart
      have hother : sameIdentifier name column.1 = false := by
        by_contra hsame
        rw [Bool.not_eq_false] at hsame
        exact heq (h.eq_of_sameIdentifier hname hmem hsame).symm
      rw [Fields.get?_cons_of_ne heq, ← hrest, Table.cellFor, List.find?_cons, hother]
      rfl

-- ---------------------------------------------------------------------------
-- Numbers
-- ---------------------------------------------------------------------------

/-- The rows are counted from one. -/
def Numbered (t : Table) : Prop :=
  t.rows.map Row.id = (List.range t.rows.length).map fun i => Int.ofNat (i + 1)

/-- Where rows are counted from one, the last number is how many there are. -/
theorem Numbered.lastId? (h : t.Numbered) (hne : t.rows ≠ []) :
    t.lastId? = some (Int.ofNat t.rows.length) := by
  have hpos : 0 < t.rows.length := List.length_pos_iff.mpr hne
  rw [Table.lastId?, h, List.max?_eq_some_iff]
  constructor
  · exact List.mem_map.mpr ⟨t.rows.length - 1, List.mem_range.mpr (by omega), by congr 1; omega⟩
  · intro id hid
    obtain ⟨i, hi, rfl⟩ := List.mem_map.mp hid
    exact Int.ofNat_le.mpr (List.mem_range.mp hi)

/-- Of counted rows the next number is free. -/
theorem Numbered.freeId (h : t.Numbered) : t.freeId = Int.ofNat (t.rows.length + 1) := by
  -- all numbers up to the number of rows are taken, and the next one is not
  have htaken : ((List.range t.rows.length).map fun i => Int.ofNat (i + 1)).find?
      (fun id => !(t.rows.map Row.id).contains id) = none := by
    rw [List.find?_eq_none]
    intro id hid
    rw [h, List.contains_iff_mem.mpr hid]
    decide
  have hfree : (t.rows.map Row.id).contains (Int.ofNat (t.rows.length + 1)) = false := by
    rw [h, List.contains_eq_mem, decide_eq_false_iff_not]
    intro hmem
    obtain ⟨i, hi, heq⟩ := List.mem_map.mp hmem
    have := List.mem_range.mp hi
    have := Int.ofNat.inj heq
    omega
  rw [Table.freeId, List.range_succ, List.map_append, List.find?_append, htaken, List.map_singleton,
    List.find?_singleton, hfree]
  rfl

/-- Where rows are counted from one, the next number goes on counting. -/
theorem Numbered.nextId (h : t.Numbered) : t.nextId = Int.ofNat (t.rows.length + 1) := by
  rw [Table.nextId]
  by_cases hne : t.rows = []
  · rw [Table.lastId?, hne]
    rfl
  · rw [h.lastId? hne]
    dsimp only
    split
    · rfl
    · exact h.freeId

-- ---------------------------------------------------------------------------
-- One more row
-- ---------------------------------------------------------------------------

/-- The table with one more row, which has the next number. -/
def push (t : Table) (row : Fields Cell) : Table :=
  { t with rows := t.rows ++ [⟨t.nextId, t.cellsFor row⟩] }

theorem Declared.push (h : t.Declared) (row : Fields Cell) : (t.push row).Declared :=
  ⟨h.name, h.columns, h.apart⟩

/-- Rows are still counted from one when one more has the next number. -/
theorem Numbered.push (h : t.Numbered) (row : Fields Cell) : (t.push row).Numbered := by
  have hlength : (t.push row).rows.length = t.rows.length + 1 := by
    rw [Table.push, List.length_append, List.length_singleton]
  rw [Numbered, hlength, List.range_succ, List.map_append, ← h, Table.push, List.map_append,
    List.map_singleton, List.map_singleton, h.nextId]

/-- A row whose values are all for columns brings no number. -/
theorem givenId?_eq_none (hrow : ∀ n ∈ row.names, n ∈ t.columnNames) : t.givenId? row = none := by
  rw [givenId?, Option.map_eq_none_iff, List.find?_eq_none]
  intro e he
  have hmem : e.1 ∈ t.columnNames := hrow e.1 (List.mem_map_of_mem (List.mem_reverse.mp he))
  rw [isRowId, hasColumn_of_mem hmem]
  exact Bool.false_ne_true

/-- A row whose values are all for columns is added with the next number, if its id is new. -/
theorem add_eq_push (hrow : ∀ n ∈ row.names, n ∈ t.columnNames)
    (hnew : t.repeatsId (t.cellsFor row) = false) :
    t.add row = .ok (t.nextId, t.push row) := by
  have hid : t.idFor row = .ok t.nextId := by
    rw [idFor, givenId?_eq_none hrow]
    rfl
  rw [add, hid]
  dsimp only
  rw [if_neg (by rw [hnew]; decide)]
  rfl

end Table

-- ---------------------------------------------------------------------------
-- Databases of one table
-- ---------------------------------------------------------------------------

namespace Database

variable {t : Table}

theorem table?_single (t : Table) : table? ⟨[t]⟩ t.name = some t := by
  rw [table?, List.find?_singleton, sameIdentifier_self]
  rfl

/-- **A row for the columns of a declared table is inserted**, unless it repeats an id. -/
theorem insert_of_declared (h : t.Declared) {row : Fields Cell}
    (hrow : ∀ n ∈ row.names, n ∈ t.columnNames)
    (hnew : t.repeatsId (t.cellsFor row) = false) :
    insert ⟨[t]⟩ .full t.name row = .ok (t.nextId, ⟨[t.push row]⟩) := by
  have hread : (Statement.insertion t.name row.names).fault? = none :=
    Statement.fault?_insertion_iff.mpr ⟨h.name, fun n hn => h.columns n (hrow n hn)⟩
  have hknown : (row.find? fun e => !t.hasColumn e.1 && !t.isRowId e.1) = none := by
    rw [List.find?_eq_none]
    intro e he
    rw [Table.hasColumn_of_mem (hrow e.1 (List.mem_map_of_mem he))]
    exact Bool.false_ne_true
  have htarget : target ⟨[t]⟩ t.name row = .ok t := by
    rw [target, hread, table?_single]
    dsimp only
    rw [hknown]
  rw [insert, htarget]
  dsimp only
  rw [if_neg (by decide), Table.add_eq_push hrow hnew]
  dsimp only
  rw [if_neg (by decide), replace, if_pos (sameIdentifier_self t.name)]

-- ---------------------------------------------------------------------------
-- Declaring a table
-- ---------------------------------------------------------------------------

/-- Columns that are declared after those seen. A statement with a NUL in a name is refused. -/
theorem columnFault?_eq_none {statement : Statement} {table : String} {names seen : List String}
    (hread : statement.fault? = none → ∀ n ∈ names, Statement.hasNul n = false)
    (h : columnFault? statement table seen names = none) :
    (∀ n ∈ names, Statement.hasNul n = false) ∧
      (∀ n ∈ names, ∀ m ∈ seen, sameIdentifier n m = false) ∧
      names.Pairwise fun a b => sameIdentifier a b = false := by
  induction names generalizing seen with
  | nil => exact ⟨by simp, by simp, List.Pairwise.nil⟩
  | cons name rest ih =>
    rw [columnFault?] at h
    split at h
    · rename_i hnul
      rw [hread h name List.mem_cons_self] at hnul
      cases hnul
    · rename_i hname
      split at h
      · cases h
      · split at h
        · cases h
        · -- the name is none of those before it, and the rest is none of those with this one
          rename_i hseen
          rw [Bool.not_eq_true] at hname
          rw [List.any_eq_true, not_exists] at hseen
          obtain ⟨hnames, happart, hpairwise⟩ :=
            ih (fun hfault n hn => hread hfault n (List.mem_cons_of_mem _ hn)) h
          refine ⟨List.forall_mem_cons.mpr ⟨hname, hnames⟩, ?_, ?_⟩
          · intro n hn m hm
            rcases List.mem_cons.mp hn with rfl | hn
            · exact Bool.eq_false_iff.mpr fun hsame => hseen m ⟨hm, hsame⟩
            · exact happart n hn m (List.mem_cons_of_mem _ hm)
          · refine List.pairwise_cons.mpr ⟨fun n hn => ?_, hpairwise⟩
            rw [sameIdentifier_comm]
            exact happart n hn name List.mem_cons_self

/-- A table that is created has no faults in its columns, and no rows. -/
theorem create_eq_ok {db db' : Database} {name : String} {columns : List (String × Affinity)}
    (h : db.create .full name columns = .ok db') :
    columnFault? (Statement.ensuring name columns) name [] (columns.map Prod.fst) = none ∧
      db' = ⟨db.tables ++ [⟨name, columns, []⟩]⟩ := by
  unfold create at h
  cases hfault : columnFault? (Statement.ensuring name columns) name [] (columns.map Prod.fst) with
  | some fault =>
    rw [hfault] at h
    cases h
  | none =>
    rw [hfault] at h
    exact ⟨rfl, (Except.ok.inj h).symm⟩

/-- A name that is accepted can be read. -/
theorem hasNul_of_nameFault? {name : String} {columns : List (String × Affinity)}
    (h : nameFault? (Statement.ensuring name columns) name = none) :
    Statement.hasNul name = false := by
  by_contra hnul
  rw [Bool.not_eq_false] at hnul
  rw [nameFault?, if_pos hnul, Statement.fault?_ensuring_iff, hnul] at h
  cases h.1

/-- **A table that a fresh database accepts** is there without rows, and declared. -/
theorem ensure_eq_ok {name : String} {columns : List (String × Affinity)} {db : Database}
    (h : empty.ensure .full name columns = .ok db) :
    db = ⟨[⟨name, columns, []⟩]⟩ ∧ Table.Declared ⟨name, columns, []⟩ := by
  have hmissing : empty.table? name = none := rfl
  rw [ensure, hmissing] at h
  dsimp only at h
  split at h
  · cases h
  · rename_i hname
    obtain ⟨hcolumns, rfl⟩ := create_eq_ok h
    have hread : (Statement.ensuring name columns).fault? = none →
        ∀ n ∈ columns.map Prod.fst, Statement.hasNul n = false := fun hfault =>
      List.forall_mem_map.mpr (Statement.fault?_ensuring_iff.mp hfault).2
    obtain ⟨hnames, -, hapart⟩ := columnFault?_eq_none hread hcolumns
    exact ⟨rfl, hasNul_of_nameFault? hname, hnames, hapart⟩

end Database

end DocStore
