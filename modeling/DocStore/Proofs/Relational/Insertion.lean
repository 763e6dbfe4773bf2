import DocStore.Proofs.Relational.Table
import Mathlib.Data.List.Perm.Subperm
/-!
# What an insertion does

An insertion is accepted for one table and gives it one row more, at its end; all other tables stay
as they are. The new row has a number that no row of the table has, which is the number it brings
or the next one.

* `Table.idFor_not_mem`: numbers of rows do not repeat.
* `Database.insert_eq_ok_iff`: when an insertion is accepted, and what comes of it.
* `Database.Accepts.table?_replace`, `Database.Accepts.table?_replace_other`: the tables afterwards.
-/

namespace DocStore

theorem sameIdentifier_congr {a b : String} (h : sameIdentifier a b = true) (c : String) :
    sameIdentifier a c = sameIdentifier b c := by
  rw [sameIdentifier, beq_iff_eq] at h
  rw [sameIdentifier, sameIdentifier, h]

-- ---------------------------------------------------------------------------
-- Rows
-- ---------------------------------------------------------------------------

namespace Table

variable {t t' : Table} {row : Fields Cell} {id : Int}

/-- The numbers of the rows. -/
def numbers (t : Table) : List Int := t.rows.map Row.id

/-- The table with one more row of this number. -/
def withRow (t : Table) (id : Int) (row : Fields Cell) : Table :=
  { t with rows := t.rows ++ [⟨id, t.cellsFor row⟩] }

/-- A row is added under its number if its id is new. -/
theorem add_eq_ok_iff : t.add row = .ok (id, t') ↔
    t.idFor row = .ok id ∧ t.repeatsId (t.cellsFor row) = false ∧ t' = t.withRow id row := by
  rw [add]
  cases hid : t.idFor row with
  | error fault => simp
  | ok n =>
    dsimp only
    cases hrepeats : t.repeatsId (t.cellsFor row) with
    | true => simp
    | false =>
      rw [if_neg Bool.false_ne_true, Except.ok.injEq, Except.ok.injEq, Prod.mk.injEq]
      constructor
      · rintro ⟨rfl, rfl⟩
        exact ⟨rfl, rfl, rfl⟩
      · rintro ⟨rfl, -, rfl⟩
        exact ⟨rfl, rfl⟩

theorem le_of_lastId? {last : Int} (h : t.lastId? = some last) : ∀ n ∈ t.numbers, n ≤ last :=
  (List.max?_eq_some_iff.mp h).2

/-- Of more candidates than rows, one is free. -/
theorem freeId_not_mem (t : Table) : t.freeId ∉ t.numbers := by
  -- there is one number more to choose from than there are rows
  have hfree : ∃ id, ((List.range (t.rows.length + 1)).map fun i => Int.ofNat (i + 1)).find?
      (fun id => !t.numbers.contains id) = some id := by
    rw [← Option.isSome_iff_exists, List.find?_isSome]
    by_contra hnone
    have hsub : ((List.range (t.rows.length + 1)).map fun i => Int.ofNat (i + 1)) ⊆ t.numbers := by
      intro id hid
      by_contra hmem
      exact hnone ⟨id, hid, by simpa using hmem⟩
    have hnodup : ((List.range (t.rows.length + 1)).map fun i => Int.ofNat (i + 1)).Nodup :=
      List.nodup_range.map fun a b hab => Nat.succ.inj (Int.ofNat.inj hab)
    have hle := (List.subperm_of_subset hnodup hsub).length_le
    rw [List.length_map, List.length_range, numbers, List.length_map] at hle
    exact absurd hle (Nat.not_succ_le_self _)
  obtain ⟨id, hid⟩ := hfree
  have hnot := List.find?_some hid
  rw [freeId]
  change ((List.map _ _).find? fun id => !t.numbers.contains id).getD 1 ∉ t.numbers
  rw [hid, Option.getD_some]
  simpa using hnot

/-- The next number is that of no row. -/
theorem nextId_not_mem (t : Table) : t.nextId ∉ t.numbers := by
  rw [nextId]
  cases hlast : t.lastId? with
  | none =>
    rw [lastId?, List.max?_eq_none_iff] at hlast
    rw [numbers, hlast]
    exact List.not_mem_nil
  | some last =>
    dsimp only
    split
    · intro hmem
      have := le_of_lastId? hlast _ hmem
      omega
    · -- the greatest number is the last of all, so a free one is looked for
      exact t.freeId_not_mem

/-- **The number of a new row is new.** -/
theorem idFor_not_mem (h : t.idFor row = .ok id) : id ∉ t.numbers := by
  unfold idFor at h
  split at h
  · rw [← Except.ok.inj h]
    exact t.nextId_not_mem
  · rw [← Except.ok.inj h]
    exact t.nextId_not_mem
  · -- a number that the row brings is refused if a row has it
    split at h
    · cases h
    · rename_i n _ hfree
      rw [← Except.ok.inj h]
      intro hmem
      obtain ⟨r, hr, hid⟩ := List.mem_map.mp hmem
      exact hfree (List.any_eq_true.mpr ⟨r, hr, beq_iff_eq.mpr hid⟩)
  · cases h

end Table

-- ---------------------------------------------------------------------------
-- Tables of a database
-- ---------------------------------------------------------------------------

namespace Database

variable {db db' : Database} {name other : String} {t t' : Table} {row : Fields Cell} {id : Int}

theorem sameIdentifier_of_table? (h : db.table? name = some t) :
    sameIdentifier t.name name = true := by
  have hsame := List.find?_some h
  exact hsame

/-- A table that is replaced under its name is found there. -/
theorem find?_replace {tables : List Table}
    (h : tables.find? (fun u => sameIdentifier u.name name) = some t)
    (hname : sameIdentifier t'.name name = true) :
    (replace name t' tables).find? (fun u => sameIdentifier u.name name) = some t' := by
  induction tables with
  | nil => cases h
  | cons u rest ih =>
    rw [List.find?_cons] at h
    rw [replace]
    cases hu : sameIdentifier u.name name with
    | true => rw [if_pos rfl, List.find?_cons, hname]
    | false =>
      rw [hu] at h
      rw [if_neg Bool.false_ne_true, List.find?_cons, hu]
      exact ih h

/-- A table with another name stays as it is. -/
theorem find?_replace_other {tables : List Table} (hname : sameIdentifier t'.name name = true)
    (hother : sameIdentifier name other = false) :
    (replace name t' tables).find? (fun u => sameIdentifier u.name other) =
      tables.find? fun u => sameIdentifier u.name other := by
  -- no table answers to both names
  have hapart {u : Table} (hu : sameIdentifier u.name name = true) :
      sameIdentifier u.name other = false := by
    rw [sameIdentifier_congr hu, hother]
  induction tables with
  | nil => rfl
  | cons u rest ih =>
    rw [replace]
    cases hu : sameIdentifier u.name name with
    | true =>
      rw [if_pos rfl, List.find?_cons, List.find?_cons, hapart hu, hapart hname]
    | false =>
      rw [if_neg Bool.false_ne_true, List.find?_cons, List.find?_cons, ih]

/-- Changing the rows of a table leaves the names of all tables. -/
theorem map_name_replace {tables : List Table}
    (h : tables.find? (fun u => sameIdentifier u.name name) = some t) (hname : t'.name = t.name) :
    (replace name t' tables).map Table.name = tables.map Table.name := by
  induction tables with
  | nil => cases h
  | cons u rest ih =>
    rw [List.find?_cons] at h
    rw [replace]
    cases hu : sameIdentifier u.name name with
    | true =>
      rw [hu] at h
      rw [if_pos rfl, List.map_cons, List.map_cons, hname, Option.some.inj h]
    | false =>
      rw [hu] at h
      rw [if_neg Bool.false_ne_true, List.map_cons, List.map_cons, ih h]

-- ---------------------------------------------------------------------------
-- Insertions
-- ---------------------------------------------------------------------------

/-- The table accepts a row under this name, with this number. -/
structure Accepts (db : Database) (access : Access) (name : String) (row : Fields Cell) (t : Table)
    (id : Int) : Prop where
  /-- No name in the statement is cut off. -/
  read : (Statement.insertion name row.names).fault? = none
  table : db.table? name = some t
  /-- Each value has a column, or is the number of the row. -/
  columns : ∀ column ∈ row.names, t.hasColumn column = true ∨ t.isRowId column = true
  writes : access = .full
  number : t.idFor row = .ok id
  fresh : t.repeatsId (t.cellsFor row) = false

/-- **A row finds its table** if the statement can be read and each value has a column. -/
theorem target_eq_ok_iff : db.target name row = .ok t ↔
    (Statement.insertion name row.names).fault? = none ∧ db.table? name = some t ∧
      ∀ column ∈ row.names, t.hasColumn column = true ∨ t.isRowId column = true := by
  -- no value is without a column exactly if each has one
  have hknown {u : Table} : (row.find? fun e => !u.hasColumn e.1 && !u.isRowId e.1) = none ↔
      ∀ column ∈ row.names, u.hasColumn column = true ∨ u.isRowId column = true := by
    rw [List.find?_eq_none, Fields.names, List.forall_mem_map]
    refine forall₂_congr fun e he => ?_
    rw [Bool.and_eq_true, Bool.not_eq_true', Bool.not_eq_true', ← Bool.not_eq_true,
      ← Bool.not_eq_true]
    tauto
  unfold target
  cases (Statement.insertion name row.names).fault? with
  | some fault => simp
  | none =>
    cases db.table? name with
    | none =>
      dsimp only
      split <;> simp
    | some u =>
      dsimp only
      cases hfind : row.find? fun e => !u.hasColumn e.1 && !u.isRowId e.1 with
      | none =>
        have hall := hknown.mp hfind
        simp only [Except.ok.injEq, Option.some.injEq, true_and]
        exact ⟨fun h => ⟨h, h ▸ hall⟩, fun h => h.1⟩
      | some e =>
        simp only [reduceCtorEq, Option.some.injEq, true_and, false_iff, not_and]
        rintro rfl hall
        rw [hknown.mpr hall] at hfind
        cases hfind

/-- **When an insertion is accepted, and what comes of it.** -/
theorem insert_eq_ok_iff {access : Access} : db.insert access name row = .ok (id, db') ↔
    ∃ t, db.Accepts access name row t id ∧ db' = ⟨replace name (t.withRow id row) db.tables⟩ := by
  constructor
  · intro h
    unfold insert at h
    split at h
    · cases h
    · rename_i t htarget
      obtain ⟨hread, htable, hcolumns⟩ := target_eq_ok_iff.mp htarget
      split at h
      · cases h
      · rename_i hwrites
        split at h
        · cases h
        · rename_i n t' hadd
          -- the three ways of opening a database differ in what may be written
          obtain ⟨hnumber, hfresh, rfl⟩ := Table.add_eq_ok_iff.mp hadd
          split at h
          · cases h
          · rename_i hnotes
            obtain ⟨rfl, rfl⟩ := Prod.mk.inj (Except.ok.inj h)
            refine ⟨t, ⟨hread, htable, hcolumns, ?_, hnumber, hfresh⟩, rfl⟩
            cases access with
            | full => rfl
            | readOnly => exact absurd rfl hwrites
            | noJournal => exact absurd rfl hnotes
  · rintro ⟨t, ⟨hread, htable, hcolumns, rfl, hnumber, hfresh⟩, rfl⟩
    rw [insert, target_eq_ok_iff.mpr ⟨hread, htable, hcolumns⟩]
    dsimp only
    rw [if_neg (by decide), Table.add_eq_ok_iff.mpr ⟨hnumber, hfresh, rfl⟩]
    dsimp only
    rw [if_neg (by decide)]

variable {access : Access}

/-- The table that a row went into has it at its end. -/
theorem Accepts.table?_replace (h : db.Accepts access name row t id) :
    table? ⟨replace name (t.withRow id row) db.tables⟩ name = some (t.withRow id row) := by
  have hname : sameIdentifier t.name name = true := sameIdentifier_of_table? h.table
  exact find?_replace h.table hname

/-- All other tables stay as they are. -/
theorem Accepts.table?_replace_other (h : db.Accepts access name row t id)
    (hother : sameIdentifier name other = false) :
    table? ⟨replace name (t.withRow id row) db.tables⟩ other = db.table? other := by
  have hname : sameIdentifier t.name name = true := sameIdentifier_of_table? h.table
  exact find?_replace_other hname hother

/-- No table comes or goes, and none is moved. -/
theorem Accepts.map_name_replace (h : db.Accepts access name row t id) :
    (replace name (t.withRow id row) db.tables).map Table.name = db.tables.map Table.name :=
  Database.map_name_replace h.table rfl

end Database

end DocStore
