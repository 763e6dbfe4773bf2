import Mathlib.Data.List.Infix
import DocStore.Pipeline.Stage
import DocStore.Proofs.Double.Whole
import DocStore.Proofs.Pipeline.Tallies
/-!
# Totals of whole numbers

A total is a sum of doubles, so it may be rounded after every member. It is not where the sums along
the way are whole numbers of at most 53 bits, the limit included, and then it is answered as an
integer. A count is the number of members until it reaches that limit, and stands still there.

* `SumsWithin`: members whose sums along the way are such numbers.
* `SumsWithin.total`: their total is exact, by induction on the members.
* `total_ones`: how far a count goes.
* `group_totals`: what a group stage answers.
-/

namespace DocStore

/-- What a record adds to a total is this whole number. -/
def Contribution.Adds (c : Contribution) (r : Record) (n : ℤ) : Prop :=
  ∃ d, c.of r = some d ∧ d.toInt? = some n

namespace Grouping

variable {g : Grouping} {c : Contribution} {members : List Record} {amount : Record → ℤ}
  {r : Record} {n : ℤ}

-- ---------------------------------------------------------------------------
-- What a record adds
-- ---------------------------------------------------------------------------

/-- A record adds the whole number at the path. -/
theorem adds_number {path : String} {x : Number} (hx : r.lookup path = some (.number x))
    (hwhole : x.IsWhole n) (hn : n.natAbs ≤ exactLimit) : (Contribution.field path).Adds r n := by
  refine ⟨x.toDouble, ?_, hwhole.toDouble hn⟩
  rw [Contribution.of, hx]
  rfl

/-- What is no number counts as zero. -/
theorem adds_zero {path : String} (h : ∀ x, r.lookup path ≠ some (.number x)) :
    (Contribution.field path).Adds r 0 := by
  refine ⟨Double.zero, ?_, Double.toInt?_signedZero false⟩
  have hnone : (r.lookup path).bind Json.asDouble? = none := by
    rw [Option.bind_eq_none_iff]
    intro v hv
    cases v with
    | number x => exact absurd hv (h x)
    | _ => rfl
  rw [Contribution.of, hnone]
  rfl

theorem adds_constant {x : Number} (hwhole : x.IsWhole n) (hn : n.natAbs ≤ exactLimit)
    (r : Record) : (Contribution.constant x.toDouble).Adds r n :=
  ⟨x.toDouble, rfl, hwhole.toDouble hn⟩

-- ---------------------------------------------------------------------------
-- Sums along the way
-- ---------------------------------------------------------------------------

/-- Members that add whole numbers, and all sums along the way are integers that doubles hold. -/
structure SumsWithin (c : Contribution) (members : List Record) (amount : Record → ℤ) : Prop where
  whole : ∀ r ∈ members, c.Adds r (amount r)
  within : ∀ part, part <+: members → (part.map amount).sum.natAbs ≤ exactLimit

theorem SumsWithin.of_append (h : SumsWithin c (members ++ [r]) amount) :
    SumsWithin c members amount where
  whole := fun s hs => h.whole s (List.mem_append_left _ hs)
  within := fun part hpart => h.within part (hpart.trans (List.prefix_append _ _))

/-- One more member whose sum with those before it is within the limit. -/
theorem addTo_exact {total amount : Option Double} {m : ℤ}
    (htotal : ∃ d, total = some d ∧ d.toInt? = some m)
    (hamount : ∃ d, amount = some d ∧ d.toInt? = some n) (hsum : (m + n).natAbs ≤ exactLimit) :
    ∃ d, addTo total amount = some d ∧ d.toInt? = some (m + n) := by
  obtain ⟨a, rfl, ha⟩ := htotal
  obtain ⟨b, rfl, hb⟩ := hamount
  exact Double.add?_exact ha hb hsum

/-- **A total is the sum of its members** if the sums along the way are within the limit. -/
theorem SumsWithin.total (h : SumsWithin c members amount) :
    ∃ d, total c members = some d ∧ d.toInt? = some (members.map amount).sum := by
  induction members using List.reverseRecOn with
  | nil => exact ⟨Double.zero, rfl, Double.toInt?_signedZero false⟩
  | append_singleton members r ih =>
    have hsum : ((members ++ [r]).map amount).sum = (members.map amount).sum + amount r := by
      rw [List.map_append, List.sum_append, List.map_singleton, List.sum_singleton]
    have hwithin := h.within _ List.prefix_rfl
    have hadds := h.whole r (List.mem_append_right _ (List.mem_singleton_self r))
    rw [hsum] at hwithin ⊢
    rw [total_append]
    exact addTo_exact (ih h.of_append) hadds hwithin

/-- Beyond the limit the next count rounds back to it. -/
theorem addTo_limit {total amount : Option Double}
    (htotal : ∃ d, total = some d ∧ d.toInt? = some (exactLimit : ℤ))
    (hamount : ∃ d, amount = some d ∧ d.toInt? = some 1) :
    ∃ d, addTo total amount = some d ∧ d.toInt? = some (exactLimit : ℤ) := by
  obtain ⟨a, rfl, ha⟩ := htotal
  obtain ⟨b, rfl, hb⟩ := hamount
  have hround : (Double.ofInt? (exactLimit + 1)).bind Double.toInt? = some (exactLimit : ℤ) := by
    decide +kernel
  obtain ⟨d, hd, hwhole⟩ := Option.bind_eq_some_iff.mp hround
  refine ⟨d, ?_, hwhole⟩
  rw [← hd]
  exact Double.add?_of_whole ha hb (by decide)

/-- **A count is exact up to the limit**, and no greater. -/
theorem total_ones (h : ∀ r ∈ members, c.Adds r 1) :
    ∃ d, total c members = some d ∧
      d.toInt? = some ((min members.length exactLimit : ℕ) : ℤ) := by
  induction members using List.reverseRecOn with
  | nil => exact ⟨Double.zero, rfl, Double.toInt?_signedZero false⟩
  | append_singleton members r ih =>
    rw [List.forall_mem_append, List.forall_mem_singleton] at h
    have hcount := ih h.1
    rw [total_append, List.length_append, List.length_singleton]
    -- a count goes on up to the limit and stays there, since one more rounds back to it
    by_cases hlt : members.length < exactLimit
    · rw [Nat.min_eq_left hlt.le] at hcount
      rw [Nat.min_eq_left hlt, Nat.cast_succ]
      exact addTo_exact hcount h.2 (by omega)
    · rw [Nat.min_eq_right (not_lt.mp hlt)] at hcount
      rw [Nat.min_eq_right ((not_lt.mp hlt).trans (Nat.le_succ _))]
      exact addTo_limit hcount h.2

-- ---------------------------------------------------------------------------
-- What is answered
-- ---------------------------------------------------------------------------

/-- A whole number is answered as an integer. -/
theorem totalValue_of_whole {total : Option Double}
    (h : ∃ d, total = some d ∧ d.toInt? = some n) (hn : n.natAbs ≤ exactLimit) :
    totalValue total = .int n := by
  obtain ⟨d, rfl, hwhole⟩ := h
  rw [totalValue, hwhole]
  exact if_pos hn

/-- Of the outputs of a name the last one is answered. -/
theorem get?_summary {group : Group} {name : String}
    (hlast : Fields.get? g.outputs.reverse name = some c) :
    Fields.get? (g.summary group) name = some (totalValue (total c group.members)) := by
  have hmap := Fields.get?_map g.outputs.reverse (fun c => totalValue (total c group.members)) name
  rw [hlast, Option.map_some] at hmap
  rw [summary, Fields.get?_merge_reverse, ← List.map_reverse]
  exact congrArg (Option.or · _) hmap

/-- **Totals of whole numbers are exact.** A field adds the number it holds, in either form, and
zero if it holds none; a constant adds itself. If the sums along the way are within the limit, the
total of a group is the integer that is their sum. A count of ones is the number of members, up to
the limit. Of several outputs of one name the last is answered. -/
theorem group_totals (g : Grouping) (records : List Record) (source : WordSource) :
    (∀ path r,
      (∀ x n, r.lookup path = some (.number x) → x.IsWhole n → n.natAbs ≤ exactLimit →
        (Contribution.field path).Adds r n) ∧
      ((∀ x, r.lookup path ≠ some (.number x)) → (Contribution.field path).Adds r 0)) ∧
    (∀ name x n, x.IsWhole n → n.natAbs ≤ exactLimit →
      Stage.outputOf name (.object [("$sum", .number x)]) = .ok (name, .constant x.toDouble) ∧
        ∀ r, (Contribution.constant x.toDouble).Adds r n) ∧
    ∀ (i : ℕ) (group : Group), (g.groups records)[i]? = some group →
      ∃ out, ((Stage.group g).apply records source).1[i]? = some out ∧
        ∀ name c, Fields.get? g.outputs.reverse name = some c →
          (∀ amount, SumsWithin c group.members amount →
            Fields.get? out name = some (.int (group.members.map amount).sum)) ∧
          ((∀ r ∈ group.members, c.Adds r 1) →
            Fields.get? out name = some (.nat (min group.members.length exactLimit))) := by
  refine ⟨fun path r => ⟨fun x n => adds_number, adds_zero⟩, ?_, ?_⟩
  · intro name x n hwhole hn
    exact ⟨rfl, adds_constant hwhole hn⟩
  · intro i group hgroup
    refine ⟨g.summary group, ?_, ?_⟩
    · rw [Stage.apply, run, List.getElem?_map, hgroup, Option.map_some]
    · intro name c hlast
      rw [get?_summary hlast]
      constructor
      · intro amount h
        rw [totalValue_of_whole h.total (h.within _ List.prefix_rfl)]
      · intro h
        rw [totalValue_of_whole (total_ones h) (by omega)]
        rfl

namespace Sample

/-- The whole number at `n`, zero if there is none. -/
def wholeAt (r : Record) : ℤ :=
  match r.lookup "n" with
  | some (.number (.int n)) => n
  | some (.number (.float d)) => d.toInt?.getD 0
  | _ => 0

def one : Double := (Number.int 1).toDouble

/-- Adds up `n` over all records, and counts them. -/
def sums : Grouping := ⟨.constant .null, [("total", .field "n"), ("count", .constant one)]⟩

/-- An integer, a float that takes the sum to the limit, a text and a negative integer. -/
def mixed : List Record :=
  [[("n", .int 9007199254740991)], [("n", .number (.float one))], [("n", .string "x")],
    [("n", .int (-5))]]

theorem lookup_text (x : Number) : Record.lookup [("n", .string "x")] "n" ≠ some (.number x) :=
  nofun

end Sample

/-- A total that reaches the limit on its way. -/
theorem group_totals_mixed :
    SumsWithin (.field "n") Sample.mixed Sample.wholeAt ∧
      ∃ out, ((Stage.group Sample.sums).apply Sample.mixed (.cycling [])).1[0]? = some out ∧
        Fields.get? out "total" = some (.int 9007199254740987) ∧
        Fields.get? out "count" = some (.nat 4) := by
  obtain ⟨hfield, hconstant, hgroups⟩ := group_totals Sample.sums Sample.mixed (.cycling [])
  have hwithin : SumsWithin (.field "n") Sample.mixed Sample.wholeAt := by
    refine ⟨?_, ?_⟩
    · intro r hr
      simp only [Sample.mixed, List.mem_cons, List.not_mem_nil, or_false] at hr
      obtain rfl | rfl | rfl | rfl := hr
      · exact (hfield "n" _).1 (.int 9007199254740991) _ rfl rfl (by decide)
      · exact (hfield "n" _).1 (.float Sample.one) _ rfl (by decide +kernel) (by decide +kernel)
      · exact (hfield "n" _).2 Sample.lookup_text
      · exact (hfield "n" _).1 (.int (-5)) _ rfl rfl (by decide)
    · intro part hpart
      have hall : ∀ part ∈ Sample.mixed.inits,
          (part.map Sample.wholeAt).sum.natAbs ≤ exactLimit := by decide +kernel
      exact hall part ((List.mem_inits _ _).mpr hpart)
  obtain ⟨out, hout, houtputs⟩ := hgroups 0 ⟨.null, Sample.mixed⟩ rfl
  obtain ⟨htotal, -⟩ := houtputs "total" (.field "n") rfl
  obtain ⟨-, hcount⟩ := houtputs "count" (.constant Sample.one) rfl
  have hsum : (Sample.mixed.map Sample.wholeAt).sum = 9007199254740987 := by decide +kernel
  refine ⟨hwithin, out, hout, hsum ▸ htotal _ hwithin, hcount fun r _ => ?_⟩
  exact (hconstant "count" (.int 1) 1 rfl (by decide)).2 r

end Grouping

end DocStore
