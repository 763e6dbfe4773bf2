import DocStore.Pipeline.Run
import DocStore.Proofs.Pipeline.Order
import DocStore.Proofs.Pipeline.StableSort
/-!
# Sorting records

Sorting by a field puts records in the order of their values at a path, or in the reverse of that
order; records whose values are level keep the order they came in either way. That determines the
sorted list, so a filter may be applied before or after.

* `MustPrecede`: which record has to stand before which.
* `stablySorts_iff_apply`: the stage sorts stably.
* `sort_stably`: the order of values, and the one list a sort stage may answer.
* `keep_sort_comm`: a filter and a sort stage may be exchanged.
-/

namespace DocStore

namespace Record

variable {field : String} {descending : Bool} {r s : Record}

/-- Which record has to stand before which. -/
def MustPrecede (field : String) (descending : Bool) (r s : Record) : Prop :=
  if descending then Json.Before (s.lookup field) (r.lookup field)
  else Json.Before (r.lookup field) (s.lookup field)

/-- The records whose value at a path is level with that of one of them. -/
def levelAt (field : String) (r : Record) (records : List Record) : List Record :=
  records.filter fun s => Json.order (s.lookup field) (r.lookup field) == .eq

/-- Compares records in the direction they are sorted in. -/
def compareAt (field : String) (descending : Bool) (r s : Record) : Ordering :=
  if descending then Json.order (s.lookup field) (r.lookup field)
  else Json.order (r.lookup field) (s.lookup field)

instance : Std.TransCmp (compareAt field descending) := by
  have hkeys : Std.TransCmp (compareOn fun r : Record => Json.sortKey (r.lookup field)) :=
    inferInstance
  cases descending with
  | false =>
    have h : compareAt field false = compareOn fun r => Json.sortKey (r.lookup field) := by
      funext r s
      exact Json.order_eq_compare _ _
    rw [h]
    exact hkeys
  | true =>
    have h : compareAt field true =
        fun r s => compareOn (fun r : Record => Json.sortKey (r.lookup field)) s r := by
      funext r s
      exact Json.order_eq_compare _ _
    rw [h]
    exact Std.TransCmp.opposite

/-- Sorting lets a record stand before another if it is not greater. -/
theorem mayPrecede_eq :
    mayPrecede field descending r s = (compareAt field descending r s).isLE := by
  cases descending with
  | false =>
    rw [compareAt, mayPrecede]
    cases Json.order (r.lookup field) (s.lookup field) <;> rfl
  | true =>
    -- backwards, a record may precede the other if the other is not less
    have hswap : Json.order (s.lookup field) (r.lookup field) =
        (Json.order (r.lookup field) (s.lookup field)).swap := Std.OrientedCmp.eq_swap
    rw [compareAt, mayPrecede, if_pos rfl, hswap]
    cases Json.order (r.lookup field) (s.lookup field) <;> rfl

/-- A record is less where it has to stand before the other. -/
theorem compareAt_eq_lt_iff :
    compareAt field descending r s = .lt ↔ MustPrecede field descending r s := by
  cases descending with
  | false => exact Json.order_eq_lt_iff
  | true => exact Json.order_eq_lt_iff

/-- Records are level where their values are, in either direction. -/
theorem compareAt_eq_eq_iff :
    compareAt field descending r s = .eq ↔
      Json.order (r.lookup field) (s.lookup field) = .eq := by
  cases descending with
  | false => exact Iff.rfl
  | true => exact Std.OrientedCmp.eq_comm

theorem levelWith_compareAt (records : List Record) :
    levelWith (compareAt field descending) r records = levelAt field r records := by
  refine List.filter_congr fun s _ => ?_
  rw [Bool.eq_iff_iff, beq_iff_eq, beq_iff_eq, compareAt_eq_eq_iff]

end Record

namespace Stage

variable {out : List Record}

/-- The stage sorts stably. -/
theorem stablySorts_iff_apply (field : String) (descending : Bool) (records : List Record)
    (source : WordSource) :
    StablySorts (Record.compareAt field descending) records out ↔
      ((sort field descending).apply records source).1 = out := by
  have hle : Record.mayPrecede field descending =
      fun r s => (Record.compareAt field descending r s).isLE := by
    funext r s
    exact Record.mayPrecede_eq
  rw [stablySorts_iff, apply, hle]

/-- **Sorting is stable, by a total preorder.** Values compare reflexively, totally and
transitively, kind by kind, and the stage answers the one list of its records in which none stands
before another that must precede it, and records of level values keep their order. -/
theorem sort_stably (field : String) (descending : Bool) (records : List Record)
    (source : WordSource) :
    (∀ v, Json.order v v = .eq) ∧
    (∀ v w, Json.order w v = (Json.order v w).swap) ∧
    (∀ v w, (Json.order v w).isLE = true ∨ (Json.order w v).isLE = true) ∧
    (∀ u v w, (Json.order u v).isLE = true → (Json.order v w).isLE = true →
      (Json.order u w).isLE = true) ∧
    (∀ v w, Json.order v w = .lt ↔ Json.Before v w) ∧
    (∀ out, ((sort field descending).apply records source).1 = out ↔
      out.Perm records ∧
      out.Pairwise (fun r s => ¬ Record.MustPrecede field descending s r) ∧
      ∀ r, Record.levelAt field r out = Record.levelAt field r records) := by
  refine ⟨fun v => level_self v, fun v w => Std.OrientedCmp.eq_swap, isLE_or_isLE,
    fun u v w => Std.TransCmp.isLE_trans, fun v w => Json.order_eq_lt_iff, fun out => ?_⟩
  rw [← stablySorts_iff_apply]
  -- levels do not depend on the direction
  have hlevels : (∀ r, Record.levelAt field r out = Record.levelAt field r records) ↔
      ∀ r, levelWith (Record.compareAt field descending) r out =
        levelWith (Record.compareAt field descending) r records := by
    simp only [Record.levelWith_compareAt]
  rw [hlevels]
  simp only [← Record.compareAt_eq_lt_iff]
  exact ⟨fun h => ⟨h.perm, h.sorted, h.stable⟩, fun ⟨hperm, hsorted, hstable⟩ =>
    ⟨hperm, hsorted, hstable⟩⟩

/-- Records sorted and then filtered are the filtered records sorted. -/
theorem filter_apply_sort (p : Record → Bool) (field : String) (descending : Bool)
    (records : List Record) (source : WordSource) :
    ((sort field descending).apply records source).1.filter p =
      ((sort field descending).apply (records.filter p) source).1 := by
  have hsorts := (stablySorts_iff_apply field descending records source).mpr rfl
  exact ((stablySorts_iff_apply field descending _ source).mp (hsorts.filter p)).symm

/-- Two pipelines in a row are one pipeline. -/
theorem applyAll_append (stages others : List Stage) (records : List Record)
    (source : WordSource) :
    applyAll (stages ++ others) records source =
      applyAll others (applyAll stages records source).1 (applyAll stages records source).2 := by
  rw [applyAll, List.foldl_append]
  rfl

theorem applyAll_cons (stage : Stage) (stages : List Stage) (records : List Record)
    (source : WordSource) :
    applyAll (stage :: stages) records source =
      applyAll stages (stage.apply records source).1 (stage.apply records source).2 := rfl

/-- **A filter and a sort stage may be exchanged**, alone or anywhere in a pipeline. -/
theorem keep_sort_comm (before after : List Stage) (query : Record) (field : String)
    (descending : Bool) (records : List Record) (source : WordSource) :
    applyAll (before ++ keep query :: sort field descending :: after) records source =
      applyAll (before ++ sort field descending :: keep query :: after) records source := by
  rw [applyAll_append, applyAll_append before, applyAll_cons, applyAll_cons, applyAll_cons,
    applyAll_cons]
  obtain ⟨current, source⟩ := applyAll before records source
  have hfilter := filter_apply_sort (fun r => Record.matchesQuery r query) field descending current
    source
  exact congrArg (fun rs => applyAll after rs source) hfilter.symm

end Stage

end DocStore
