import Mathlib.Data.List.Forall2
import DocStore.Collection.Operation
import DocStore.Proofs.Double.Whole
import DocStore.Proofs.Json.WellFormed
/-!
# The grammar of pipelines

Which JSON values describe a pipeline, said as rules: one for each stage, and rules of their own for
the keys and outputs of a grouping and for the fields of a projection. The rules say what is
described, too, so a stage carries the parameters of its description and nothing else. Decoding
follows them in both directions: it answers what the rules derive, and is a fault where they derive
nothing.

* `Describes`: the rules.
* `groupingOf_eq_ok_iff`, `projectionOf_eq_ok_iff`, `sortOf_eq_ok_iff`, `countOf_eq_ok_iff`: each
  reader of parameters against its rules.
* `describes_of_named`, `decode_of_describes`, `decode_eq_ok_iff`: a description and its stage.
* `pipeline_grammar`: a whole pipeline, and the error of every other value.
-/

namespace DocStore

section Steps

variable {ε α β : Type}

/-- Two steps in a row succeed where the first does and the second does with its answer. -/
theorem bind_eq_ok_iff {x : Except ε α} {f : α → Except ε β} {b : β} :
    x >>= f = .ok b ↔ ∃ a, x = .ok a ∧ f a = .ok b := by
  cases x with
  | error e => exact ⟨nofun, nofun⟩
  | ok a => exact ⟨fun h => ⟨a, rfl, h⟩, fun ⟨_, hx, h⟩ => Except.ok.inj hx ▸ h⟩

/-- Items are decoded one by one. -/
theorem mapM_eq_ok_iff {f : α → Except ε β} {items : List α} {out : List β} :
    items.mapM f = .ok out ↔ List.Forall₂ (fun a b => f a = .ok b) items out := by
  induction items generalizing out with
  | nil =>
    rw [List.mapM_nil, List.forall₂_nil_left_iff]
    exact ⟨fun h => (Except.ok.inj h).symm, fun h => congrArg _ h.symm⟩
  | cons a rest ih =>
    rw [List.mapM_cons, List.forall₂_cons_left_iff, bind_eq_ok_iff]
    constructor
    · rintro ⟨b, hb, h⟩
      obtain ⟨bs, hbs, h⟩ := bind_eq_ok_iff.mp h
      exact ⟨b, bs, hb, ih.mp hbs, (Except.ok.inj h).symm⟩
    · rintro ⟨b, bs, hb, hbs, rfl⟩
      exact ⟨b, hb, bind_eq_ok_iff.mpr ⟨bs, ih.mpr hbs, rfl⟩⟩

end Steps

namespace Stage

-- ---------------------------------------------------------------------------
-- The rules
-- ---------------------------------------------------------------------------

/-- The key that the id of a grouping stands for. There is one for every id, and for none. -/
inductive KeyOf : Option Json → GroupKey → Prop
  | absent : KeyOf none .record
  | null : KeyOf (some .null) .record
  | path (path : String) : KeyOf (some (.string ("$" ++ path))) (.field path)
  | constant {v : Json} (hnull : v ≠ .null) (hpath : ∀ path, v ≠ .string ("$" ++ path)) :
      KeyOf (some v) (.constant v)

/-- A member of a grouping and the output it describes. -/
inductive Sums : String × Json → String × Contribution → Prop
  | path (name path : String) :
      Sums (name, .object [("$sum", .string ("$" ++ path))]) (name, .field path)
  | constant (name : String) (x : Number) :
      Sums (name, .object [("$sum", .number x)]) (name, .constant x.toDouble)

/-- A member of a projection and the path its field is taken from, if it is taken at all. -/
inductive Takes : String × Json → Option String → Prop
  | path (name path : String) : Takes (name, .string ("$" ++ path)) (some path)
  | plain {name s : String} (h : ∀ path, s ≠ "$" ++ path) : Takes (name, .string s) (some s)
  | kept (name : String) : Takes (name, .bool true) (some name)
  | one {name : String} {x : Number} (h : x.IsWhole 1) : Takes (name, .number x) (some name)
  | left (name : String) : Takes (name, .bool false) none
  | zero {name : String} {x : Number} (h : x.IsWhole 0) : Takes (name, .number x) none

/-- The members of a projection and the fields they describe, in order. -/
inductive Projects : Fields Json → List (String × String) → Prop
  | nil : Projects [] []
  | take {m : String × Json} {path : String} {rest : Fields Json} {fields : List (String × String)}
      (h : Takes m (some path)) (hrest : Projects rest fields) :
      Projects (m :: rest) ((m.1, path) :: fields)
  | leave {m : String × Json} {rest : Fields Json} {fields : List (String × String)}
      (h : Takes m none) (hrest : Projects rest fields) : Projects (m :: rest) fields

/-- The names of the stages that do something. -/
def knownNames : List String :=
  ["$match", "$group", "$project", "$sort", "$skip", "$limit", "$sample"]

/-- A description and the stage it stands for. -/
inductive Describes : Json → Stage → Prop
  | keep (query : Record) : Describes (.object [("$match", .object query)]) (keep query)
  | group {members : Fields Json} {key : GroupKey} {outputs : List (String × Contribution)}
      (hkey : KeyOf (Fields.get? members Record.idField) key)
      (houtputs : List.Forall₂ Sums (members.filter fun m => m.1 != Record.idField) outputs) :
      Describes (.object [("$group", .object members)]) (group ⟨key, outputs⟩)
  | project {members : Fields Json} {fields : List (String × String)}
      (h : Projects members fields) :
      Describes (.object [("$project", .object members)]) (project fields)
  | ascending (field : String) {x : Number} (h : x.IsWhole 1) :
      Describes (.object [("$sort", .object [(field, .number x)])]) (sort field false)
  | descending (field : String) {x : Number} (h : x.IsWhole (-1)) :
      Describes (.object [("$sort", .object [(field, .number x)])]) (sort field true)
  | skip {n : ℕ} (h : n < 2 ^ 64) : Describes (.object [("$skip", .nat n)]) (skip n)
  | limit {n : ℕ} (h : n < 2 ^ 64) : Describes (.object [("$limit", .nat n)]) (limit n)
  | sample {n : ℕ} (h : n < 2 ^ 64) : Describes (.object [("$sample", .nat n)]) (sample n)
  | unknown {name : String} (params : Json) (h : name ∉ knownNames) :
      Describes (.object [(name, params)]) (unknown name)

variable {v params : Json} {members : Fields Json} {name s path : String} {n : ℕ}

-- ---------------------------------------------------------------------------
-- Readers of parameters
-- ---------------------------------------------------------------------------

/-- An object with one member is described by it. -/
theorem onlyMember?_eq_some_iff {m : String × Json} :
    onlyMember? v = some m ↔ v = .object [m] := by
  unfold onlyMember?
  split
  · simp
  · rename_i h
    exact ⟨nofun, fun heq => absurd heq (h m)⟩

/-- A path is what follows a dollar sign. -/
theorem afterDollar?_eq_some_iff : afterDollar? s = some path ↔ s = "$" ++ path := by
  rw [← String.toList_inj, String.toList_append, afterDollar?]
  split
  · rename_i rest h
    rw [h, Option.some.injEq, ← String.toList_inj, String.toList_ofList]
    simp
  · rename_i h
    exact ⟨nofun, fun heq => absurd heq (h _)⟩

theorem afterDollar?_eq_none_iff : afterDollar? s = none ↔ ∀ path, s ≠ "$" ++ path := by
  rw [Option.eq_none_iff_forall_ne_some]
  exact forall_congr' fun path => not_congr afterDollar?_eq_some_iff

theorem afterDollar?_append (path : String) : afterDollar? ("$" ++ path) = some path :=
  afterDollar?_eq_some_iff.mpr rfl

/-- Parameters that have to be an object are accepted if they are one. -/
theorem objectOf_eq_ok_iff : objectOf name params = .ok members ↔ params = .object members := by
  cases params with
  | object given =>
    exact ⟨fun h => congrArg _ (Except.ok.inj h), fun h => congrArg _ (Json.object.inj h)⟩
  | _ => exact ⟨nofun, nofun⟩

/-- A count is an integer that is not negative. -/
theorem asNat?_eq_some_iff : params.asNat? = some n ↔ params = .nat n := by
  cases params with
  | number x =>
    cases x with
    | int i =>
      rw [Json.asNat?, Option.ite_none_right_eq_some, Option.some.injEq, Json.nat, Json.int,
        Json.number.injEq, Number.int.injEq]
      omega
    | float d => exact ⟨nofun, nofun⟩
  | _ => exact ⟨nofun, nofun⟩

/-- A count is an integer. That it has 64 bits is no check of its own: all integers have. -/
theorem countOf_eq_ok_iff (hparams : params.WellFormed) :
    countOf name params = .ok n ↔ n < 2 ^ 64 ∧ params = .nat n := by
  have hrange : params = .nat n → n < 2 ^ 64 := by
    rintro rfl
    have hhigh : (n : ℤ) < Nat.pow 2 64 := hparams.2
    exact_mod_cast hhigh
  rw [and_iff_right_of_imp hrange, ← asNat?_eq_some_iff, countOf]
  cases params.asNat? with
  | some m => exact ⟨fun h => congrArg _ (Except.ok.inj h), fun h => congrArg _ (Option.some.inj h)⟩
  | none => exact ⟨nofun, nofun⟩

/-- A stage that has a count and nothing else. -/
theorem counted_eq_ok (hparams : params.WellFormed) {counted : ℕ → Stage} {stage : Stage}
    (h : (countOf name params >>= fun n => .ok (counted n)) = .ok stage) :
    ∃ n, n < 2 ^ 64 ∧ params = .nat n ∧ stage = counted n := by
  obtain ⟨n, hn, hstage⟩ := bind_eq_ok_iff.mp h
  obtain ⟨hlt, rfl⟩ := (countOf_eq_ok_iff hparams).mp hn
  exact ⟨n, hlt, rfl, (Except.ok.inj hstage).symm⟩

-- ---------------------------------------------------------------------------
-- Groupings
-- ---------------------------------------------------------------------------

/-- **An id of a grouping stands for its key**, and every id for one. -/
theorem groupKeyOf_eq_iff {id? : Option Json} {key : GroupKey} :
    groupKeyOf id? = key ↔ KeyOf id? key := by
  constructor
  · rintro rfl
    unfold groupKeyOf
    split
    · exact .absent
    · exact .null
    · rename_i s
      -- a text is a path if it has a dollar sign in front, and a constant otherwise
      cases h : afterDollar? s with
      | some path =>
        obtain rfl := afterDollar?_eq_some_iff.mp h
        exact .path path
      | none =>
        refine .constant nofun fun path heq => ?_
        exact afterDollar?_eq_none_iff.mp h path (Json.string.inj heq)
    · rename_i v hnull hstring
      exact .constant hnull fun path => hstring _
  · intro h
    cases h with
    | absent | null => rfl
    | path path => rw [groupKeyOf, afterDollar?_append]
    | @constant v hnull hpath =>
      cases v with
      | null => exact absurd rfl hnull
      | string s =>
        have hplain : afterDollar? s = none :=
          afterDollar?_eq_none_iff.mpr fun path heq => hpath path (congrArg _ heq)
        rw [groupKeyOf, hplain]
      | _ => rfl

/-- The only operator of an output is a sum. -/
theorem sumOperand?_eq_some_iff {operand : Json} :
    sumOperand? v = some operand ↔ v = .object [("$sum", operand)] := by
  unfold sumOperand?
  split
  · rename_i name given h
    obtain rfl := onlyMember?_eq_some_iff.mp h
    simp
  · rename_i h
    refine ⟨nofun, fun heq => ?_⟩
    rw [onlyMember?_eq_some_iff.mpr heq] at h
    cases h

/-- **An output is accepted as it is described.** -/
theorem outputOf_eq_ok_iff {operator : Json} {output : String × Contribution} :
    outputOf name operator = .ok output ↔ Sums (name, operator) output := by
  constructor
  · intro h
    unfold outputOf at h
    split at h
    · cases h
    · rename_i operand hoperand
      obtain rfl := sumOperand?_eq_some_iff.mp hoperand
      split at h
      · cases h
      · rename_i c hc
        obtain rfl := Except.ok.inj h
        cases operand with
        | string s =>
          obtain ⟨path, hpath, rfl⟩ := Option.map_eq_some_iff.mp hc
          obtain rfl := afterDollar?_eq_some_iff.mp hpath
          exact .path name path
        | number x =>
          obtain rfl := Option.some.inj hc
          exact .constant name x
        | _ => cases hc
  · intro h
    cases h with
    | path name path =>
      have hc : contributionOf? (.string ("$" ++ path)) = some (.field path) :=
        congrArg (Option.map Contribution.field) (afterDollar?_append path)
      rw [outputOf, sumOperand?_eq_some_iff.mpr rfl]
      dsimp only
      rw [hc]
    | constant name x => rfl

/-- **A grouping is accepted as it is described**, each member but the id as an output. -/
theorem groupingOf_eq_ok_iff {g : Grouping} :
    groupingOf members = .ok g ↔
      KeyOf (Fields.get? members Record.idField) g.key ∧
        List.Forall₂ Sums (members.filter fun m => m.1 != Record.idField) g.outputs := by
  rw [groupingOf, bind_eq_ok_iff]
  simp only [mapM_eq_ok_iff, outputOf_eq_ok_iff]
  constructor
  · rintro ⟨outputs, houtputs, h⟩
    obtain rfl := Except.ok.inj h
    exact ⟨groupKeyOf_eq_iff.mp rfl, houtputs⟩
  · rintro ⟨hkey, houtputs⟩
    refine ⟨g.outputs, houtputs, ?_⟩
    rw [groupKeyOf_eq_iff.mpr hkey]

-- ---------------------------------------------------------------------------
-- Projections and sorting
-- ---------------------------------------------------------------------------

theorem sameValue_one {x : Number} : x.sameValue (.int 1) = true ↔ x.IsWhole 1 :=
  Number.sameValue_int_iff (by decide)

theorem sameValue_zero {x : Number} : x.sameValue (.int 0) = true ↔ x.IsWhole 0 :=
  Number.sameValue_int_iff (by decide)

theorem sameValue_neg_one {x : Number} : x.sameValue (.int (-1)) = true ↔ x.IsWhole (-1) :=
  Number.sameValue_int_iff (by decide)

/-- A member of a projection is accepted as it is described. -/
theorem sourceOf_eq_ok_iff {source? : Option (String × String)} :
    sourceOf name v = .ok source? ↔
      ∃ path?, Takes (name, v) path? ∧ source? = path?.map fun path => (name, path) := by
  constructor
  · intro h
    unfold sourceOf at h
    split at h
    · rename_i s
      obtain rfl := Except.ok.inj h
      cases hs : afterDollar? s with
      | some path =>
        obtain rfl := afterDollar?_eq_some_iff.mp hs
        exact ⟨_, .path name path, rfl⟩
      | none => exact ⟨_, .plain (afterDollar?_eq_none_iff.mp hs), rfl⟩
    · obtain rfl := Except.ok.inj h
      exact ⟨_, .kept name, rfl⟩
    · obtain rfl := Except.ok.inj h
      exact ⟨_, .left name, rfl⟩
    · split at h
      · rename_i hone
        obtain rfl := Except.ok.inj h
        exact ⟨_, .one (sameValue_one.mp hone), rfl⟩
      · split at h
        · rename_i hzero
          obtain rfl := Except.ok.inj h
          exact ⟨_, .zero (sameValue_zero.mp hzero), rfl⟩
        · cases h
    · cases h
  · rintro ⟨path?, h, rfl⟩
    cases h with
    | path name path => rw [sourceOf, afterDollar?_append]; rfl
    | plain h => rw [sourceOf, afterDollar?_eq_none_iff.mpr h]; rfl
    | kept | left => rfl
    | one h => exact if_pos (sameValue_one.mpr h)
    | @zero name x h =>
      -- a number is asked for `1` first, and no number is both
      have hone : ¬ x.sameValue (.int 1) = true := by
        rw [sameValue_one]
        exact fun h' => absurd (h.unique h') (by decide)
      rw [sourceOf, if_neg hone, if_pos (sameValue_zero.mpr h)]
      rfl

/-- **A projection is accepted as it is described**, member by member. -/
theorem projectionOf_eq_ok_iff {fields : List (String × String)} :
    projectionOf members = .ok fields ↔ Projects members fields := by
  rw [projectionOf, bind_eq_ok_iff]
  simp only [mapM_eq_ok_iff, sourceOf_eq_ok_iff]
  constructor
  · rintro ⟨sources, hsources, h⟩
    obtain rfl := Except.ok.inj h
    -- the fields that are left out are described as well, so over the members and their sources
    clear h
    induction hsources with
    | nil => exact .nil
    | @cons m source? rest others hm hrest ih =>
      obtain ⟨path?, htakes, rfl⟩ := hm
      cases path? with
      | some path => exact .take htakes ih
      | none => exact .leave htakes ih
  · intro h
    induction h with
    | nil => exact ⟨[], .nil, rfl⟩
    | @take m path rest fields htakes hrest ih =>
      obtain ⟨sources, hsources, heq⟩ := ih
      obtain rfl := Except.ok.inj heq
      exact ⟨_, .cons ⟨_, htakes, rfl⟩ hsources, rfl⟩
    | @leave m rest fields htakes hrest ih =>
      obtain ⟨sources, hsources, heq⟩ := ih
      obtain rfl := Except.ok.inj heq
      exact ⟨_, .cons ⟨_, htakes, rfl⟩ hsources, rfl⟩

theorem asNumber?_eq_some_iff {x : Number} : v.asNumber? = some x ↔ v = .number x := by
  cases v with
  | number y => rw [Json.asNumber?, Option.some.injEq, Json.number.injEq]
  | _ => exact ⟨nofun, nofun⟩

/-- **A sort is accepted** for one field, in one of two directions. -/
theorem sortOf_eq_ok_iff {stage : Stage} :
    sortOf members = .ok stage ↔ ∃ field x, members = [(field, .number x)] ∧
      (x.IsWhole 1 ∧ stage = sort field false ∨ x.IsWhole (-1) ∧ stage = sort field true) := by
  constructor
  · intro h
    unfold sortOf at h
    split at h
    · rename_i field direction
      split at h
      · rename_i x hx
        obtain rfl := asNumber?_eq_some_iff.mp hx
        split at h
        · rename_i hone
          exact ⟨field, x, rfl, .inl ⟨sameValue_one.mp hone, (Except.ok.inj h).symm⟩⟩
        · split at h
          · rename_i hneg
            exact ⟨field, x, rfl, .inr ⟨sameValue_neg_one.mp hneg, (Except.ok.inj h).symm⟩⟩
          · cases h
      · cases h
    · cases h
  · rintro ⟨field, x, rfl, ⟨h, rfl⟩ | ⟨h, rfl⟩⟩
    · exact if_pos (sameValue_one.mpr h)
    · -- a number is asked for `1` first, and no number is both
      have hone : ¬ x.sameValue (.int 1) = true := by
        rw [sameValue_one]
        exact fun h' => absurd (h.unique h') (by decide)
      have hsort : sortOf [(field, .number x)] = if x.sameValue (.int (-1)) then
          .ok (sort field true) else .error (.sortDirection field (.number x)) := if_neg hone
      rw [hsort, if_pos (sameValue_neg_one.mpr h)]

-- ---------------------------------------------------------------------------
-- Stages
-- ---------------------------------------------------------------------------

/-- What is decoded under a name was described by it. -/
theorem describes_of_named {stage : Stage} (hparams : params.WellFormed)
    (h : named name params = .ok stage) : Describes (.object [(name, params)]) stage := by
  unfold named at h
  -- a case for each known name, in the order of `knownNames`, and one for all others
  split at h
  · obtain ⟨query, hquery, hstage⟩ := bind_eq_ok_iff.mp h
    obtain rfl := objectOf_eq_ok_iff.mp hquery
    obtain rfl := Except.ok.inj hstage
    exact .keep query
  · obtain ⟨members, hmembers, hrest⟩ := bind_eq_ok_iff.mp h
    obtain ⟨g, hg, hstage⟩ := bind_eq_ok_iff.mp hrest
    obtain rfl := objectOf_eq_ok_iff.mp hmembers
    obtain rfl := Except.ok.inj hstage
    obtain ⟨hkey, houtputs⟩ := groupingOf_eq_ok_iff.mp hg
    exact .group hkey houtputs
  · obtain ⟨members, hmembers, hrest⟩ := bind_eq_ok_iff.mp h
    obtain ⟨fields, hfields, hstage⟩ := bind_eq_ok_iff.mp hrest
    obtain rfl := objectOf_eq_ok_iff.mp hmembers
    obtain rfl := Except.ok.inj hstage
    exact .project (projectionOf_eq_ok_iff.mp hfields)
  · obtain ⟨members, hmembers, hsort⟩ := bind_eq_ok_iff.mp h
    obtain rfl := objectOf_eq_ok_iff.mp hmembers
    obtain ⟨field, x, rfl, ⟨hx, rfl⟩ | ⟨hx, rfl⟩⟩ := sortOf_eq_ok_iff.mp hsort
    · exact .ascending field hx
    · exact .descending field hx
  · obtain ⟨n, hlt, rfl, rfl⟩ := counted_eq_ok hparams h
    exact .skip hlt
  · obtain ⟨n, hlt, rfl, rfl⟩ := counted_eq_ok hparams h
    exact .limit hlt
  · obtain ⟨n, hlt, rfl, rfl⟩ := counted_eq_ok hparams h
    exact .sample hlt
  · rename_i hmatch hgroup hproject hsort hskip hlimit hsample
    obtain rfl := Except.ok.inj h
    refine .unknown params ?_
    simp only [knownNames, List.mem_cons, List.not_mem_nil, or_false, not_or]
    exact ⟨hmatch, hgroup, hproject, hsort, hskip, hlimit, hsample⟩

/-- A name that is not known stands for a stage that does nothing. -/
theorem named_of_not_known (h : name ∉ knownNames) : named name params = .ok (unknown name) := by
  simp only [knownNames, List.mem_cons, List.not_mem_nil, or_false, not_or] at h
  obtain ⟨hmatch, hgroup, hproject, hsort, hskip, hlimit, hsample⟩ := h
  unfold named
  split <;> first | contradiction | rfl

/-- What is described is decoded. -/
theorem decode_of_describes {stage : Stage} (h : Describes v stage) : decode v = .ok stage := by
  cases h with
  | keep query => rfl
  | @group members key outputs hkey houtputs =>
    have hg : groupingOf members = .ok ⟨key, outputs⟩ := groupingOf_eq_ok_iff.mpr ⟨hkey, houtputs⟩
    exact bind_eq_ok_iff.mpr ⟨members, rfl, bind_eq_ok_iff.mpr ⟨_, hg, rfl⟩⟩
  | @project members fields h =>
    have hfields : projectionOf members = .ok fields := projectionOf_eq_ok_iff.mpr h
    exact bind_eq_ok_iff.mpr ⟨members, rfl, bind_eq_ok_iff.mpr ⟨_, hfields, rfl⟩⟩
  | ascending field h => exact sortOf_eq_ok_iff.mpr ⟨field, _, rfl, .inl ⟨h, rfl⟩⟩
  | descending field h => exact sortOf_eq_ok_iff.mpr ⟨field, _, rfl, .inr ⟨h, rfl⟩⟩
  | skip h | limit h | sample h => rfl
  | unknown params h => exact named_of_not_known h

/-- **A stage is decoded from its description**, and from no other value. -/
theorem decode_eq_ok_iff {stage : Stage} (hv : v.WellFormed) :
    decode v = .ok stage ↔ Describes v stage := by
  refine ⟨fun h => ?_, decode_of_describes⟩
  unfold decode at h
  split at h
  · rename_i name params hmember
    obtain rfl := onlyMember?_eq_some_iff.mp hmember
    have hparams := (Json.wellFormed_object.mp hv).2 (name, params) (List.mem_singleton_self _)
    exact describes_of_named hparams h
  · cases h

/-- Stages stand for the items of a list, one each and in order. -/
theorem decodeAll_eq_ok_iff {stages : List Stage} (hv : v.WellFormed) :
    decodeAll v = .ok stages ↔ ∃ items, v = .array items ∧ List.Forall₂ Describes items stages := by
  cases v with
  | array items =>
    have hitems := Json.wellFormed_array.mp hv
    have hdecode : decodeAll (.array items) = .ok stages ↔ List.Forall₂ Describes items stages :=
      calc decodeAll (.array items) = .ok stages
          ↔ List.Forall₂ (fun v stage => decode v = .ok stage) items stages := mapM_eq_ok_iff
        _ ↔ List.Forall₂ (fun v stage => v.WellFormed ∧ decode v = .ok stage) items stages := by
            rw [List.forall₂_and_left, and_iff_right hitems]
        _ ↔ List.Forall₂ (fun v stage => v.WellFormed ∧ Describes v stage) items stages := by
            simp only [and_congr_right_iff.mpr decode_eq_ok_iff]
        _ ↔ List.Forall₂ Describes items stages := by
            rw [List.forall₂_and_left, and_iff_right hitems]
    exact hdecode.trans ⟨fun h => ⟨items, rfl, h⟩, fun ⟨_, heq, h⟩ => Json.array.inj heq ▸ h⟩
  | _ => exact ⟨nofun, nofun⟩

/-- **The grammar of pipelines.** A JSON value is decoded into stages exactly if it is a list whose
items describe them in turn. Every other value is an invalid stage, and running it leaves the
collection and the world as they were. -/
theorem pipeline_grammar (hv : v.WellFormed) :
    (∀ stages, decodeAll v = .ok stages ↔
      ∃ items, v = .array items ∧ List.Forall₂ Describes items stages) ∧
    ((¬ ∃ items stages, v = .array items ∧ List.Forall₂ Describes items stages) →
      ∃ fault, decodeAll v = .error fault ∧
        ∀ (c : Collection) (w : World), c.aggregate w v = ⟨.error (.invalidStage fault), c, w⟩) := by
  refine ⟨fun stages => decodeAll_eq_ok_iff hv, fun hnone => ?_⟩
  cases hdecode : decodeAll v with
  | ok stages =>
    obtain ⟨items, heq, hitems⟩ := (decodeAll_eq_ok_iff hv).mp hdecode
    exact absurd ⟨items, stages, heq, hitems⟩ hnone
  -- the value is decoded before anything is loaded, so the collection is as it was
  | error fault =>
    refine ⟨fault, rfl, fun c w => ?_⟩
    rw [Collection.aggregate, hdecode]

namespace Sample

def float (n : ℤ) : Number := .float (Number.int n).toDouble

/-- The totals of each team, from the greatest, with a stage that is not known. -/
def ranking : List Json :=
  [.object [("$match", .object [("n", .int 1)])],
    .object [("$group", .object [("count", .object [("$sum", .number (.int 1))]),
      ("_id", .string "$team"), ("total", .object [("$sum", .string "$stats.n")])])],
    .object [("$project", .object [("total", .bool true), ("team", .string "_id"),
      ("count", .number (float 0))])],
    .object [("$sort", .object [("total", .number (float (-1)))])],
    .object [("$limit", .nat 18446744073709551615)],
    .object [("$unwind", .null)]]

def rankingStages : List Stage :=
  [keep [("n", .int 1)],
    group ⟨.field "team",
      [("count", .constant (Number.int 1).toDouble), ("total", .field "stats.n")]⟩,
    project [("total", "total"), ("team", "_id")],
    sort "total" true,
    limit 18446744073709551615,
    unknown "$unwind"]

/-- The ranking is described stage by stage. -/
theorem describes_ranking : List.Forall₂ Describes ranking rankingStages := by
  have hgroup : List.Forall₂ Sums
      [("count", .object [("$sum", .number (.int 1))]),
        ("total", .object [("$sum", .string "$stats.n")])]
      [("count", .constant (Number.int 1).toDouble), ("total", .field "stats.n")] :=
    .cons (.constant "count" (.int 1)) (.cons (.path "total" "stats.n") .nil)
  have hteam : Takes ("team", .string "_id") (some "_id") :=
    .plain (afterDollar?_eq_none_iff.mp (by decide))
  have hproject : Projects
      [("total", .bool true), ("team", .string "_id"), ("count", .number (float 0))]
      [("total", "total"), ("team", "_id")] :=
    .take (.kept "total") (.take hteam (.leave (.zero (by decide +kernel)) .nil))
  exact .cons (.keep _) <| .cons (.group (.path "team") hgroup) <| .cons (.project hproject) <|
    .cons (.descending "total" (by decide +kernel)) <| .cons (.limit (by decide)) <|
    .cons (.unknown .null (by decide)) .nil

theorem wellFormed_ranking : (Json.array ranking).WellFormed := by
  simp [ranking, Json.WellFormed, Json.WellFormedItems, Json.WellFormedMembers, Fields.Distinct,
    Fields.names, Json.int, Json.nat, float, Number.IntegerRange]

/-- A limit that is a float. -/
def floatCount : Json := .array [.object [("$limit", .number (float 2))]]

theorem wellFormed_floatCount : floatCount.WellFormed := by
  simp [floatCount, Json.WellFormed, Json.WellFormedItems, Json.WellFormedMembers, Fields.Distinct,
    Fields.names, float]

/-- A float is no count, whatever its value. -/
theorem not_describes_floatCount :
    ¬ ∃ items stages, floatCount = .array items ∧ List.Forall₂ Describes items stages := by
  rintro ⟨items, stages, heq, h⟩
  obtain rfl := Json.array.inj heq
  obtain ⟨stage, -, hstage, -⟩ := List.forall₂_cons_left_iff.mp h
  generalize hitem : Json.object [("$limit", .number (float 2))] = item at hstage
  cases hstage with
  | unknown _ hname =>
    simp only [Json.object.injEq, List.cons.injEq, Prod.mk.injEq] at hitem
    obtain ⟨⟨rfl, -⟩, -⟩ := hitem
    exact hname (by decide)
  | _ => simp [float, Json.nat, Json.int] at hitem

end Sample

/-- A pipeline of six stages, and one with a float for a count. -/
theorem pipeline_grammar_ranking :
    decodeAll (.array Sample.ranking) = .ok Sample.rankingStages ∧
      ∃ fault, decodeAll Sample.floatCount = .error fault := by
  obtain ⟨hranking, -⟩ := pipeline_grammar Sample.wellFormed_ranking
  obtain ⟨-, hrefused⟩ := pipeline_grammar Sample.wellFormed_floatCount
  obtain ⟨fault, hfault, -⟩ := hrefused Sample.not_describes_floatCount
  exact ⟨(hranking _).mpr ⟨_, rfl, Sample.describes_ranking⟩, fault, hfault⟩

end Stage

end DocStore
