import DocStore.Pipeline.Run
import DocStore.Proofs.Json.Transitivity
/-!
# What groups share

A record counts in the first group whose key is the same as its own. Where equality of keys is
transitive this is a partition by equality. Where three keys do not compose, a float between two
integers that round to it, records of different keys share a group, and which ones do depends on
the order of the records.

* `place_cases`: what placing one record does to the groups.
* `Counted`: how the groups hold the records placed so far.
* `counted_groups`: they do after every list of records.
* `group_by_equality`: when groups are the classes of equal keys.
-/

namespace DocStore

/-- The group with one more member. -/
def Group.add (r : Record) (group : Group) : Group :=
  { group with members := group.members ++ [r] }

namespace Grouping

-- ---------------------------------------------------------------------------
-- Seats
-- ---------------------------------------------------------------------------

def keysOf (groups : List Group) : List Json := groups.map Group.key

/-- The place of the first key that is the same as this one, the number of keys if none is. -/
def placeOf (keys : List Json) (key : Json) : Nat := keys.findIdx fun k => Json.sameValue k key

/-- The place of the group that a record counts in. -/
def seat (g : Grouping) (records : List Record) (r : Record) : Nat :=
  placeOf (keysOf (g.groups records)) (g.key.of r)

/-- Where the keys of two records equal that of a third, they hold no two different integers at one
place. -/
def KeysCompose (g : Grouping) (records : List Record) : Prop :=
  ∀ r ∈ records, ∀ s ∈ records, ∀ t ∈ records,
    Json.sameValue (g.key.of r) (g.key.of s) = true →
      Json.sameValue (g.key.of s) (g.key.of t) = true →
        Json.sameIntegers (g.key.of r) (g.key.of t) = true

variable {g : Grouping} {records shuffled : List Record} {groups : List Group} {r s : Record}
  {keys : List Json} {key : Json}

theorem length_keysOf : (keysOf groups).length = groups.length := List.length_map _

theorem keysOf_append {more : List Group} : keysOf (groups ++ more) = keysOf groups ++ keysOf more :=
  List.map_append

theorem placeOf_cons {k : Json} :
    placeOf (k :: keys) key = if Json.sameValue k key then 0 else placeOf keys key + 1 := by
  rw [placeOf, List.findIdx_cons]
  cases Json.sameValue k key <;> rfl

/-- Keys added at the end leave the places of those that have one. -/
theorem placeOf_append {more : List Json} (h : placeOf keys key < keys.length) :
    placeOf (keys ++ more) key = placeOf keys key := by
  rw [placeOf, List.findIdx_append]
  exact if_pos h

theorem placeOf_append_self (h : placeOf keys key = keys.length)
    (hself : Json.sameValue key key = true) : placeOf (keys ++ [key]) key = keys.length := by
  rw [placeOf, List.findIdx_append, ← placeOf, h, if_neg (Nat.lt_irrefl _), List.findIdx_singleton,
    if_pos hself, Nat.zero_add]

/-- Keys that equal the same keys have the same place. -/
theorem placeOf_congr {key' : Json}
    (h : ∀ k ∈ keys, Json.sameValue k key = Json.sameValue k key') :
    placeOf keys key = placeOf keys key' := by
  induction keys with
  | nil => rfl
  | cons k rest ih =>
    rw [List.forall_mem_cons] at h
    rw [placeOf_cons, placeOf_cons, h.1, ih h.2]

/-- A new member leaves the keys. -/
theorem keysOf_modify (i : Nat) : keysOf (groups.modify i (Group.add r)) = keysOf groups := by
  induction groups generalizing i with
  | nil => rw [List.modify_nil]
  | cons group rest ih =>
    cases i with
    | zero => rfl
    | succ i =>
      rw [List.modify_succ_cons]
      exact congrArg (group.key :: ·) (ih i)

-- ---------------------------------------------------------------------------
-- Placing one record
-- ---------------------------------------------------------------------------

/-- A record joins the first group of its key, or opens a group at the end. -/
theorem place_cases (key : Json) (r : Record) (groups : List Group) :
    (placeOf (keysOf groups) key < groups.length ∧
      place key r groups = groups.modify (placeOf (keysOf groups) key) (Group.add r)) ∨
    (placeOf (keysOf groups) key = groups.length ∧
      place key r groups = groups ++ [⟨key, [r]⟩]) := by
  induction groups with
  | nil => exact .inr ⟨rfl, rfl⟩
  | cons group rest ih =>
    rw [place, keysOf, List.map_cons, placeOf_cons, ← keysOf, List.length_cons]
    by_cases h : Json.sameValue group.key key = true
    · rw [if_pos h, if_pos h]
      exact .inl ⟨Nat.succ_pos _, rfl⟩
    · rw [if_neg h, if_neg h]
      -- ⟨heq, hplace⟩ := ih | not the first group: one later place, in the rest or behind it
      obtain ⟨hlt, hplace⟩ | ⟨heq, hplace⟩ := ih
      · refine .inl ⟨Nat.succ_lt_succ hlt, ?_⟩
        rw [List.modify_succ_cons, hplace]
      · refine .inr ⟨congrArg _ heq, ?_⟩
        rw [List.cons_append, hplace]

/-- Placing a record keeps all keys, and may add one behind them. -/
theorem keysOf_place (key : Json) (r : Record) (groups : List Group) :
    keysOf groups <+: keysOf (place key r groups) := by
  obtain ⟨-, hplace⟩ | ⟨-, hplace⟩ := place_cases key r groups
  · rw [hplace, keysOf_modify]
  · rw [hplace, keysOf_append]
    exact List.prefix_append _ _

-- ---------------------------------------------------------------------------
-- Placing all records
-- ---------------------------------------------------------------------------

/-- How groups hold the records placed so far. -/
structure Counted (g : Grouping) (records : List Record) (groups : List Group) : Prop where
  /-- Each record has the key of a group. -/
  seated : ∀ r ∈ records, placeOf (keysOf groups) (g.key.of r) < groups.length
  /-- The members of a group are the records that have their place there, in their order. -/
  filled : ∀ i group, groups[i]? = some group →
    group.members = records.filter fun r => placeOf (keysOf groups) (g.key.of r) == i
  /-- The key of a group is that of its first member. -/
  opened : ∀ group ∈ groups, ∃ first rest,
    group.members = first :: rest ∧ group.key = g.key.of first

/-- The key of a group is that of a record. -/
theorem Counted.key_mem (h : Counted g records groups) {k : Json} (hk : k ∈ keysOf groups) :
    ∃ r ∈ records, k = g.key.of r := by
  obtain ⟨group, hgroup, rfl⟩ := List.mem_map.mp hk
  obtain ⟨first, rest, hmembers, hkey⟩ := h.opened group hgroup
  obtain ⟨i, hi⟩ := List.mem_iff_getElem?.mp hgroup
  have hfirst : first ∈ group.members := by
    rw [hmembers]
    exact List.mem_cons_self
  rw [h.filled i group hi] at hfirst
  exact ⟨first, (List.mem_filter.mp hfirst).1, hkey⟩

/-- The groups still hold all records when one has joined the group of its place. -/
theorem Counted.addMember (h : Counted g records groups)
    (hlt : placeOf (keysOf groups) (g.key.of r) < groups.length) :
    Counted g (records ++ [r])
      (groups.modify (placeOf (keysOf groups) (g.key.of r)) (Group.add r)) where
  seated := by
    intro s hs
    rw [keysOf_modify, List.length_modify]
    obtain hs | rfl := List.mem_append.mp hs |>.imp_right List.mem_singleton.mp
    · exact h.seated s hs
    · exact hlt
  filled := by
    intro i group hgroup
    rw [keysOf_modify, List.filter_append, List.filter_singleton, Bool.cond_eq_ite]
    rw [List.getElem?_modify] at hgroup
    obtain ⟨old, hold, hadd⟩ := Option.map_eq_some_iff.mp hgroup
    rw [← h.filled i old hold]
    -- the group of the place gets the record, and all others are as they were
    by_cases hi : placeOf (keysOf groups) (g.key.of r) = i
    · rw [if_pos hi] at hadd
      rw [if_pos (beq_iff_eq.mpr hi), ← hadd]
      rfl
    · rw [if_neg hi] at hadd
      rw [if_neg (mt beq_iff_eq.mp hi), ← hadd, List.append_nil]
  opened := by
    intro group hgroup
    obtain ⟨i, hi⟩ := List.mem_iff_getElem?.mp hgroup
    rw [List.getElem?_modify] at hi
    obtain ⟨old, hold, hadd⟩ := Option.map_eq_some_iff.mp hi
    obtain ⟨first, rest, hmembers, hkey⟩ := h.opened old (List.mem_of_getElem? hold)
    subst hadd
    split
    · exact ⟨first, rest ++ [r], congrArg (· ++ [r]) hmembers, hkey⟩
    · exact ⟨first, rest, hmembers, hkey⟩

/-- The groups still hold all records when one has opened a group of its own. -/
theorem Counted.appendGroup (h : Counted g records groups)
    (heq : placeOf (keysOf groups) (g.key.of r) = groups.length)
    (hself : Json.sameValue (g.key.of r) (g.key.of r) = true) :
    Counted g (records ++ [r]) (groups ++ [⟨g.key.of r, [r]⟩]) := by
  have hlen : (keysOf groups).length = groups.length := length_keysOf
  -- the records placed before keep their places, and the new one takes the last
  have hold : ∀ s ∈ records, placeOf (keysOf (groups ++ [⟨g.key.of r, [r]⟩])) (g.key.of s) =
      placeOf (keysOf groups) (g.key.of s) := by
    intro s hs
    rw [keysOf_append]
    exact placeOf_append (hlen ▸ h.seated s hs)
  have hnew : placeOf (keysOf (groups ++ [⟨g.key.of r, [r]⟩])) (g.key.of r) = groups.length := by
    rw [keysOf_append, ← hlen]
    exact placeOf_append_self (heq.trans hlen.symm) hself
  refine ⟨?_, ?_, ?_⟩
  · intro s hs
    rw [List.length_append, List.length_singleton]
    obtain hs | rfl := List.mem_append.mp hs |>.imp_right List.mem_singleton.mp
    · rw [hold s hs]
      exact Nat.lt_succ_of_lt (h.seated s hs)
    · rw [hnew]
      exact Nat.lt_succ_self _
  · intro i group hgroup
    have hfilter : (records.filter fun s =>
        placeOf (keysOf (groups ++ [⟨g.key.of r, [r]⟩])) (g.key.of s) == i) =
        records.filter fun s => placeOf (keysOf groups) (g.key.of s) == i := by
      refine List.filter_congr fun s hs => ?_
      rw [hold s hs]
    rw [List.filter_append, List.filter_singleton, Bool.cond_eq_ite, hfilter, hnew]
    rcases Nat.lt_trichotomy i groups.length with hi | rfl | hi
    · rw [List.getElem?_append_left hi] at hgroup
      rw [if_neg (mt beq_iff_eq.mp hi.ne'), List.append_nil]
      exact h.filled i group hgroup
    · rw [List.getElem?_concat_length] at hgroup
      obtain rfl := Option.some.inj hgroup
      -- all earlier records have their places before the new group
      have hnone : (records.filter fun s =>
          placeOf (keysOf groups) (g.key.of s) == groups.length) = [] := by
        refine List.filter_eq_nil_iff.mpr fun s hs => ?_
        exact mt beq_iff_eq.mp (h.seated s hs).ne
      rw [hnone, if_pos (beq_self_eq_true _)]
      rfl
    · rw [List.getElem?_eq_none (by simpa using Nat.succ_le_of_lt hi)] at hgroup
      cases hgroup
  · intro group hgroup
    obtain hgroup | rfl := List.mem_append.mp hgroup |>.imp_right List.mem_singleton.mp
    · exact h.opened group hgroup
    · exact ⟨r, [], rfl, rfl⟩

theorem groups_append (g : Grouping) (records : List Record) (r : Record) :
    g.groups (records ++ [r]) = place (g.key.of r) r (g.groups records) := by
  rw [groups, groups, List.foldl_append]
  rfl

/-- **Grouping holds all records**, each in the first group of its key. -/
theorem counted_groups (hkeys : ∀ r ∈ records, (g.key.of r).WellFormed) :
    Counted g records (g.groups records) := by
  induction records using List.reverseRecOn with
  | nil => exact ⟨by simp, by simp [groups], by simp [groups]⟩
  | append_singleton records r ih =>
    rw [List.forall_mem_append, List.forall_mem_singleton] at hkeys
    -- the last record joins a group of those before it, or opens one
    have hcounted := ih hkeys.1
    rw [groups_append]
    obtain ⟨hlt, hplace⟩ | ⟨heq, hplace⟩ := place_cases (g.key.of r) r (g.groups records)
    · rw [hplace]
      exact hcounted.addMember hlt
    · rw [hplace]
      exact hcounted.appendGroup heq (Json.sameValue_refl hkeys.2)

/-- The first record opens the first group. -/
theorem seat_cons_eq_zero : seat g (r :: records) s = 0 ↔
    Json.sameValue (g.key.of r) (g.key.of s) = true := by
  have hprefix : [g.key.of r] <+: keysOf (g.groups (r :: records)) := by
    induction records using List.reverseRecOn with
    | nil => exact List.prefix_rfl
    | append_singleton records t ih =>
      rw [← List.cons_append, groups_append]
      exact ih.trans (keysOf_place _ _ _)
  obtain ⟨more, hmore⟩ := hprefix
  rw [seat, ← hmore, List.singleton_append, placeOf_cons]
  split
  · exact iff_of_true rfl ‹_›
  · exact iff_of_false (Nat.succ_ne_zero _) ‹_›

-- ---------------------------------------------------------------------------
-- Who shares a group
-- ---------------------------------------------------------------------------

/-- Where keys compose, equality of keys carries over. -/
theorem KeysCompose.sameValue (h : KeysCompose g records) {r s t : Record} (hr : r ∈ records)
    (hs : s ∈ records) (ht : t ∈ records)
    (hrs : Json.sameValue (g.key.of r) (g.key.of s) = true)
    (hst : Json.sameValue (g.key.of s) (g.key.of t) = true) :
    Json.sameValue (g.key.of r) (g.key.of t) = true :=
  (Json.sameValue_trans_iff hrs hst).mpr (h r hr s hs t ht hrs hst)

theorem KeysCompose.perm (h : KeysCompose g records) (hperm : records.Perm shuffled) :
    KeysCompose g shuffled := by
  intro r hr s hs t ht
  exact h r (hperm.mem_iff.mpr hr) s (hperm.mem_iff.mpr hs) t (hperm.mem_iff.mpr ht)

/-- Keys whose integers all are doubles compose. -/
theorem keysCompose_of_exact
    (h : ∀ r ∈ records, (g.key.of r).AllNumbers Number.Exact) : KeysCompose g records := by
  intro r hr s _ t ht hrs hst
  exact Json.sameIntegers_of_exact (h r hr) (h t ht) (Json.sameDouble_trans hrs hst)

theorem sameValue_placeOf (h : placeOf keys key < keys.length) :
    ∃ k ∈ keys, keys[placeOf keys key]? = some k ∧ Json.sameValue k key = true :=
  ⟨keys[placeOf keys key], List.getElem_mem h, List.getElem?_eq_getElem h,
    List.findIdx_getElem (w := h)⟩

/-- Where keys compose, records share a group exactly if their keys are the same. -/
theorem seat_eq_iff (hkeys : ∀ r ∈ records, (g.key.of r).WellFormed)
    (hcompose : KeysCompose g records) (hr : r ∈ records) (hs : s ∈ records) :
    seat g records r = seat g records s ↔
      Json.sameValue (g.key.of r) (g.key.of s) = true := by
  have hcounted := counted_groups hkeys
  constructor
  · intro hseat
    obtain ⟨k, hk, hkr, hsamer⟩ :=
      sameValue_placeOf (length_keysOf.symm ▸ hcounted.seated r hr)
    obtain ⟨k', -, hks, hsames⟩ :=
      sameValue_placeOf (length_keysOf.symm ▸ hcounted.seated s hs)
    rw [seat, seat] at hseat
    rw [hseat, hks] at hkr
    obtain rfl := Option.some.inj hkr
    -- both are the same as the key of one group, which is that of a record, and so composes
    obtain ⟨x, hx, rfl⟩ := hcounted.key_mem hk
    rw [Json.sameValue_comm (hkeys x hx) (hkeys r hr)] at hsamer
    exact hcompose.sameValue hr hx hs hsamer hsames
  · intro hsame
    refine placeOf_congr fun k hk => ?_
    obtain ⟨x, hx, rfl⟩ := hcounted.key_mem hk
    have hsame' := hsame
    rw [Json.sameValue_comm (hkeys r hr) (hkeys s hs)] at hsame'
    rw [Bool.eq_iff_iff]
    exact ⟨fun h => hcompose.sameValue hx hr hs h hsame,
      fun h => hcompose.sameValue hx hs hr h hsame'⟩

/-- If the order of the records does not matter, keys compose: put any record first, and it shares
its group with all records whose key is the same as its own. -/
theorem keysCompose_of_shuffles
    (h : ∀ shuffled, records.Perm shuffled → ∀ r ∈ records, ∀ s ∈ records,
      (seat g shuffled r = seat g shuffled s ↔ seat g records r = seat g records s))
    (hkeys : ∀ r ∈ records, (g.key.of r).WellFormed) : KeysCompose g records := by
  have hfirst : ∀ r ∈ records, ∃ rest, records.Perm (r :: rest) := by
    intro r hr
    obtain ⟨before, after, rfl⟩ := List.append_of_mem hr
    exact ⟨before ++ after, List.perm_middle⟩
  have hself : ∀ r rest, r ∈ records → seat g (r :: rest) r = 0 :=
    fun r rest hr => seat_cons_eq_zero.mpr (Json.sameValue_refl (hkeys r hr))
  intro r hr s hs t ht hrs hst
  -- with the middle one first, the other two share its group
  obtain ⟨rest, hperm⟩ := hfirst s hs
  have hr0 : seat g (s :: rest) r = 0 := by
    rw [seat_cons_eq_zero, Json.sameValue_comm (hkeys s hs) (hkeys r hr)]
    exact hrs
  have hshare := (h _ hperm r hr t ht).mp (hr0.trans (seat_cons_eq_zero.mpr hst).symm)
  -- so they still do with one of them first, and its key is that of the group
  obtain ⟨rest', hperm'⟩ := hfirst r hr
  have ht0 : seat g (r :: rest') t = 0 :=
    ((h _ hperm' r hr t ht).mpr hshare).symm.trans (hself r rest' hr)
  exact (Json.sameValue_trans_iff hrs hst).mp (seat_cons_eq_zero.mp ht0)

/-- **A group holds the records that have their seat there**, in their order and under the key of
the first; every record has a seat. Groups are the classes of equal keys, and do not depend on the
order of the records, exactly if keys compose. They do if their integers all are doubles. -/
theorem group_by_equality (hkeys : ∀ r ∈ records, (g.key.of r).WellFormed) (source : WordSource) :
    (∀ r ∈ records, seat g records r < ((Stage.group g).apply records source).1.length) ∧
    (∀ i out, ((Stage.group g).apply records source).1[i]? = some out →
      ∃ first rest, (records.filter fun r => seat g records r == i) = first :: rest ∧
        out = g.summary ⟨g.key.of first, first :: rest⟩) ∧
    (∀ u v w : Json, Json.sameValue u v = true → Json.sameValue v w = true →
      (Json.sameValue u w = true ↔ Json.sameIntegers u w = true)) ∧
    (KeysCompose g records ↔ ∀ r ∈ records, ∀ s ∈ records,
      (seat g records r = seat g records s ↔
        Json.sameValue (g.key.of r) (g.key.of s) = true)) ∧
    (KeysCompose g records ↔ ∀ shuffled, records.Perm shuffled → ∀ r ∈ records, ∀ s ∈ records,
      (seat g shuffled r = seat g shuffled s ↔ seat g records r = seat g records s)) ∧
    ((∀ r ∈ records, (g.key.of r).AllNumbers Number.Exact) → KeysCompose g records) := by
  have hcounted := counted_groups hkeys
  refine ⟨?_, ?_, ?_, ⟨?_, ?_⟩, ⟨?_, ?_⟩, keysCompose_of_exact⟩
  · intro r hr
    rw [Stage.apply, run, List.length_map]
    exact hcounted.seated r hr
  · intro i out hout
    rw [Stage.apply, run, List.getElem?_map] at hout
    obtain ⟨⟨key, members⟩, hgroup, rfl⟩ := Option.map_eq_some_iff.mp hout
    obtain ⟨first, rest, hmembers, hkey⟩ := hcounted.opened _ (List.mem_of_getElem? hgroup)
    have hfilled := hcounted.filled i _ hgroup
    dsimp only at hmembers hkey hfilled
    subst hmembers hkey
    exact ⟨first, rest, hfilled.symm, rfl⟩
  · intro u v w
    exact Json.sameValue_trans_iff
  · intro hcompose r hr s hs
    exact seat_eq_iff hkeys hcompose hr hs
  · intro h r hr s hs t ht hrs hst
    have hseat := ((h r hr s hs).mpr hrs).trans ((h s hs t ht).mpr hst)
    -- groups are classes, so equality carries over from one member to the other
    exact (Json.sameValue_trans_iff hrs hst).mp ((h r hr t ht).mp hseat)
  · intro hcompose shuffled hperm r hr s hs
    -- classes of equal keys do not depend on the order
    have hkeys' : ∀ r ∈ shuffled, (g.key.of r).WellFormed :=
      fun r hr => hkeys r (hperm.mem_iff.mpr hr)
    rw [seat_eq_iff hkeys hcompose hr hs, seat_eq_iff hkeys' (hcompose.perm hperm)
      (hperm.mem_iff.mp hr) (hperm.mem_iff.mp hs)]
  · intro h
    exact keysCompose_of_shuffles h hkeys

namespace Sample

/-- Counts the records of each `k`. -/
def tally : Grouping := ⟨.field "k", [("n", .constant (Number.int 1).toDouble)]⟩

def keyed (n : Number) : Record := [("k", .number n)]

def below : Record := keyed (.int 9007199254740992)

/-- Its key rounds to that of `below`. -/
def above : Record := keyed (.int 9007199254740993)

/-- Records of three keys, the float before the integers that round to it. -/
def rounded : List Record := [keyed (.float (Number.int 9007199254740992).toDouble), above, below]

/-- The keys of the example are JSON values. -/
theorem wellFormed_key {r : Record} (h : r ∈ rounded) : (tally.key.of r).WellFormed := by
  simp only [rounded, List.mem_cons, List.not_mem_nil, or_false] at h
  obtain rfl | rfl | rfl := h
  · exact trivial
  · exact (by decide : Number.IntegerRange 9007199254740993)
  · exact (by decide : Number.IntegerRange 9007199254740992)

end Sample

/-- Two integers that round to the float before them count in its group, and in the other order of
the records they do not share one. -/
theorem group_by_equality_rounded :
    ¬ KeysCompose Sample.tally Sample.rounded ∧
      (seat Sample.tally Sample.rounded Sample.above =
        seat Sample.tally Sample.rounded Sample.below) ∧
      seat Sample.tally Sample.rounded.reverse Sample.above ≠
        seat Sample.tally Sample.rounded.reverse Sample.below := by
  have hshared : seat Sample.tally Sample.rounded Sample.above =
      seat Sample.tally Sample.rounded Sample.below := by decide +kernel
  have hparted : seat Sample.tally Sample.rounded.reverse Sample.above ≠
      seat Sample.tally Sample.rounded.reverse Sample.below := by decide +kernel
  refine ⟨fun hcompose => hparted ?_, hshared, hparted⟩
  obtain ⟨-, -, -, -, hshuffles, -⟩ :=
    group_by_equality (fun _ => Sample.wellFormed_key) (WordSource.cycling [])
  refine (hshuffles.mp hcompose _ (List.reverse_perm _).symm _ ?_ _ ?_).mpr hshared
  · simp [Sample.rounded]
  · simp [Sample.rounded]

end Grouping

end DocStore
