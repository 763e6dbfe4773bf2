import Mathlib.Data.List.Nodup
import Mathlib.Logic.Relation
import DocStore.Proofs.Json.Equality
/-!
# Equality is blind to the order of members

Two values are the same if one can be brought into the order of the other by reordering objects
inside it, at any depth, so that place by place there is the same scalar or a number of the same
value. Reordering either side first changes no answer.

* `Reorders`: one object, anywhere inside, has its members in another order.
* `Alike`: the same place by place.
* `sameValue_upToOrder`: reflexivity, symmetry, and equality in terms of the two.
-/

namespace DocStore.Json

-- ---------------------------------------------------------------------------
-- Reordering
-- ---------------------------------------------------------------------------

/-- One object somewhere in a value has its members in another order. -/
inductive Reorders : Json → Json → Prop
  | here {members members' : List (String × Json)} (h : members.Perm members') :
      Reorders (object members) (object members')
  | item {before after : List Json} {v w : Json} (h : Reorders v w) :
      Reorders (array (before ++ v :: after)) (array (before ++ w :: after))
  | member {before after : List (String × Json)} {name : String} {v w : Json} (h : Reorders v w) :
      Reorders (object (before ++ (name, v) :: after)) (object (before ++ (name, w) :: after))

/-- Any number of objects in a value have their members in another order. -/
def Reordered : Json → Json → Prop := Relation.ReflTransGen Reorders

/-- Equality in all but the order of members. -/
def identical : Json → Json → Bool := equalBy fun m n => decide (m = n)

theorem identical_refl {v : Json} (h : v.WellFormed) : identical v v = true :=
  equalBy_self (fun _ => decide_eq_true rfl) v h

theorem names_exchange (before after : List (String × Json)) (name : String) (v w : Json) :
    Fields.names (before ++ (name, v) :: after) = Fields.names (before ++ (name, w) :: after) := by
  simp [Fields.names]

variable {v w : Json}

/-- A reordering can be undone. -/
theorem Reorders.symm (h : Reorders v w) : Reorders w v := by
  induction h with
  | here h => exact .here h.symm
  | item _ ih => exact .item ih
  | member _ ih => exact .member ih

/-- Reordering keeps values well-formed. -/
theorem Reorders.wellFormed (h : Reorders v w) : v.WellFormed → w.WellFormed := by
  induction h with
  | here h =>
    intro hv
    rw [wellFormed_object] at hv ⊢
    exact ⟨(h.map Prod.fst).nodup_iff.mp hv.1, fun e he => hv.2 e (h.mem_iff.mpr he)⟩
  | item _ ih =>
    intro hv
    rw [wellFormed_array, List.forall_mem_append, List.forall_mem_cons] at hv ⊢
    exact ⟨hv.1, ih hv.2.1, hv.2.2⟩
  | @member before after name v w _ ih =>
    intro hv
    rw [wellFormed_object, List.forall_mem_append, List.forall_mem_cons] at hv ⊢
    rw [Fields.Distinct, names_exchange before after name w v]
    exact ⟨hv.1, hv.2.1, ih hv.2.2.1, hv.2.2.2⟩

/-- Reordering changes nothing but the order. -/
theorem Reorders.identical (h : Reorders v w) : v.WellFormed → Json.identical v w = true := by
  induction h with
  | @here members members' h =>
    intro hv
    have hw := (Reorders.here h).wellFormed hv
    rw [wellFormed_object] at hv hw
    -- members are compared by name, so their order does not matter
    refine equalBy_object_iff.mpr ⟨members', rfl, h.length_eq, ?_⟩
    intro e he
    exact ⟨e.2, (Fields.mem_iff_get? hw.1).mp (h.mem_iff.mp he), identical_refl (hv.2 e he)⟩
  | @item before after v w _ ih =>
    intro hv
    rw [wellFormed_array, List.forall_mem_append, List.forall_mem_cons] at hv
    refine equalBy_array_iff.mpr ⟨_, rfl, List.rel_append ?_ (.cons (ih hv.2.1) ?_)⟩
    · exact List.forall₂_same.mpr fun u hu => identical_refl (hv.1 u hu)
    · exact List.forall₂_same.mpr fun u hu => identical_refl (hv.2.2 u hu)
  | @member before after name v w h ih =>
    intro hv
    have hw := h.member.wellFormed hv
    rw [wellFormed_object] at hv hw
    refine equalBy_object_iff.mpr ⟨_, rfl, by simp, ?_⟩
    intro e he
    simp only [← Fields.mem_iff_get? hw.1]
    have hself := identical_refl (hv.2 e he)
    rw [List.mem_append, List.mem_cons] at he
    rcases he with he | rfl | he
    · exact ⟨e.2, List.mem_append_left _ he, hself⟩
    · refine ⟨w, List.mem_append_right _ List.mem_cons_self, ih ?_⟩
      exact hv.2 (name, v) (List.mem_append_right _ List.mem_cons_self)
    · exact ⟨e.2, List.mem_append_right _ (List.mem_cons_of_mem _ he), hself⟩

/-- An identical value on the left is the same as whatever the other is. -/
theorem sameValue_of_identical_left {x : Json} (h : identical v w = true)
    (hwx : sameValue w x = true) : sameValue v x = true := by
  refine equalBy_trans ?_ v w x h hwx
  intro a b c hab hbc
  rw [of_decide_eq_true hab]
  exact hbc

/-- An identical value on the right is the same as whatever the other is. -/
theorem sameValue_of_identical_right {x : Json} (h : identical v w = true)
    (hxv : sameValue x v = true) : sameValue x w = true := by
  refine equalBy_trans ?_ x v w hxv h
  intro a b c hab hbc
  rw [← of_decide_eq_true hbc]
  exact hab

/-- **Reordering one object changes no answer**, on either side. -/
theorem Reorders.sameValue_eq (h : Reorders v w) (hv : v.WellFormed) (x : Json) :
    sameValue v x = sameValue w x ∧ sameValue x v = sameValue x w := by
  have hvw := h.identical hv
  have hwv := h.symm.identical (h.wellFormed hv)
  constructor
  · rw [Bool.eq_iff_iff]
    exact ⟨sameValue_of_identical_left hwv, sameValue_of_identical_left hvw⟩
  · rw [Bool.eq_iff_iff]
    exact ⟨sameValue_of_identical_right hvw, sameValue_of_identical_right hwv⟩

/-- **Reordering objects changes no answer**, on either side. -/
theorem Reordered.sameValue_eq (h : Reordered v w) (hv : v.WellFormed) :
    w.WellFormed ∧ ∀ x, sameValue v x = sameValue w x ∧ sameValue x v = sameValue x w := by
  induction h with
  | refl => exact ⟨hv, fun x => ⟨rfl, rfl⟩⟩
  | tail _ hstep ih =>
    refine ⟨hstep.wellFormed ih.1, fun x => ?_⟩
    have hone := hstep.sameValue_eq ih.1 x
    exact ⟨(ih.2 x).1.trans hone.1, (ih.2 x).2.trans hone.2⟩

theorem Reordered.item {before after : List Json} (h : Reordered v w) :
    Reordered (array (before ++ v :: after)) (array (before ++ w :: after)) :=
  Relation.ReflTransGen.lift (fun v => array (before ++ v :: after)) (fun _ _ => Reorders.item) v w h

/-- Reorderings of the value of a member reorder the object. -/
theorem Reordered.member {before after : List (String × Json)} {name : String}
    (h : Reordered v w) :
    Reordered (object (before ++ (name, v) :: after)) (object (before ++ (name, w) :: after)) :=
  Relation.ReflTransGen.lift (fun v => object (before ++ (name, v) :: after))
    (fun _ _ => Reorders.member) v w h

-- ---------------------------------------------------------------------------
-- The same place by place
-- ---------------------------------------------------------------------------

/-- The same place by place, without reordering; numbers have the same value. -/
inductive Alike : Json → Json → Prop
  | null : Alike null null
  | bool (b : Bool) : Alike (bool b) (bool b)
  | number {m n : Number} (h : m.sameValue n = true) : Alike (number m) (number n)
  | string (s : String) : Alike (string s) (string s)
  | noItem : Alike (array []) (array [])
  | item {v w : Json} {items others : List Json} (h : Alike v w)
      (hrest : Alike (array items) (array others)) :
      Alike (array (v :: items)) (array (w :: others))
  | noMember : Alike (object []) (object [])
  | member {name : String} {v w : Json} {members others : List (String × Json)} (h : Alike v w)
      (hrest : Alike (object members) (object others)) :
      Alike (object ((name, v) :: members)) (object ((name, w) :: others))

/-- Values that are alike are the same. -/
theorem Alike.sameValue (h : Alike v w) : v.WellFormed → Json.sameValue v w = true := by
  induction h with
  | null => exact fun _ => rfl
  | bool b => exact fun _ => equalBy_bool_iff.mpr rfl
  | number h => exact fun _ => h
  | string s => exact fun _ => equalBy_string_iff.mpr rfl
  | noItem => exact fun _ => rfl
  | noMember => exact fun _ => rfl
  | item _ _ ih ihrest =>
    intro hv
    rw [wellFormed_array, List.forall_mem_cons, ← wellFormed_array] at hv
    obtain ⟨others, heq, hothers⟩ := equalBy_array_iff.mp (ihrest hv.2)
    rw [array.inj heq] at hothers
    exact equalBy_array_iff.mpr ⟨_, rfl, .cons (ih hv.1) hothers⟩
  | @member name v w members others _ _ ih ihrest =>
    intro hv
    rw [wellFormed_object, List.forall_mem_cons] at hv
    obtain ⟨hnew, hdistinct⟩ := List.nodup_cons.mp hv.1
    obtain ⟨_, heq, hlen, hothers⟩ := equalBy_object_iff.mp
      (ihrest (wellFormed_object.mpr ⟨hdistinct, hv.2.2⟩))
    obtain rfl := object.inj heq
    refine equalBy_object_iff.mpr ⟨_, rfl, congrArg (· + 1) hlen, ?_⟩
    rw [List.forall_mem_cons]
    refine ⟨⟨w, Fields.get?_cons_self .., ih hv.2.1⟩, fun e he => ?_⟩
    have hmem : e.1 ∈ Fields.names members := List.mem_map_of_mem he
    -- the names are distinct, so the first member does not stand before a later one
    have hne : e.1 ≠ name := fun heq => hnew (heq ▸ hmem)
    rw [Fields.get?_cons_of_ne hne]
    exact hothers e he

/-- The value can be reordered so that it is like the other place by place. -/
def Aligns (v w : Json) : Prop := ∃ u, Reordered v u ∧ Alike u w

/-- Items are aligned one after the other; `before` stands for those that are. -/
theorem aligned_items {items others : List Json} (h : List.Forall₂ Aligns items others) :
    ∃ last, (∀ before, Reordered (array (before ++ items)) (array (before ++ last))) ∧
      Alike (array last) (array others) := by
  induction h with
  | nil => exact ⟨[], fun _ => .refl, .noItem⟩
  | @cons v w rest others h _ ih =>
    obtain ⟨u, hu, halike⟩ := h
    obtain ⟨last, hlast, hrest⟩ := ih
    refine ⟨u :: last, fun before => ?_, .item halike hrest⟩
    have hmore := hlast (before ++ [u])
    rw [List.append_assoc, List.append_assoc] at hmore
    exact hu.item.trans hmore

/-- Members that align one by one under their names make objects that align. -/
theorem aligned_members {members others : List (String × Json)}
    (h : List.Forall₂ (fun e f => e.1 = f.1 ∧ Aligns e.2 f.2) members others) :
    ∃ last, (∀ before, Reordered (object (before ++ members)) (object (before ++ last))) ∧
      Alike (object last) (object others) := by
  induction h with
  | nil => exact ⟨[], fun _ => .refl, .noMember⟩
  | @cons e f rest others h _ ih =>
    obtain ⟨name, v⟩ := e
    obtain ⟨_, w⟩ := f
    obtain ⟨rfl, u, hu, halike⟩ := h
    obtain ⟨last, hlast, hrest⟩ := ih
    -- the rest is reordered behind this member, and then the member itself
    refine ⟨(name, u) :: last, fun before => ?_, .member halike hrest⟩
    have hmore := hlast (before ++ [(name, u)])
    rw [List.append_assoc, List.append_assoc] at hmore
    exact hu.member.trans hmore

/-- The members in the order in which the other object has their partners. -/
theorem exists_perm_of_partners {P : Json → Json → Prop} {members others : List (String × Json)}
    (hothers : Fields.Distinct others) (hlen : members.length = others.length)
    (h : ∀ f ∈ others, ∃ a, Fields.get? members f.1 = some a ∧ P a f.2) :
    ∃ moved, members.Perm moved ∧
      List.Forall₂ (fun e f => e.1 = f.1 ∧ P e.2 f.2) moved others := by
  -- each member on the right picks its partner, in the order of the right
  have hmoved : ∃ moved : List (String × Json), moved ⊆ members ∧
      List.Forall₂ (fun e f => e.1 = f.1 ∧ P e.2 f.2) moved others := by
    clear hothers hlen
    induction others with
    | nil => exact ⟨[], List.nil_subset _, .nil⟩
    | cons f rest ih =>
      rw [List.forall_mem_cons] at h
      obtain ⟨⟨a, ha, hP⟩, hrest⟩ := h
      obtain ⟨moved, hsub, hmoved⟩ := ih hrest
      refine ⟨(f.1, a) :: moved, ?_, .cons ⟨rfl, hP⟩ hmoved⟩
      exact List.cons_subset.mpr ⟨Fields.mem_of_get? ha, hsub⟩
  obtain ⟨moved, hsub, hmoved⟩ := hmoved
  refine ⟨moved, ?_, hmoved⟩
  have hnames : Fields.names moved = Fields.names others := by
    have hfst := hmoved.imp fun e f h => h.1
    rw [Fields.names, Fields.names, ← List.forall₂_eq_eq_eq, List.forall₂_map_left_iff,
      List.forall₂_map_right_iff]
    exact hfst
  have hdistinct : (Fields.names moved).Nodup := by
    rw [hnames]
    exact hothers
  -- distinct and as many as all members, so the partners are all of them
  have hle : members.length ≤ moved.length := Nat.le_of_eq (hlen.trans hmoved.length_eq.symm)
  exact ((List.Nodup.subperm (List.Nodup.of_map _ hdistinct) hsub).perm_of_length_le hle).symm

/-- **Values that are the same align.** -/
theorem aligns_of_sameValue (v : Json) :
    v.WellFormed → ∀ w : Json, w.WellFormed → sameValue v w = true → Aligns v w := by
  induction v using induct with
  | null =>
    intro _ w _ h
    obtain rfl := equalBy_null_iff.mp h
    exact ⟨_, .refl, .null⟩
  | bool b =>
    intro _ w _ h
    obtain rfl := equalBy_bool_iff.mp h
    exact ⟨_, .refl, .bool b⟩
  | number n =>
    intro _ w _ h
    obtain ⟨m, rfl, hnm⟩ := equalBy_number_iff.mp h
    exact ⟨_, .refl, .number hnm⟩
  | string s =>
    intro _ w _ h
    obtain rfl := equalBy_string_iff.mp h
    exact ⟨_, .refl, .string s⟩
  | array items ih =>
    intro hv w hw h
    obtain ⟨others, rfl, hothers⟩ := equalBy_array_iff.mp h
    rw [wellFormed_array] at hv hw
    have haligned : List.Forall₂ Aligns items others := by
      rw [List.forall₂_iff_zip] at hothers ⊢
      refine ⟨hothers.1, fun {a b} hab => ?_⟩
      have hmem := List.of_mem_zip hab
      exact ih a hmem.1 (hv a hmem.1) b (hw b hmem.2) (hothers.2 hab)
    obtain ⟨last, hlast, halike⟩ := aligned_items haligned
    exact ⟨_, hlast [], halike⟩
  | object members ih =>
    intro hv w hw h
    obtain ⟨others, rfl, hlen, hothers⟩ := equalBy_object_iff.mp h
    rw [wellFormed_object] at hv hw
    have hpartner : ∀ f ∈ others, ∃ a, Fields.get? members f.1 = some a ∧ Aligns a f.2 := by
      intro f hf
      obtain ⟨a, ha, hequal⟩ := exists_partner
        (P := fun a b => equalBy Number.sameValue a b = true) hv.1 hw.1 hlen hothers hf
      have hmem := Fields.mem_of_get? ha
      exact ⟨a, ha, ih _ hmem (hv.2 _ hmem) f.2 (hw.2 f hf) hequal⟩
    -- the members are brought into the other order first, and then aligned inside
    obtain ⟨moved, hperm, hmoved⟩ := exists_perm_of_partners hw.1 hlen hpartner
    obtain ⟨last, hlast, halike⟩ := aligned_members hmoved
    exact ⟨_, Relation.ReflTransGen.head (.here hperm) (hlast []), halike⟩

/-- **Equality of values is reflexive, symmetric and blind to the order of members**: it holds of two
values exactly if one can be reordered so that it is like the other place by place. -/
theorem sameValue_upToOrder (hv : v.WellFormed) (hw : w.WellFormed) :
    sameValue v v = true ∧ sameValue v w = sameValue w v ∧
      (∀ v' w', Reordered v v' → Reordered w w' → sameValue v' w' = sameValue v w) ∧
        (sameValue v w = true ↔ ∃ u, Reordered v u ∧ Alike u w) := by
  refine ⟨sameValue_refl hv, sameValue_comm hv hw, ?_, aligns_of_sameValue v hv w hw, ?_⟩
  · intro v' w' hv' hw'
    rw [← ((hv'.sameValue_eq hv).2 w').1, ← ((hw'.sameValue_eq hw).2 v).2]
  · rintro ⟨u, hu, halike⟩
    rw [((hu.sameValue_eq hv).2 w).1]
    exact halike.sameValue (hu.sameValue_eq hv).1

namespace Sample

/-- An object inside an array inside an object. -/
def nested (members : List (String × Json)) : Json :=
  .object [("list", .array [.object members]), ("n", .int 1)]

def ordered : Json := nested [("a", .null), ("b", .int 2)]

/-- The inner members in another order, with a float for an integer. -/
def reordered : Json := nested [("b", .number (.float (Number.int 2).toDouble)), ("a", .null)]

/-- The example is well-formed if the inner object is. -/
theorem wellFormed_nested {members : List (String × Json)}
    (h : Json.WellFormed (.object members)) : (nested members).WellFormed := by
  have hdistinct : Fields.Distinct [("list", Json.array [.object members]), ("n", Json.int 1)] := by
    simp [Fields.Distinct, Fields.names]
  exact ⟨hdistinct, ⟨h, trivial⟩, (by decide : Number.IntegerRange 1), trivial⟩

end Sample

/-- The members of an inner object in another order, with a float for an integer. -/
theorem sameValue_upToOrder_nested :
    sameValue Sample.reordered Sample.ordered = true ∧
      ∃ u, Reordered Sample.ordered u ∧ Alike u Sample.reordered := by
  have hordered : Sample.ordered.WellFormed :=
    Sample.wellFormed_nested ⟨by simp [Fields.Distinct, Fields.names], trivial,
      (by decide : Number.IntegerRange 2), trivial⟩
  have hreordered : Sample.reordered.WellFormed :=
    Sample.wellFormed_nested ⟨by simp [Fields.Distinct, Fields.names], trivial, trivial, trivial⟩
  obtain ⟨-, hcomm, -, hiff⟩ := sameValue_upToOrder hordered hreordered
  have hsame : sameValue Sample.ordered Sample.reordered = true := by decide +kernel
  exact ⟨hcomm ▸ hsame, hiff.mp hsame⟩

end DocStore.Json
