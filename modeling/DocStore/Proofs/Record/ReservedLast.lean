import DocStore.Proofs.Record
/-!
# Rearranging a record in place

The reserved fields can be moved to the end without looking anything up in the record. One walk
writes the caller's fields out as they come and lays the reserved ones on a pile. Then one reserved
name after the other is searched for on the pile, and the field that is found is written out, while
the last field of the pile moves into its place. So the pile changes its order between two
searches; since no name is on it twice, that does not matter.

* `rearrange`: the walk and the searches.
* `place_eq`, `Midway.place`: what one search does, and what it keeps.
* `rearrange_eq`: all of them give `reservedLast`.
* `EndsReserved`: what it is to be a record with its reserved fields at the end.
* `reservedLast_rearranges`: a record has one such arrangement, and nothing that reads records
  tells it from the record.
-/

namespace DocStore.Record

-- ---------------------------------------------------------------------------
-- The pile
-- ---------------------------------------------------------------------------

/-- A row without the entry at a place; the last entry of the row moves there. -/
def swapRemove {α : Type} (xs : List α) (i : ℕ) : List α :=
  match xs.getLast? with
  | some last => (xs.set i last).dropLast
  | none => []

/-- The first field of this name on a pile, and the pile without it. -/
def takeOut (pile : Record) (name : String) : Option ((String × Json) × Record) := do
  let i ← pile.findIdx? fun field => field.1 == name
  let field ← pile[i]?
  some (field, swapRemove pile i)

variable {r s pile : Record} {field : String × Json} {name : String}

/-- Taking an entry out by moving the last one into its place leaves the same entries as closing the
gap. -/
theorem swapRemove_perm {α : Type} {xs : List α} {i : ℕ} (h : i < xs.length) :
    (swapRemove xs i).Perm (xs.eraseIdx i) := by
  rw [swapRemove]
  cases hlast : xs.getLast? with
  | none =>
    rw [List.getLast?_eq_none_iff] at hlast
    rw [hlast] at h
    exact absurd h (Nat.not_lt_zero i)
  | some last =>
    -- the last entry is still at the end once it is written to the place as well
    have hset : (xs.set i last).getLast? = some last := by
      rw [List.getLast?_eq_getElem?] at hlast ⊢
      grind
    have hconcat : (last :: (xs.set i last).dropLast).Perm (xs.set i last) :=
      (List.perm_append_singleton ..).symm.trans
        (List.Perm.of_eq (List.dropLast_append_getLast? last hset))
    exact (hconcat.trans (List.set_perm_cons_eraseIdx h last)).cons_inv

/-- A field that is on a pile without a second one of its name is taken out. -/
theorem takeOut_of_mem (hd : Fields.Distinct pile) (h : field ∈ pile) :
    ∃ rest, takeOut pile field.1 = some (field, rest) ∧ (field :: rest).Perm pile := by
  obtain ⟨i, hi⟩ : ∃ i, pile.findIdx? (fun e => e.1 == field.1) = some i := by
    rw [← Option.isSome_iff_exists, List.findIdx?_isSome, List.any_eq_true]
    exact ⟨field, h, beq_self_eq_true field.1⟩
  obtain ⟨hlt, hname, -⟩ := List.findIdx?_eq_some_iff_getElem.mp hi
  rw [beq_iff_eq] at hname
  -- the first field of the name is the only one
  have hfound : pile[i] = field := by
    have hfirst : Fields.get? pile pile[i].1 = some pile[i].2 :=
      (Fields.mem_iff_get? hd).mp (List.getElem_mem hlt)
    rw [hname, (Fields.mem_iff_get? hd).mp h] at hfirst
    exact Prod.ext hname (Option.some.inj hfirst).symm
  refine ⟨swapRemove pile i, ?_, ?_⟩
  · simp only [takeOut, hi, List.getElem?_eq_getElem hlt, hfound, Option.bind_eq_bind,
      Option.bind_some]
  · have hperm := (swapRemove_perm hlt).cons pile[i]
    rw [hfound] at hperm
    exact hperm.trans (hfound ▸ List.getElem_cons_eraseIdx_perm hlt)

/-- Nothing is taken out under a name that is not on the pile. -/
theorem takeOut_of_not_mem (h : name ∉ Fields.names pile) : takeOut pile name = none := by
  have hi : pile.findIdx? (fun field => field.1 == name) = none := by
    rw [List.findIdx?_eq_none_iff]
    intro e he
    rw [beq_eq_false_iff_ne]
    rintro rfl
    exact h (List.mem_map_of_mem he)
  rw [takeOut, hi]
  rfl

-- ---------------------------------------------------------------------------
-- The walk and the searches
-- ---------------------------------------------------------------------------

/-- The record as far as it is written, and the reserved fields that wait to be written. -/
structure Rearrangement where
  out : Record
  pile : Record

namespace Rearrangement

/-- Takes the next field of the record. -/
def take (w : Rearrangement) (field : String × Json) : Rearrangement :=
  if isReserved field.1 then { w with pile := w.pile ++ [field] }
  else { w with out := Fields.set w.out field.1 field.2 }

/-- Writes the field of this name out, if it is on the pile. -/
def place (w : Rearrangement) (name : String) : Rearrangement :=
  match takeOut w.pile name with
  | some (field, pile) => ⟨Fields.set w.out field.1 field.2, pile⟩
  | none => w

end Rearrangement

/-- Walks through a record, then writes its reserved fields in their order. -/
def rearrange (r : Record) : Record :=
  (reservedFields.foldl Rearrangement.place (r.foldl Rearrangement.take ⟨[], []⟩)).out

/-- The walk writes the caller's fields and piles up the others, as they come. -/
theorem foldl_take {out : Record} (hd : Fields.Distinct (out ++ userFields r)) :
    r.foldl Rearrangement.take ⟨out, pile⟩ =
      ⟨out ++ userFields r, pile ++ r.filter fun e => isReserved e.1⟩ := by
  induction r generalizing out pile with
  | nil => simp [userFields]
  | cons e rest ih =>
    rw [List.foldl_cons, Rearrangement.take]
    cases he : isReserved e.1 with
    | true =>
      have huser : userFields (e :: rest) = userFields rest := by simp [userFields, he]
      rw [huser] at hd ⊢
      rw [if_pos rfl, ih hd]
      simp [he]
    | false =>
      have huser : userFields (e :: rest) = e :: userFields rest := by simp [userFields, he]
      rw [huser, List.append_cons] at hd
      -- the caller's names are distinct, so the field goes to the end
      have hnew : e.1 ∉ Fields.names out := by
        intro hmem
        rw [Fields.Distinct, Fields.names, List.map_append, List.map_append, List.append_assoc,
          List.nodup_append] at hd
        exact hd.2.2 e.1 hmem e.1 (by simp) rfl
      rw [if_neg (by decide), Fields.set_of_not_mem hnew, ih hd, huser]
      simp [he]

variable {placed names : List String} {w : Rearrangement}

/-- **One search** writes the field of the name, if it is on the pile, and leaves all others there,
in whatever order. -/
theorem place_eq (hd : Fields.Distinct w.pile) (hnew : name ∉ Fields.names w.out) :
    ∃ rest, w.place name = ⟨w.out ++ optionalField name (Fields.get? w.pile name), rest⟩ ∧
      Fields.Distinct rest ∧ ∀ e, e ∈ rest ↔ e ∈ w.pile ∧ e.1 ≠ name := by
  rw [Rearrangement.place]
  cases hget : Fields.get? w.pile name with
  | none =>
    have habsent := Fields.get?_eq_none_iff.mp hget
    refine ⟨w.pile, ?_, hd, ?_⟩
    · rw [takeOut_of_not_mem habsent, optionalField, List.append_nil]
    · intro e
      rw [iff_self_and]
      rintro he rfl
      exact habsent (List.mem_map_of_mem he)
  | some v =>
    obtain ⟨rest, htake, hperm⟩ := takeOut_of_mem hd (Fields.mem_of_get? hget)
    have hcons : Fields.Distinct ((name, v) :: rest) := (hperm.map Prod.fst).nodup_iff.mpr hd
    obtain ⟨hfresh, hrest⟩ := List.nodup_cons.mp hcons
    refine ⟨rest, ?_, hrest, ?_⟩
    · rw [htake, optionalField, ← Fields.set_of_not_mem hnew]
    · intro e
      rw [← hperm.mem_iff, List.mem_cons]
      constructor
      · intro he
        have hname : e.1 ∈ Fields.names rest := List.mem_map_of_mem he
        exact ⟨Or.inr he, fun heq => hfresh (heq ▸ hname)⟩
      · rintro ⟨rfl | he, hne⟩
        · exact absurd rfl hne
        · exact he

/-- A record of which some reserved fields are written already. -/
structure Midway (r : Record) (placed : List String) (w : Rearrangement) : Prop where
  out : w.out = userFields r ++
    placed.flatMap fun name => optionalField name (Fields.get? r name)
  distinct : Fields.Distinct w.pile
  mem_pile : ∀ e, e ∈ w.pile ↔ e ∈ r ∧ isReserved e.1 = true ∧ e.1 ∉ placed

/-- After the walk no reserved field is written yet. -/
theorem midway_take (hd : Fields.Distinct r) :
    Midway r [] (r.foldl Rearrangement.take ⟨[], []⟩) := by
  rw [foldl_take (by simpa using distinct_userFields hd)]
  refine ⟨by simp, ?_, ?_⟩
  · rw [List.nil_append]
    exact Fields.distinct_filter hd _
  · intro e
    simp

/-- **A search writes the field of one more name**, as the record has it. -/
theorem Midway.place (hd : Fields.Distinct r) (h : Midway r placed w)
    (hreserved : isReserved name = true) (hnew : name ∉ placed) :
    Midway r (placed ++ [name]) (w.place name) := by
  have hout : name ∉ Fields.names w.out := by
    rw [← Fields.get?_eq_none_iff, h.out, Fields.get?_append, get?_userFields_reserved hreserved,
      Option.none_or, get?_flatMap_optionalField, if_neg hnew]
  -- the pile still holds all reserved fields that are not placed
  have hget : Fields.get? w.pile name = Fields.get? r name := by
    ext v
    rw [← Fields.mem_iff_get? h.distinct, ← Fields.mem_iff_get? hd, h.mem_pile]
    exact and_iff_left ⟨hreserved, hnew⟩
  obtain ⟨rest, hplace, hrest, hmem⟩ := place_eq h.distinct hout
  rw [hplace]
  refine ⟨?_, hrest, ?_⟩
  · show w.out ++ optionalField name (Fields.get? w.pile name) = _
    rw [h.out, hget, List.append_assoc, List.flatMap_append, List.flatMap_singleton]
  · intro e
    show e ∈ rest ↔ _
    rw [hmem, h.mem_pile, List.mem_append, List.mem_singleton, not_or, and_assoc, and_assoc]

/-- **Searching for names in turn** writes their fields in this order. -/
theorem Midway.placeAll (hd : Fields.Distinct r) (h : Midway r placed w)
    (hreserved : ∀ name ∈ names, isReserved name = true) (hnodup : (placed ++ names).Nodup) :
    Midway r (placed ++ names) (names.foldl Rearrangement.place w) := by
  induction names generalizing placed w with
  | nil => rwa [List.append_nil]
  | cons name rest ih =>
    have hnew : name ∉ placed := by
      intro hmem
      exact (List.nodup_append.mp hnodup).2.2 name hmem name List.mem_cons_self rfl
    have hstep := h.place hd (hreserved name List.mem_cons_self) hnew
    rw [List.append_cons] at hnodup ⊢
    exact ih hstep (fun name hname => hreserved name (List.mem_cons_of_mem _ hname)) hnodup

/-- **The walk and the searches move the reserved fields to the end.** -/
theorem rearrange_eq (hd : Fields.Distinct r) : rearrange r = reservedLast r := by
  have hreserved : ∀ name ∈ reservedFields, isReserved name = true :=
    fun name hname => List.contains_iff_mem.mpr hname
  exact ((midway_take hd).placeAll hd hreserved (by decide)).out

-- ---------------------------------------------------------------------------
-- The arrangement
-- ---------------------------------------------------------------------------

/-- What it is to be the record `r` with its reserved fields at the end: it has the same fields,
first those of the caller in the order of `r`, then the reserved ones that there are, in their
fixed order. -/
structure EndsReserved (r s : Record) : Prop where
  perm : s.Perm r
  layout : ∃ own reserved, s = own ++ reserved ∧ own.Sublist r ∧
    (∀ e ∈ own, isReserved e.1 = false) ∧
    Fields.names reserved = reservedFields.filter fun name => Fields.has r name

/-- The fields of some names are named by those of them that there are. -/
theorem names_flatMap_optionalField (r : Record) (names : List String) :
    Fields.names (names.flatMap fun name => optionalField name (Fields.get? r name)) =
      names.filter fun name => Fields.has r name := by
  induction names with
  | nil => rfl
  | cons name rest ih =>
    have happend : ∀ a b : Record, Fields.names (a ++ b) = Fields.names a ++ Fields.names b :=
      fun a b => List.map_append
    rw [List.flatMap_cons, happend, ih, List.filter_cons, Fields.has]
    cases Fields.get? r name <;> rfl

theorem endsReserved_reservedLast (hd : Fields.Distinct r) : EndsReserved r (reservedLast r) where
  perm := reservedLast_perm hd
  layout := ⟨userFields r, _, rfl, List.filter_sublist,
    fun _ => not_reserved_of_mem_userFields, names_flatMap_optionalField r reservedFields⟩

/-- Fields of one record are told apart by their names. -/
theorem eq_of_names_eq {a b : Record} (hd : Fields.Distinct r) (ha : ∀ e ∈ a, e ∈ r)
    (hb : ∀ e ∈ b, e ∈ r) (h : Fields.names a = Fields.names b) : a = b := by
  induction a generalizing b with
  | nil => exact (List.map_eq_nil_iff.mp h.symm).symm
  | cons e a ih =>
    cases b with
    | nil => exact absurd h (by simp [Fields.names])
    | cons f b =>
      obtain ⟨hname, hrest⟩ := List.cons.inj h
      rw [List.forall_mem_cons] at ha hb
      have he := (Fields.mem_iff_get? hd).mp ha.1
      have hf := (Fields.mem_iff_get? hd).mp hb.1
      rw [hname, hf] at he
      rw [ih ha.2 hb.2 hrest, Prod.ext hname (Option.some.inj he).symm]

/-- **There is only one such arrangement.** -/
theorem EndsReserved.eq (hd : Fields.Distinct r) (h : EndsReserved r s) : s = reservedLast r := by
  obtain ⟨own, reserved, rfl, hsub, hown, hnames⟩ := h.layout
  have hreserved : ∀ e ∈ reserved, isReserved e.1 = true := by
    intro e he
    have hmem : e.1 ∈ Fields.names reserved := List.mem_map_of_mem he
    rw [hnames, List.mem_filter] at hmem
    exact List.contains_iff_mem.mpr hmem.1
  -- the caller's fields are as many as in the record, and a part of them
  have huser : own = userFields r := by
    have hnone : userFields reserved = [] := by
      rw [userFields, List.filter_eq_nil_iff]
      intro e he
      simp [hreserved e he]
    have hperm : (userFields (own ++ reserved)).Perm (userFields r) := h.perm.filter _
    rw [userFields_append, hnone, List.append_nil, userFields_of_not_reserved hown] at hperm
    have hpart : (userFields own).Sublist (userFields r) := hsub.filter _
    rw [userFields_of_not_reserved hown] at hpart
    exact hpart.eq_of_length hperm.length_eq
  have hlast : reserved = reservedFields.flatMap fun name =>
      optionalField name (Fields.get? r name) := by
    refine eq_of_names_eq hd (fun e he => ?_) (fun e he => (mem_flatMap_optionalField he).2)
      (hnames.trans (names_flatMap_optionalField r reservedFields).symm)
    exact h.perm.mem_iff.mp (List.mem_append_right own he)
  rw [huser, hlast, reservedLast]

-- ---------------------------------------------------------------------------
-- What moving the reserved fields changes
-- ---------------------------------------------------------------------------

/-- **Moving the reserved fields to the end only reorders a record.** The walk and the searches
give the one arrangement with the same fields, the caller's in their order and the reserved ones
behind them. Moving them again changes nothing; and the caller's fields, the id and the answer to
every query are those of the record. -/
theorem reservedLast_rearranges (hd : Fields.Distinct r) :
    rearrange r = reservedLast r ∧
    (∀ s, EndsReserved r s ↔ s = reservedLast r) ∧
    reservedLast (reservedLast r) = reservedLast r ∧
    userFields (reservedLast r) = userFields r ∧
    id? (reservedLast r) = id? r ∧
    ∀ query, matchesQuery (reservedLast r) query = matchesQuery r query := by
  have hagain : reservedLast (reservedLast r) = reservedLast r := by
    rw [reservedLast, userFields_reservedLast]
    simp only [get?_reservedLast]
    rw [reservedLast]
  have hquery : ∀ query, matchesQuery (reservedLast r) query = matchesQuery r query := by
    intro query
    simp only [matchesQuery, get?_reservedLast]
  refine ⟨rearrange_eq hd, fun s => ⟨EndsReserved.eq hd, ?_⟩, hagain, userFields_reservedLast r,
    id?_reservedLast r, hquery⟩
  rintro rfl
  exact endsReserved_reservedLast hd

namespace Sample

/-- A record whose reserved fields stand apart, the first of them to be written before the others. -/
def scattered : Record :=
  [(createdField, .string "c"), ("b", .int 1), (idField, .string "x"),
    (updatedField, .string "u"), ("a", .null)]

def gathered : Record :=
  [("b", .int 1), ("a", .null), (createdField, .string "c"), (updatedField, .string "u"),
    (idField, .string "x")]

end Sample

/-- The pile is in another order once the first field is taken out, and the record comes out in the
order of the reserved fields all the same. -/
theorem reservedLast_rearranges_scattered :
    (Fields.Distinct Sample.scattered ∧
      takeOut (Sample.scattered.filter fun e => isReserved e.1) createdField =
        some ((createdField, .string "c"), [(updatedField, .string "u"), (idField, .string "x")])) ∧
    rearrange Sample.scattered = Sample.gathered ∧
    (∀ s, EndsReserved Sample.scattered s ↔ s = Sample.gathered) ∧
    reservedLast Sample.gathered = Sample.gathered ∧
    userFields Sample.gathered = userFields Sample.scattered ∧
    id? Sample.gathered = id? Sample.scattered ∧
    ∀ query, matchesQuery Sample.gathered query = matchesQuery Sample.scattered query := by
  have hd : Fields.Distinct Sample.scattered := by
    show (Fields.names Sample.scattered).Nodup
    decide
  exact ⟨⟨hd, rfl⟩, reservedLast_rearranges hd⟩

end DocStore.Record
