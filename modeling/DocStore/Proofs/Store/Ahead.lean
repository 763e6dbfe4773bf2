import DocStore.Proofs.Store.Names
/-!
# Stores that bound some names early

A name of the schema file is bound when it is asked for, or before that by a report on all
collections. Two stores that differ in this only are the same to their callers: whatever is asked of
both, they answer alike and do the same to the world, and still differ in this only. The exception is
a name that is bound early, and for which a caller brings another schema.

* `Ahead`: the second store has bound some names of the schema file that are free in the first.
* `Ahead.model`, `Ahead.collection`, `Ahead.statusOf`, `Ahead.validateOf`: each request.
* `ahead_statusOf`: reporting binds names early.
-/

namespace DocStore.Store

open Collection (Binding)

variable {s t s' t' : Store} {w : World} {name : String} {schema : Schema} {h h' : Handle}
  {c c' : Collection} {early : String → Option Schema}

-- ---------------------------------------------------------------------------
-- Names that are bound early
-- ---------------------------------------------------------------------------

/-- A name of the schema file that is free in the first store and bound in the second, where nothing
of its collection is loaded. -/
structure BoundEarly (s t : Store) (name : String) (schema : Schema) : Prop where
  valid : validName name = true
  declared : Fields.get? s.schemas name = some schema
  free : s.named? name = none
  bound : t.named? name = some (.unloaded name schema (s.config.collectionPath name))

/-- The second store has the collections of the first, and some names of the schema file more, bound
to the schemas that `early` has for them. -/
structure Ahead (early : String → Option Schema) (s t : Store) : Prop where
  config : t.config = s.config
  schemas : t.schemas = s.schemas
  wellFormed : ∀ e ∈ s.schemas, e.2.WellFormed
  named : ∀ name, t.named? name = s.named? name ∨
    ∃ schema, early name = some schema ∧ BoundEarly s t name schema

/-- Handles of one name in both stores. -/
def Twin (s t : Store) (h h' : Handle) : Prop :=
  ∃ name, s.handle? name = some h ∧ t.handle? name = some h'

theorem Ahead.refl (early : String → Option Schema) (hschemas : ∀ e ∈ s.schemas, e.2.WellFormed) :
    Ahead early s s :=
  ⟨rfl, rfl, hschemas, fun _ => .inl rfl⟩

/-- A name that is bound in the first store is bound to the same collection in the second. -/
theorem Ahead.twin (hahead : Ahead early s t) (hbound : s.handle? name = some h) :
    ∃ h', t.handle? name = some h' ∧ t.get? h' = s.get? h := by
  obtain ⟨c, hget, -⟩ := get?_of_handle? hbound
  have hnamed : s.named? name = some c := (named?_of_handle? hbound).trans hget
  rcases hahead.named name with hsame | ⟨schema, -, hearly⟩
  · rw [hnamed] at hsame
    obtain ⟨h', hbound', hget', -⟩ := exists_handle?_of_named? hsame
    exact ⟨h', hbound', hget'.trans hget.symm⟩
  · rw [hearly.free] at hnamed
    cases hnamed

/-- A name that is free in the first store is free in the second or bound early. -/
theorem Ahead.of_free (hahead : Ahead early s t) (hfree : s.handle? name = none) :
    t.handle? name = none ∨ ∃ schema, early name = some schema ∧ BoundEarly s t name schema := by
  rcases hahead.named name with hsame | hearly
  · rw [named?_eq_none_iff.mpr hfree] at hsame
    exact .inl (named?_eq_none_iff.mp hsame)
  · exact .inr hearly

/-- Two names of one handle are the same. -/
theorem eq_of_handle? {other : String} (hbound : s.handle? name = some h)
    (hbound' : s.handle? other = some h) : name = other := by
  obtain ⟨c, hget, hname⟩ := get?_of_handle? hbound
  obtain ⟨c', hget', hname'⟩ := get?_of_handle? hbound'
  obtain rfl := Option.some.inj (hget.symm.trans hget')
  exact hname.symm.trans hname'

/-- A handle has one twin on either side. -/
theorem Twin.eq_iff {i i' : Handle} (htwin : Twin s t h h') (htwin' : Twin s t i i') :
    h = i ↔ h' = i' := by
  obtain ⟨name, hs, ht⟩ := htwin
  obtain ⟨other, hs', ht'⟩ := htwin'
  constructor
  · rintro rfl
    obtain rfl := eq_of_handle? hs hs'
    exact Option.some.inj (ht.symm.trans ht')
  · rintro rfl
    obtain rfl := eq_of_handle? ht ht'
    exact Option.some.inj (hs.symm.trans hs')

/-- The collections behind twins are the same. -/
theorem Ahead.get? (hahead : Ahead early s t) (htwin : Twin s t h h') : t.get? h' = s.get? h := by
  obtain ⟨name, hs, ht⟩ := htwin
  obtain ⟨i, hi, hget⟩ := hahead.twin hs
  obtain rfl := Option.some.inj (ht.symm.trans hi)
  exact hget

-- ---------------------------------------------------------------------------
-- Steps
-- ---------------------------------------------------------------------------

/-- What is found under other names, and which of them are bound early, does not depend on how one
name is bound. -/
theorem Ahead.replaced (hahead : Ahead early s t) (hconfig : s'.config = s.config)
    (hschemas : s'.schemas = s.schemas) (hconfig' : t'.config = t.config)
    (hschemas' : t'.schemas = t.schemas)
    (hs : ∀ other, other ≠ name → s'.named? other = s.named? other)
    (ht : ∀ other, other ≠ name → t'.named? other = t.named? other)
    (hname : t'.named? name = s'.named? name ∨
      ∃ schema, early name = some schema ∧ BoundEarly s' t' name schema) : Ahead early s' t' := by
  refine ⟨?_, ?_, ?_, fun other => ?_⟩
  · rw [hconfig', hahead.config, hconfig]
  · rw [hschemas', hahead.schemas, hschemas]
  · rw [hschemas]
    exact hahead.wellFormed
  · by_cases hother : other = name
    · rw [hother]
      exact hname
    · rw [hs other hother, ht other hother]
      rcases hahead.named other with hsame | ⟨schema, hearly, hbound⟩
      · exact .inl hsame
      · refine .inr ⟨schema, hearly, hbound.valid, ?_, ?_, ?_⟩
        · rw [hschemas]
          exact hbound.declared
        · rw [hs other hother]
          exact hbound.free
        · rw [ht other hother, hconfig]
          exact hbound.bound

/-- An operation on twins. -/
theorem Ahead.put (hahead : Ahead early s t) (htwin : Twin s t h h') (hget : s.get? h = some c)
    (hsame : c'.binding = c.binding) : Ahead early (s.put h c') (t.put h' c') := by
  have hget' : t.get? h' = some c := (hahead.get? htwin).trans hget
  obtain ⟨name, hs, ht⟩ := htwin
  refine hahead.replaced rfl rfl rfl rfl
    (fun other hne => (named?_put hs hget hsame other).trans (if_neg hne))
    (fun other hne => (named?_put ht hget' hsame other).trans (if_neg hne)) (.inl ?_)
  rw [named?_put hs hget hsame, named?_put ht hget' hsame, if_pos rfl, if_pos rfl]

/-- A name that is free in both is bound in both. -/
theorem Ahead.bound_both (hahead : Ahead early s t) (hs : s.handle? name = none)
    (ht : t.handle? name = none) (schema : Schema) :
    Ahead early (s.bound name schema) (t.bound name schema) := by
  refine hahead.replaced rfl rfl rfl rfl
    (fun other hne => (named?_bound hs schema other).trans (if_neg hne))
    (fun other hne => (named?_bound ht schema other).trans (if_neg hne)) (.inl ?_)
  rw [named?_bound hs, named?_bound ht, hahead.config, if_pos rfl, if_pos rfl]

/-- A name that was bound early is bound in the first store too. -/
theorem Ahead.bound_late (hahead : Ahead early s t) (hearly : BoundEarly s t name schema) :
    Ahead early (s.bound name schema) t := by
  have hfree := named?_eq_none_iff.mp hearly.free
  refine hahead.replaced rfl rfl rfl rfl
    (fun other hne => (named?_bound hfree schema other).trans (if_neg hne))
    (fun _ _ => rfl) (.inl ?_)
  rw [named?_bound hfree, if_pos rfl]
  exact hearly.bound

/-- A name of the schema file is bound early. -/
theorem Ahead.bound_early (hahead : Ahead early s t) (hvalid : validName name = true)
    (hdeclared : Fields.get? s.schemas name = some schema) (hearly : early name = some schema)
    (ht : t.handle? name = none) : Ahead early s (t.bound name schema) := by
  have hbound := named?_bound ht schema name
  rw [if_pos rfl, hahead.config] at hbound
  have hfree : s.named? name = none := by
    rcases hahead.named name with hsame | ⟨_, -, hother⟩
    · rw [← hsame]
      exact named?_eq_none_iff.mpr ht
    · exact hother.free
  exact hahead.replaced rfl rfl rfl rfl (fun _ _ => rfl)
    (fun other hne => (named?_bound ht schema other).trans (if_neg hne))
    (.inr ⟨schema, hearly, hvalid, hdeclared, hfree, hbound⟩)

-- ---------------------------------------------------------------------------
-- Handles
-- ---------------------------------------------------------------------------

/-- Both stores refuse a handle alike, or give out handles of one name. -/
inductive GivenAlike (early : String → Option Schema) :
    Except StoreError (Handle × Store) → Except StoreError (Handle × Store) → Prop
  | refused (e : StoreError) : GivenAlike early (.error e) (.error e)
  | given {s t : Store} {h h' : Handle} (hahead : Ahead early s t) (htwin : Twin s t h h') :
      GivenAlike early (.ok (h, s)) (.ok (h', t))

theorem model_of_invalid (hvalid : validName name ≠ true) :
    s.model name schema = .error (.invalidArgument (.collectionName name)) := by
  rw [model, if_neg hvalid]

theorem model_of_free (hvalid : validName name = true) (hfree : s.handle? name = none) :
    s.model name schema = .ok (s.collections.length, s.bound name schema) :=
  model_eq_ok_iff.mpr ⟨hvalid, .inr ⟨hfree, rfl, rfl⟩⟩

/-- A name that is bound is given out if the schema is the same. -/
theorem model_of_bound (hvalid : validName name = true) (hbound : s.handle? name = some h)
    (hget : s.get? h = some c) : s.model name schema =
      if c.schema.same schema then .ok (h, s) else .error (.schema (.rebound name)) := by
  rw [Store.get?] at hget
  rw [model, if_pos hvalid, ← handle?, hbound]
  dsimp only
  rw [hget]

/-- **A name that a caller brings a schema for.** -/
theorem Ahead.model (hahead : Ahead early s t)
    (hkeeps : ∀ first, BoundEarly s t name first → schema = first) :
    GivenAlike early (s.model name schema) (t.model name schema) := by
  by_cases hvalid : validName name = true
  · cases hs : s.handle? name with
    | some h =>
      obtain ⟨c, hget, -⟩ := get?_of_handle? hs
      obtain ⟨h', ht, hget'⟩ := hahead.twin hs
      rw [model_of_bound hvalid hs hget, model_of_bound hvalid ht (hget'.trans hget)]
      split
      · exact .given hahead ⟨name, hs, ht⟩
      · exact .refused _
    | none =>
      rw [model_of_free hvalid hs]
      rcases hahead.of_free hs with ht | ⟨first, -, hearly⟩
      · rw [model_of_free hvalid ht]
        exact .given (hahead.bound_both hs ht schema)
          ⟨name, handle?_bound hs schema, handle?_bound ht schema⟩
      · -- the name was bound early, to the schema that is brought now
        obtain rfl := hkeeps first hearly
        obtain ⟨h', ht, hget', -⟩ := exists_handle?_of_named? hearly.bound
        have hwf : schema.WellFormed :=
          hahead.wellFormed _ (Fields.mem_of_get? hearly.declared)
        rw [model_of_bound hvalid ht hget', if_pos]
        swap
        · exact Schema.same_refl hwf
        exact .given (hahead.bound_late hearly) ⟨name, handle?_bound hs schema, ht⟩
  · rw [model_of_invalid hvalid, model_of_invalid hvalid]
    exact .refused _

/-- **A name that is asked for.** -/
theorem Ahead.collection (hahead : Ahead early s t) (name : String) :
    GivenAlike early (s.collection name) (t.collection name) := by
  rw [Store.collection, Store.collection, hahead.schemas]
  cases hs : s.handle? name with
  | some h =>
    obtain ⟨h', ht, -⟩ := hahead.twin hs
    rw [ht]
    exact .given hahead ⟨name, hs, ht⟩
  | none =>
    rcases hahead.of_free hs with ht | ⟨first, -, hearly⟩
    · rw [ht]
      dsimp only
      cases hdeclared : Fields.get? s.schemas name with
      | none => exact .refused _
      | some schema =>
        refine hahead.model fun first hearly => ?_
        exact Option.some.inj (hdeclared.symm.trans hearly.declared)
    · -- free here and bound early there, to what the schema file says
      obtain ⟨h', ht, -, -⟩ := exists_handle?_of_named? hearly.bound
      rw [ht, hearly.declared]
      dsimp only
      rw [model_of_free hearly.valid hs]
      exact .given (hahead.bound_late hearly) ⟨name, handle?_bound hs first, ht⟩

-- ---------------------------------------------------------------------------
-- Reports
-- ---------------------------------------------------------------------------

/-- The stores list the same names. -/
theorem Ahead.collectionNames (hahead : Ahead early s t) :
    t.collectionNames = s.collectionNames := by
  refine collectionNames_eq hahead.schemas fun name hname => ?_
  rcases hahead.named name with hsame | ⟨schema, -, hearly⟩
  · rw [hsame]
  · exact absurd (Fields.mem_names_of_get? hearly.declared) hname

/-- **A report on what is in memory.** -/
theorem Ahead.statusOf (hahead : Ahead early s t) (names : List String) :
    (t.statusOf names).1 = (s.statusOf names).1 ∧
      Ahead early (s.statusOf names).2 (t.statusOf names).2 := by
  induction names generalizing s t with
  | nil => exact ⟨rfl, hahead⟩
  | cons name rest ih =>
    have halike := hahead.collection name
    rw [Store.statusOf, Store.statusOf]
    generalize s.collection name = given, t.collection name = given' at halike
    cases halike with
    | refused e => exact ⟨rfl, hahead⟩
    | given hnext htwin =>
      obtain ⟨hrest, hlast⟩ := ih hnext
      dsimp only
      rw [hnext.get? htwin]
      split
      · exact ⟨rfl, hnext⟩
      · rw [hrest]
        exact ⟨rfl, hlast⟩

/-- **A check of all collections.** -/
theorem Ahead.validateOf (hahead : Ahead early s t) (w : World) (names : List String) :
    (t.validateOf w names).1 = (s.validateOf w names).1 ∧
      (t.validateOf w names).2.2 = (s.validateOf w names).2.2 ∧
      Ahead early (s.validateOf w names).2.1 (t.validateOf w names).2.1 := by
  induction names generalizing s t w with
  | nil => exact ⟨rfl, rfl, hahead⟩
  | cons name rest ih =>
    have halike := hahead.collection name
    rw [Store.validateOf, Store.validateOf]
    generalize s.collection name = given, t.collection name = given' at halike
    cases halike with
    | refused e => exact ⟨rfl, rfl, hahead⟩
    | @given s t h h' hnext htwin =>
      dsimp only
      rw [hnext.get? htwin]
      cases hget : s.get? h with
      | none => exact ⟨rfl, rfl, hnext⟩
      | some c =>
        have hput : Ahead early (s.put h (c.checkIntegrity w).collection)
            (t.put h' (c.checkIntegrity w).collection) :=
          hnext.put htwin hget (Collection.binding_perform c w .checkIntegrity)
        dsimp only
        cases hanswer : (c.checkIntegrity w).answer with
        | error e => exact ⟨rfl, rfl, hput⟩
        | ok issues =>
          obtain ⟨hrest, hworld, hlast⟩ := ih hput (c.checkIntegrity w).world
          dsimp only
          rw [hrest, hworld]
          exact ⟨rfl, rfl, hlast⟩

/-- **Reporting binds names early.** -/
theorem Ahead.after_statusOf (hahead : Ahead (Fields.get? s.schemas) s t) (names : List String) :
    Ahead (Fields.get? s.schemas) s (t.statusOf names).2 := by
  induction names generalizing t with
  | nil => exact hahead
  | cons name rest ih =>
    rw [Store.statusOf]
    cases hgiven : t.collection name with
    | error e => exact hahead
    | ok given =>
      obtain ⟨h, t'⟩ := given
      have hnext : Ahead (Fields.get? s.schemas) s t' := by
        obtain ⟨-, rfl⟩ | ⟨schema, hdeclared, hmodel⟩ := collection_eq_ok hgiven
        · exact hahead
        · obtain ⟨hvalid, ⟨c, -, -, -, rfl⟩ | ⟨hfree, -, rfl⟩⟩ := model_eq_ok_iff.mp hmodel
          · exact hahead
          · -- the report binds the name to what the schema file has for it
            rw [hahead.schemas] at hdeclared
            exact hahead.bound_early hvalid hdeclared hdeclared hfree
      dsimp only
      split
      · exact hnext
      · exact ih hnext

end DocStore.Store
