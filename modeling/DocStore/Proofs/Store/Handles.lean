import Mathlib.Data.List.Forall2
import Mathlib.Tactic.MkIffOfInductiveProp
import DocStore.Proofs.Collection.Run
import DocStore.Proofs.Store.Requests
/-!
# One collection behind all handles of a name

A name is bound once, whichever request comes first, and a bound name keeps its place in the store.
So all requests for a name are given the same handle, and whatever callers do through it they do to
one collection, in the order in which the store serves them.

* `Schema.same_iff`: when two schemas say the same, so that a bound name can be bound again.
* `registeredWith?`: the schema that a name was bound to, as the calls tell.
* `Follows`: each collection is what its operations made of it, one after the other.
* `one_collection_per_name`: whole rows of calls.
-/

namespace DocStore

-- ---------------------------------------------------------------------------
-- Schemas that say the same
-- ---------------------------------------------------------------------------

/-- Two declarations are equal, except that their defaults only need the same text: the members of
an object have no order there, and the two zeros are one number. -/
@[mk_iff]
structure FieldSpec.SaysAs (a b : FieldSpec) : Prop where
  type : a.type = b.type
  required : a.required = b.required
  unique : a.unique = b.unique
  reference : a.reference = b.reference
  default? : Option.Rel (fun v w => Json.sameText v w = true) a.default? b.default?

/-- Two schemas declare the same of the same fields in the same order. -/
@[mk_iff]
structure Schema.SaysAs (a b : Schema) : Prop where
  timestamps : a.timestamps = b.timestamps
  fields : List.Forall₂ (fun x y => x.1 = y.1 ∧ x.2.SaysAs y.2) a.fields b.fields

/-- **Declarations are compared by what they say.** -/
theorem FieldSpec.same_iff {a b : FieldSpec} : a.same b = true ↔ a.SaysAs b := by
  rw [FieldSpec.saysAs_iff, FieldSpec.same]
  cases a.default? <;> cases b.default? <;> simp [and_assoc]

/-- **What the comparison of schemas decides.** -/
theorem Schema.same_iff {a b : Schema} : a.same b = true ↔ a.SaysAs b := by
  rw [Schema.saysAs_iff, List.forall₂_iff_zip, Schema.same]
  simp [FieldSpec.same_iff, and_assoc]

/-- Every schema says the same as itself. -/
theorem Schema.same_refl {schema : Schema} (h : schema.WellFormed) : schema.same schema = true := by
  refine same_iff.mpr ⟨rfl, List.forall₂_same.mpr fun e he => ⟨rfl, rfl, rfl, rfl, rfl, ?_⟩⟩
  cases hv : e.2.default? with
  | none => exact .none
  | some v => exact .some (Json.sameText_refl (h e he v hv))

namespace Store

open Collection (Binding)

variable {s s' : Store} {w : World} {name : String} {schema : Schema} {h : Handle} {c : Collection}
  {schemaFor? : String → Option Schema} {visits visits' : List Visit}

-- ---------------------------------------------------------------------------
-- The schema of a name
-- ---------------------------------------------------------------------------

/-- The schema that a name was first bound to by a row of calls, if they bind it. -/
def registeredWith? (s : Store) (w : World) (name : String) : List Call → Option Schema
  | [] => none
  | k :: rest =>
    let (_, s', w') := s.call w k
    if s.handle? name = none ∧ s'.handle? name ≠ none then k.request.schemaFor? s.schemas name
    else registeredWith? s' w' name rest

/-- The schema that a name is bound to. -/
def schemaOf? (s : Store) (name : String) : Option Schema :=
  ((s.handle? name).bind s.get?).map Collection.schema

theorem schemaOf?_of_get? (hbound : s.handle? name = some h) (hget : s.get? h = some c) :
    s.schemaOf? name = some c.schema := by
  rw [schemaOf?, hbound, Option.bind_some, hget, Option.map_some]

theorem schemaOf?_of_free (hfree : s.handle? name = none) : s.schemaOf? name = none := by
  rw [schemaOf?, hfree, Option.bind_none, Option.map_none]

/-- A bound name stays bound to its schema. -/
theorem Grows.schemaOf? {allowed : Binding → Prop} (hgrows : Grows allowed s s')
    (hbound : s.handle? name = some h) : s'.schemaOf? name = s.schemaOf? name := by
  obtain ⟨c, hget, -⟩ := get?_of_handle? hbound
  obtain ⟨c', hget', hsame⟩ := hgrows.get? hget
  rw [schemaOf?_of_get? (hgrows.handle? hbound) hget', schemaOf?_of_get? hbound hget]
  exact congrArg (fun b : Binding => some b.schema) hsame

/-- **When a name can be bound to a schema**: it is valid, and bound to the same one or free. -/
theorem exists_model_iff : (∃ h s', s.model name schema = .ok (h, s')) ↔ validName name = true ∧
    ∀ first, s.schemaOf? name = some first → first.same schema = true := by
  simp only [model_eq_ok_iff]
  constructor
  · rintro ⟨h, s', hvalid, ⟨c, hbound, hget, hsame, -⟩ | ⟨hfree, -⟩⟩
    · refine ⟨hvalid, fun first hfirst => ?_⟩
      rw [schemaOf?_of_get? hbound hget] at hfirst
      rwa [← Option.some.inj hfirst]
    · refine ⟨hvalid, fun first hfirst => ?_⟩
      rw [schemaOf?_of_free hfree] at hfirst
      cases hfirst
  · rintro ⟨hvalid, hsame⟩
    cases hbound : s.handle? name with
    | none => exact ⟨_, _, hvalid, .inr ⟨rfl, rfl, rfl⟩⟩
    | some h =>
      obtain ⟨c, hget, -⟩ := get?_of_handle? hbound
      exact ⟨h, s, hvalid, .inl ⟨c, rfl, hget, hsame _ (schemaOf?_of_get? hbound hget), rfl⟩⟩

/-- A name that a request binds is bound to the schema that the request has for it. -/
theorem schemaOf?_of_new (hgrows : Grows (BoundFor schemaFor?) s s')
    (hfree : s.handle? name = none) (hbound : s'.handle? name = some h) :
    s'.schemaOf? name = schemaFor? name := by
  obtain ⟨c, hget, rfl⟩ := get?_of_handle? hbound
  obtain ⟨new, hnew, hallowed⟩ := hgrows.bindings
  have hbinding : c.binding ∈ s.bindings ++ new := by
    rw [← hnew]
    exact List.mem_map_of_mem (List.mem_of_getElem? hget)
  rw [schemaOf?_of_get? hbound hget]
  rcases List.mem_append.mp hbinding with hold | hnew
  · -- the name was free, so no binding was one of it
    rw [handle?_eq, List.findIdx?_eq_none_iff] at hfree
    exact absurd (beq_self_eq_true c.name) (Bool.not_eq_true _ ▸ hfree c.binding hold)
  · exact (hallowed _ hnew).symm

/-- **A name is bound to the schema that it was first bound to.** -/
theorem schemaOf?_calls (s : Store) (w : World) (name : String) (ks : List Call) :
    (s.calls w ks).2.1.schemaOf? name = (s.schemaOf? name).or (s.registeredWith? w name ks) := by
  induction ks generalizing s w with
  | nil => exact (Option.or_none).symm
  | cons k rest ih =>
    have hgrows := (steps_call s w k).grows
    have hrest : (s.calls w (k :: rest)).2.1.schemaOf? name = _ :=
      ih (s.call w k).2.1 (s.call w k).2.2
    rw [hrest, registeredWith?]
    cases hbound : s.handle? name with
    | some h =>
      obtain ⟨c, hget, -⟩ := get?_of_handle? hbound
      rw [hgrows.schemaOf? hbound, schemaOf?_of_get? hbound hget, Option.some_or, Option.some_or]
    | none =>
      rw [schemaOf?_of_free hbound, Option.none_or]
      cases hnext : (s.call w k).2.1.handle? name with
      | none =>
        rw [schemaOf?_of_free hnext, Option.none_or]
        exact (if_neg fun hnew => hnew.2 hnext).symm
      | some h =>
        have hschema := schemaOf?_of_new hgrows hbound hnext
        obtain ⟨c, hget, -⟩ := get?_of_handle? hnext
        rw [schemaOf?_of_get? hnext hget] at hschema ⊢
        rw [Option.some_or, hschema]
        have hnew : (s.call w k).2.1.handle? name ≠ none := by
          rw [hnext]
          exact Option.some_ne_none h
        exact (if_pos ⟨rfl, hnew⟩).symm

-- ---------------------------------------------------------------------------
-- One collection
-- ---------------------------------------------------------------------------

/-- Each collection is what the operations on it made of it, one after the other, from when it was
bound. -/
structure Follows (visits : List Visit) (s : Store) : Prop where
  given : ∀ v ∈ visits, v.handle < s.collections.length
  collections : ∀ h c, s.get? h = some c →
    c = after c.binding.start (visitsTo h visits)

theorem follows_of_no_collections (h : s.collections = []) : Follows [] s := by
  refine ⟨fun v hv => absurd hv List.not_mem_nil, fun i c hget => ?_⟩
  rw [get?, h] at hget
  cases hget

theorem visitsTo_append (h : Handle) (visits visits' : List Visit) :
    visitsTo h (visits ++ visits') = visitsTo h visits ++ visitsTo h visits' := List.filter_append ..

theorem after_append (c : Collection) (visits visits' : List Visit) :
    after c (visits ++ visits') = after (after c visits) visits' := List.foldl_append ..

/-- Binding a name leaves all collections as their operations made them. -/
theorem Follows.bound (hfollows : Follows visits s) (name : String) (schema : Schema) :
    Follows visits (s.bound name schema) := by
  constructor
  · intro v hv
    rw [Store.bound, List.length_append]
    exact Nat.lt_add_right _ (hfollows.given v hv)
  · intro h c hget
    rcases Nat.lt_or_ge h s.collections.length with hold | hnew
    · rw [get?, Store.bound, List.getElem?_append_left hold] at hget
      exact hfollows.collections h c hget
    · -- nothing was done to the collection that was bound last
      have hnone : visitsTo h visits = [] := by
        rw [visitsTo, List.filter_eq_nil_iff]
        intro v hv hsame
        have hlt := hfollows.given v hv
        rw [of_decide_eq_true hsame] at hlt
        exact Nat.not_le.mpr hlt hnew
      rw [get?, Store.bound, List.getElem?_append_right hnew] at hget
      rw [List.mem_singleton.mp (List.mem_of_getElem? hget), hnone]
      rfl

/-- An operation on one collection is done to that one alone. -/
theorem Follows.put (hfollows : Follows visits s) (hget : s.get? h = some c) (w : World)
    (op : Collection.Operation) :
    Follows (visits ++ [⟨h, w, op⟩]) (s.put h (c.perform w op).collection) := by
  have hlt : h < s.collections.length := (List.getElem?_eq_some_iff.mp hget).1
  constructor
  · intro v hv
    rw [Store.put, List.length_set]
    rcases List.mem_append.mp hv with hv | hv
    · exact hfollows.given v hv
    · rw [List.mem_singleton.mp hv]
      exact hlt
  · intro i d hget'
    rw [visitsTo_append]
    rw [get?, Store.put, List.getElem?_set] at hget'
    -- the visit is one more to this collection, and none to any other
    by_cases hi : h = i
    · subst hi
      rw [if_pos rfl, if_pos hlt] at hget'
      obtain rfl := Option.some.inj hget'
      have hvisit : visitsTo h [⟨h, w, op⟩] = [⟨h, w, op⟩] := by
        rw [visitsTo, List.filter_singleton, decide_eq_true rfl]
        rfl
      rw [hvisit, after_append, Collection.binding_perform, ← hfollows.collections h c hget]
      rfl
    · have hother : visitsTo i [⟨h, w, op⟩] = [] := by
        rw [visitsTo, List.filter_singleton, decide_eq_false hi]
        rfl
      rw [if_neg hi] at hget'
      rw [hother, List.append_nil]
      exact hfollows.collections i d hget'

/-- Whatever a request does, each collection is what its operations made of it. -/
theorem Follows.steps (hfollows : Follows visits s) (h : Steps schemaFor? s visits' s') :
    Follows (visits ++ visits') s' := by
  induction h generalizing visits with
  | done s => rwa [List.append_nil]
  | next hstep _ ih =>
    rw [← List.append_assoc]
    refine ih ?_
    cases hstep with
    | bind =>
      rw [List.append_nil]
      exact hfollows.bound ..
    | visit w op hget => exact hfollows.put hget w op

/-- **Each collection is what its operations made of it**, after any calls. -/
theorem Follows.calls (hfollows : Follows visits s) (w : World) (ks : List Call) :
    Follows (visits ++ s.visits w ks) (s.calls w ks).2.1 := by
  induction ks generalizing s w visits with
  | nil =>
    rw [Store.visits, List.append_nil]
    exact hfollows
  | cons k rest ih =>
    rw [Store.visits, ← List.append_assoc]
    exact ih (hfollows.steps (steps_call s w k)) _

-- ---------------------------------------------------------------------------
-- Stores that were opened
-- ---------------------------------------------------------------------------

/-- A store that was opened has the configuration it was opened with, and no name is bound in it. -/
theorem openWith_eq_ok {config : Config} {files files' : FileTree}
    (hopen : openWith config files = (.ok s, files')) :
    s.config = config ∧ s.collections = [] := by
  rw [openWith] at hopen
  cases hmade : if config.dataDir = "" then (files, true)
    else files.createDirectory config.dataDir with
  | mk around made =>
    rw [hmade] at hopen
    cases made with
    | false => cases (Prod.mk.inj hopen).1
    | true =>
      dsimp only at hopen
      rw [if_pos rfl] at hopen
      split at hopen
      · cases (Prod.mk.inj hopen).1
      · obtain rfl := Except.ok.inj (Prod.mk.inj hopen).1
        exact ⟨rfl, rfl⟩

/-- **All that is done through the handles of a name is done to one collection.** After any calls to
a store that was opened, whatever is in its schema file: all successful calls for a name were given
one handle, and the collection behind it has the schema that the name was first bound to; the name
can be bound to exactly the same schema, or to any if it is free and valid; and each collection is
what the operations on it made of it, whichever calls asked for them and whatever was done to others
in between, and answers the next operation as such. -/
theorem one_collection_per_name {config : Config} {files files' : FileTree} {s₀ : Store}
    (hopen : openWith config files = (.ok s₀, files')) (w : World) (ks : List Call) :
    let replies := (s₀.calls w ks).1
    let s := (s₀.calls w ks).2.1
    (∀ (i : Nat) (k : Call) (name : String) (h : Handle), ks[i]? = some k → k.request.AsksFor name →
      replies[i]? = some (.handle (.ok h)) →
        s.handle? name = some h ∧ ∃ c, s.get? h = some c ∧ c.name = name ∧
          s₀.registeredWith? w name ks = some c.schema) ∧
    (∀ name schema, (∃ h s', s.model name schema = .ok (h, s')) ↔ validName name = true ∧
      ∀ first, s₀.registeredWith? w name ks = some first → first.same schema = true) ∧
    ∀ h c, s.get? h = some c →
      c = after (.unloaded c.name c.schema c.path) (visitsTo h (s₀.visits w ks)) ∧
      ∀ w' op, s.serve w' (.perform h op) =
        (.answer (some (c.perform w' op).answer), s.put h (c.perform w' op).collection,
          (c.perform w' op).world) := by
  intro replies s
  have hempty := (openWith_eq_ok hopen).2
  -- nothing is bound in a store that was just opened, so the calls bound what is bound
  have hregistered : ∀ name, s.schemaOf? name = s₀.registeredWith? w name ks := by
    intro name
    have hfree : s₀.handle? name = none := by
      rw [Store.handle?, hempty]
      rfl
    have hschema := schemaOf?_calls s₀ w name ks
    rwa [schemaOf?_of_free hfree, Option.none_or] at hschema
  refine ⟨?_, ?_, ?_⟩
  · intro i k name h hk hasks hreply
    have hbound := handle?_calls hk hasks hreply
    obtain ⟨c, hget, hname⟩ := get?_of_handle? hbound
    exact ⟨hbound, c, hget, hname, by rw [← hregistered, schemaOf?_of_get? hbound hget]⟩
  · intro name schema
    rw [← hregistered]
    exact exists_model_iff
  · intro h c hget
    have hfollows := (follows_of_no_collections hempty).calls w ks
    exact ⟨hfollows.collections h c hget, serve_perform hget⟩

namespace Sample

def config : Config := .ofDir "data"

/-- A store in a new directory. -/
def store : Store := ⟨config, [], []⟩

def world : World := { Collection.Sample.world with files := (openWith config (.fresh ["home"])).2 }

/-- Addresses, and labels whose default is one label with these members. -/
def mail (label : Record) : Schema :=
  Collection.Sample.schema.add "labels" ⟨.array, false, some (.array [.object label]), false, false⟩

def inbox : Schema := mail [("name", .string "inbox"), ("count", .int 0)]

/-- The same schema, with the members of the label in another order. -/
def inboxAgain : Schema := mail [("count", .int 0), ("name", .string "inbox")]

/-- The default is a JSON value. -/
theorem wellFormed_inbox : inbox.WellFormed := by
  have hfields : inbox.fields = Collection.Sample.schema.fields ++ [("labels", ⟨.array, false,
    some (.array [.object [("name", .string "inbox"), ("count", .int 0)]]), false, false⟩)] := rfl
  intro e he v hv
  rw [hfields, List.mem_append, List.mem_singleton] at he
  rcases he with he | rfl
  · exact Collection.Sample.wellFormed_schema e he v hv
  · rw [← Option.some.inj hv]
    simp [Json.WellFormed, Json.WellFormedItems, Json.WellFormedMembers, Json.int, Fields.Distinct,
      Fields.names, Number.IntegerRange]

/-- A name is bound, a record is saved, and the name is asked for again: with another schema, which
is refused, without one, and with the same schema. Then all collections are checked. -/
def asking : List Call :=
  [⟨0, .model "mail" inbox⟩, ⟨1, .perform 0 (Collection.Sample.saving "a").op⟩,
    ⟨2, .model "mail" (.empty false)⟩, ⟨3, .collection "mail"⟩, ⟨4, .model "mail" inboxAgain⟩,
    ⟨5, .validateAll⟩]

end Sample

/-- All three requests that succeed are given the first handle, and two operations were performed on
the collection behind it. The name can be bound again to the schema it has, in whatever order the
members of its default are written, and not to one without fields. -/
theorem one_collection_per_name_asking :
    let replies := (Sample.store.calls Sample.world Sample.asking).1
    let s := (Sample.store.calls Sample.world Sample.asking).2.1
    s.handle? "mail" = some 0 ∧ replies[4]? = some (.handle (.ok 0)) ∧
      (∃ h s', s.model "mail" Sample.inbox = .ok (h, s')) ∧
      (∃ h s', s.model "mail" Sample.inboxAgain = .ok (h, s')) ∧
      (¬ ∃ h s', s.model "mail" (.empty false) = .ok (h, s')) ∧
      ∃ c, s.get? 0 = some c ∧ c.loadedCount = some 1 ∧
        c = after (.unloaded c.name c.schema c.path)
          (visitsTo 0 (Sample.store.visits Sample.world Sample.asking)) ∧
        (visitsTo 0 (Sample.store.visits Sample.world Sample.asking)).length = 2 := by
  intro replies s
  have hopen : openWith Sample.config (.fresh ["home"]) = (.ok Sample.store, Sample.world.files) :=
    rfl
  obtain ⟨hgiven, hmodel, hcollections⟩ :=
    one_collection_per_name hopen Sample.world Sample.asking
  have hagain : replies[4]? = some (.handle (.ok 0)) := rfl
  obtain ⟨hbound, c, hget, -, -⟩ := hgiven 4 ⟨4, .model "mail" Sample.inboxAgain⟩ "mail" 0 rfl rfl
    hagain
  have hregistered : Sample.store.registeredWith? Sample.world "mail" Sample.asking =
      some Sample.inbox := rfl
  have hsame : ∀ schema, (∃ h s', s.model "mail" schema = .ok (h, s')) ↔
      Sample.inbox.same schema = true := by
    intro schema
    rw [hmodel, hregistered]
    simp only [Option.some.injEq, forall_eq']
    exact and_iff_right (by decide)
  refine ⟨hbound, hagain, (hsame _).mpr (Schema.same_refl Sample.wellFormed_inbox),
    (hsame _).mpr (by decide +kernel), fun hother => ?_, c, hget, ?_, (hcollections 0 c hget).1,
    by decide +kernel⟩
  · exact absurd ((hsame _).mp hother) (by decide)
  · have hcount : (s.get? 0).bind Collection.loadedCount = some 1 := by decide +kernel
    rwa [hget] at hcount

end Store

end DocStore
