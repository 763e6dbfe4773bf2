import DocStore.Proofs.Collection.Effect
import DocStore.Store
/-!
# Requests to a store

Callers ask a store for handles, for reports on all collections, and for operations through a
handle. Whatever they ask for, the store does it in steps of two kinds: it binds a free name, or it
performs an operation on one collection. So what is kept by these steps is kept by any calls.

* `Step`, `Steps`: the steps, and the operations that are performed in them.
* `steps_serve`: every request is made of such steps.
* `Grows`: names stay bound as they are.
* `handle?_calls`: all requests for a name are given the same handle.
-/

namespace DocStore

-- ---------------------------------------------------------------------------
-- What operations leave of a collection
-- ---------------------------------------------------------------------------

namespace Collection

/-- What a name is bound to. -/
structure Binding where
  name : String
  schema : Schema
  path : String

/-- The collection of a name when it is bound. -/
def Binding.start (b : Binding) : Collection := .unloaded b.name b.schema b.path

def binding (c : Collection) : Binding := ⟨c.name, c.schema, c.path⟩

/-- Loading changes nothing of what a name is bound to. -/
theorem binding_load (c : Collection) (w : World) : (c.load w).collection.binding = c.binding := by
  rw [load]
  split
  · rfl
  · split <;> rfl

/-- Settling what was decided changes nothing of what a name is bound to. -/
theorem binding_settle (c : Collection) (w : World) (e : Effect) :
    (settle c w e).collection.binding = c.binding := by
  rw [settle, withIdSupply_eq]
  dsimp only
  split
  · rfl
  · unfold commit
    split
    · rfl
    · split <;> rfl

/-- An operation changes nothing of a collection but its records and its supply of ids. -/
theorem binding_perform (c : Collection) (w : World) (op : Operation) :
    (c.perform w op).collection.binding = c.binding := by
  rw [perform_eq]
  split
  · rfl
  · split
    · exact binding_load c w
    · exact (binding_settle ..).trans (binding_load c w)

end Collection

namespace Store

open Collection (Binding Operation)

-- ---------------------------------------------------------------------------
-- Requests
-- ---------------------------------------------------------------------------

/-- What callers ask of a store. -/
inductive Request where
  | model (name : String) (schema : Schema)
  | collection (name : String)
  | status
  | validateAll
  | perform (h : Handle) (op : Operation)

/-- What a store replies: a handle, a report, or the answer of an operation. An operation through a
handle that was never given out has none. -/
inductive Reply where
  | handle (reply : Except StoreError Handle)
  | report (reply : Except StoreError Json)
  | answer (reply : Option (Except StoreError Collection.Answer))

/-- The reply to a request for a handle. -/
def replyHandle (s : Store) (w : World) (bound : Except StoreError (Handle × Store)) :
    Reply × Store × World :=
  match bound with
  | .error e => (.handle (.error e), s, w)
  | .ok (h, s) => (.handle (.ok h), s, w)

/-- Serves a request. -/
def serve (s : Store) (w : World) : Request → Reply × Store × World
  | .model name schema => s.replyHandle w (s.model name schema)
  | .collection name => s.replyHandle w (s.collection name)
  | .status =>
    let (report, s) := s.status
    (.report report, s, w)
  | .validateAll =>
    let (report, s, w) := s.validateAll w
    (.report report, s, w)
  | .perform h op =>
    match s.perform? w h op with
    | none => (.answer none, s, w)
    | some (answer, s, w) => (.answer (some answer), s, w)

/-- What the clock shows, and what is asked for. -/
structure Call where
  clock : Nat
  request : Request

def call (s : Store) (w : World) (k : Call) : Reply × Store × World :=
  s.serve { w with clock := k.clock } k.request

/-- Serves calls in turn. -/
def calls (s : Store) (w : World) : List Call → List Reply × Store × World
  | [] => ([], s, w)
  | k :: rest =>
    let (reply, s, w) := s.call w k
    let (replies, s, w) := calls s w rest
    (reply :: replies, s, w)

-- ---------------------------------------------------------------------------
-- What is done to each collection
-- ---------------------------------------------------------------------------

/-- An operation on the collection behind a handle, and the world in which it is performed. -/
structure Visit where
  handle : Handle
  world : World
  op : Operation

/-- The collection after some operations, each in its world. -/
def after (c : Collection) (visits : List Visit) : Collection :=
  visits.foldl (fun c v => (c.perform v.world v.op).collection) c

/-- The visits to one collection. -/
def visitsTo (h : Handle) (visits : List Visit) : List Visit := visits.filter fun v => v.handle = h

/-- The collections that are checked when names are checked in turn. -/
def checks (s : Store) (w : World) : List String → List Visit
  | [] => []
  | name :: rest =>
    match s.collection name with
    | .error _ => []
    | .ok (h, s) =>
      match s.get? h with
      | none => []
      | some c =>
        let o := c.checkIntegrity w
        ⟨h, w, .checkIntegrity⟩ ::
          match o.answer with
          | .error _ => []
          | .ok _ => checks (s.put h o.collection) o.world rest

/-- The operations that a request performs. -/
def Request.visits (s : Store) (w : World) : Request → List Visit
  | .perform h op => if (s.get? h).isSome then [⟨h, w, op⟩] else []
  | .validateAll => s.checks w s.collectionNames
  | _ => []

/-- The operations that calls perform. -/
def visits (s : Store) (w : World) : List Call → List Visit
  | [] => []
  | k :: rest =>
    k.request.visits s { w with clock := k.clock } ++
      visits (s.call w k).2.1 (s.call w k).2.2 rest

-- ---------------------------------------------------------------------------
-- Steps
-- ---------------------------------------------------------------------------

/-- The store with a name bound to a schema. -/
def bound (s : Store) (name : String) (schema : Schema) : Store :=
  { s with collections :=
      s.collections ++ [.unloaded name schema (s.config.collectionPath name)] }

/-- The request is one for the handle of a name. -/
def Request.AsksFor (name : String) : Request → Prop
  | .model given _ | .collection given => given = name
  | _ => False

/-- The schema to which a request binds a name: the one it brings, or the one in the schema file. -/
def Request.schemaFor? (schemas : Fields Schema) (name : String) : Request → Option Schema
  | .model given schema => if given = name then some schema else none
  | _ => Fields.get? schemas name

/-- A step of a request: a valid name that is free is bound, or an operation is performed. -/
inductive Step (schemaFor? : String → Option Schema) : Store → List Visit → Store → Prop
  | bind {s : Store} {name : String} {schema : Schema} (hvalid : validName name = true)
      (hfree : s.handle? name = none) (hschema : schemaFor? name = some schema) :
      Step schemaFor? s [] (s.bound name schema)
  | visit {s : Store} {h : Handle} {c : Collection} (w : World) (op : Operation)
      (hget : s.get? h = some c) :
      Step schemaFor? s [⟨h, w, op⟩] (s.put h (c.perform w op).collection)

/-- Steps in turn, and the operations they perform. -/
inductive Steps (schemaFor? : String → Option Schema) : Store → List Visit → Store → Prop
  | done (s : Store) : Steps schemaFor? s [] s
  | next {s s' s'' : Store} {visits visits' : List Visit} (hstep : Step schemaFor? s visits s')
      (hrest : Steps schemaFor? s' visits' s'') : Steps schemaFor? s (visits ++ visits') s''

variable {s s' : Store} {w : World} {name : String} {schema : Schema} {h : Handle} {c : Collection}
  {schemaFor? : String → Option Schema} {visits : List Visit}

theorem Step.steps (h : Step schemaFor? s visits s') : Steps schemaFor? s visits s' := by
  have hsteps := Steps.next h (.done s')
  rwa [List.append_nil] at hsteps

/-- The collection behind the handle of a name has that name. -/
theorem get?_of_handle? (hh : s.handle? name = some h) : ∃ c, s.get? h = some c ∧ c.name = name := by
  obtain ⟨hlt, hname, -⟩ := List.findIdx?_eq_some_iff_getElem.mp hh
  exact ⟨s.collections[h], List.getElem?_eq_getElem hlt, beq_iff_eq.mp hname⟩

/-- **When a name is given a handle** to a schema: it is bound to the same one, or it is free. -/
theorem model_eq_ok_iff : s.model name schema = .ok (h, s') ↔
    validName name = true ∧
      ((∃ c, s.handle? name = some h ∧ s.get? h = some c ∧ c.schema.same schema = true ∧ s' = s) ∨
        s.handle? name = none ∧ h = s.collections.length ∧ s' = s.bound name schema) := by
  rw [model]
  by_cases hvalid : validName name = true
  · rw [if_pos hvalid, ← handle?]
    cases hhandle : s.handle? name with
    | none =>
      constructor
      · intro hok
        obtain ⟨rfl, rfl⟩ := Prod.mk.inj (Except.ok.inj hok)
        exact ⟨hvalid, .inr ⟨rfl, rfl, rfl⟩⟩
      · rintro ⟨-, ⟨c, hbound, -⟩ | ⟨-, rfl, rfl⟩⟩
        · cases hbound
        · rfl
    | some i =>
      obtain ⟨c, hget, -⟩ := get?_of_handle? hhandle
      dsimp only
      rw [← get?, hget]
      dsimp only
      constructor
      · intro hok
        -- a name that is bound is given out for the same schema only
        split at hok
        · rename_i hsame
          obtain ⟨rfl, rfl⟩ := Prod.mk.inj (Except.ok.inj hok)
          exact ⟨hvalid, .inl ⟨c, rfl, hget, hsame, rfl⟩⟩
        · cases hok
      · rintro ⟨-, ⟨c', hi, hget', hsame, rfl⟩ | ⟨hnone, -⟩⟩
        · obtain rfl := Option.some.inj hi
          obtain rfl := Option.some.inj (hget.symm.trans hget')
          rw [if_pos hsame]
        · cases hnone
  · rw [if_neg hvalid]
    constructor
    · nofun
    · exact fun hboth => absurd hboth.1 hvalid

theorem handle?_bound (hfree : s.handle? name = none) (schema : Schema) :
    (s.bound name schema).handle? name = some s.collections.length := by
  rw [handle?, bound, List.findIdx?_append, ← handle?, hfree]
  simp [Collection.unloaded]

/-- The handle that is given for a model is that of the name. -/
theorem handle?_of_model (hmodel : s.model name schema = .ok (h, s')) :
    s'.handle? name = some h := by
  obtain ⟨-, ⟨c, hbound, -, -, rfl⟩ | ⟨hfree, rfl, rfl⟩⟩ := model_eq_ok_iff.mp hmodel
  · exact hbound
  · exact handle?_bound hfree schema

/-- Giving a handle for a model binds the name, or does nothing. -/
theorem steps_of_model (hmodel : s.model name schema = .ok (h, s'))
    (hschema : schemaFor? name = some schema) : Steps schemaFor? s [] s' := by
  obtain ⟨hvalid, ⟨c, -, -, -, rfl⟩ | ⟨hfree, -, rfl⟩⟩ := model_eq_ok_iff.mp hmodel
  · exact .done s'
  · exact (Step.bind hvalid hfree hschema).steps

/-- A name that is not bound yet is bound to the schema of the schema file. -/
theorem collection_eq_ok (hcollection : s.collection name = .ok (h, s')) :
    s.handle? name = some h ∧ s' = s ∨
      ∃ schema, Fields.get? s.schemas name = some schema ∧ s.model name schema = .ok (h, s') := by
  unfold collection at hcollection
  split at hcollection
  · rename_i i hbound
    obtain ⟨rfl, rfl⟩ := Prod.mk.inj (Except.ok.inj hcollection)
    exact .inl ⟨hbound, rfl⟩
  · split at hcollection
    · rename_i schema hschema
      exact .inr ⟨schema, hschema, hcollection⟩
    · cases hcollection

/-- The handle that is given for a collection is that of the name. -/
theorem handle?_of_collection (hcollection : s.collection name = .ok (h, s')) :
    s'.handle? name = some h := by
  obtain ⟨hbound, rfl⟩ | ⟨schema, -, hmodel⟩ := collection_eq_ok hcollection
  · exact hbound
  · exact handle?_of_model hmodel

/-- Giving a handle for a collection binds the name to what the schema file has, or does nothing. -/
theorem steps_of_collection (hcollection : s.collection name = .ok (h, s')) :
    Steps (Fields.get? s.schemas) s [] s' := by
  obtain ⟨-, rfl⟩ | ⟨schema, hschema, hmodel⟩ := collection_eq_ok hcollection
  · exact .done s'
  · exact steps_of_model hmodel hschema

-- ---------------------------------------------------------------------------
-- What the steps keep
-- ---------------------------------------------------------------------------

/-- What the names are bound to, in the order of their handles. -/
def bindings (s : Store) : List Binding := s.collections.map Collection.binding

/-- Names stay bound as they are; names that were free may be bound in a way that is allowed. -/
structure Grows (allowed : Binding → Prop) (s s' : Store) : Prop where
  config : s'.config = s.config
  schemas : s'.schemas = s.schemas
  bindings : ∃ new, s'.bindings = s.bindings ++ new ∧ ∀ b ∈ new, allowed b

variable {allowed : Binding → Prop}

theorem Grows.refl (allowed : Binding → Prop) (s : Store) : Grows allowed s s :=
  ⟨rfl, rfl, [], (List.append_nil _).symm, fun _ hb => absurd hb List.not_mem_nil⟩

/-- Growing goes on. -/
theorem Grows.trans {s'' : Store} (h : Grows allowed s s') (h' : Grows allowed s' s'') :
    Grows allowed s s'' := by
  obtain ⟨new, hnew, hallowed⟩ := h.bindings
  obtain ⟨new', hnew', hallowed'⟩ := h'.bindings
  refine ⟨h'.config.trans h.config, h'.schemas.trans h.schemas, new ++ new', ?_, ?_⟩
  · rw [hnew', hnew, List.append_assoc]
  · intro b hb
    exact (List.mem_append.mp hb).elim (hallowed b) (hallowed' b)

theorem bindings_put (hget : s.get? h = some c) {c' : Collection} (hsame : c'.binding = c.binding) :
    (s.put h c').bindings = s.bindings := by
  obtain ⟨hlt, rfl⟩ := List.getElem?_eq_some_iff.mp hget
  rw [bindings, put, List.map_set, hsame, ← List.map_set, List.set_getElem_self, bindings]

/-- A binding to the schema that a request has for the name. -/
def BoundFor (schemaFor? : String → Option Schema) (b : Binding) : Prop :=
  schemaFor? b.name = some b.schema

/-- A step binds no more than the request has a schema for. -/
theorem Step.grows (h : Step schemaFor? s visits s') : Grows (BoundFor schemaFor?) s s' := by
  cases h with
  | @bind name schema hvalid hfree hschema =>
    refine ⟨rfl, rfl, [⟨name, schema, s.config.collectionPath name⟩], List.map_append, ?_⟩
    intro b hb
    rw [List.mem_singleton.mp hb]
    exact hschema
  | visit w op hget =>
    refine ⟨rfl, rfl, [], ?_, fun _ hb => absurd hb List.not_mem_nil⟩
    rw [List.append_nil, bindings_put hget (Collection.binding_perform ..)]

theorem Steps.grows (h : Steps schemaFor? s visits s') : Grows (BoundFor schemaFor?) s s' := by
  induction h with
  | done s => exact .refl _ s
  | next hstep _ ih => exact hstep.grows.trans ih

theorem handle?_eq (s : Store) (name : String) :
    s.handle? name = s.bindings.findIdx? fun b => b.name == name := by
  rw [handle?, bindings, List.findIdx?_map]
  rfl

theorem map_get? (s : Store) (h : Handle) :
    (s.get? h).map Collection.binding = s.bindings[h]? := by
  rw [bindings, List.getElem?_map]
  rfl

/-- **A name that is bound keeps its handle.** -/
theorem Grows.handle? (hgrows : Grows allowed s s') (hbound : s.handle? name = some h) :
    s'.handle? name = some h := by
  obtain ⟨new, hnew, -⟩ := hgrows.bindings
  rw [handle?_eq] at hbound ⊢
  rw [hnew, List.findIdx?_append, hbound, Option.some_or]

/-- A collection stays bound as it is. -/
theorem Grows.get? (hgrows : Grows allowed s s') (hget : s.get? h = some c) :
    ∃ c', s'.get? h = some c' ∧ c'.binding = c.binding := by
  obtain ⟨new, hnew, -⟩ := hgrows.bindings
  have hbinding : s.bindings[h]? = some c.binding := by rw [← map_get?, hget, Option.map_some]
  have hkept : s'.bindings[h]? = some c.binding := by
    rw [hnew, List.getElem?_append_left (List.getElem?_eq_some_iff.mp hbinding).1, hbinding]
  rw [← map_get?, Option.map_eq_some_iff] at hkept
  exact hkept

-- ---------------------------------------------------------------------------
-- Every request is made of steps
-- ---------------------------------------------------------------------------

/-- Two rows of steps are one. -/
theorem Steps.append {s'' : Store} {visits' : List Visit} (h : Steps schemaFor? s visits s')
    (h' : Steps schemaFor? s' visits' s'') : Steps schemaFor? s (visits ++ visits') s'' := by
  induction h with
  | done s => exact h'
  | next hstep hrest ih =>
    rw [List.append_assoc]
    exact .next hstep (ih h')

/-- A report binds names of the schema file, and performs nothing. -/
theorem steps_statusOf (s : Store) (names : List String) :
    Steps (Fields.get? s.schemas) s [] (s.statusOf names).2 := by
  induction names generalizing s with
  | nil => exact .done s
  | cons name rest ih =>
    rw [statusOf]
    split
    · exact .done s
    · rename_i h s' hcollection
      have hsteps := steps_of_collection hcollection
      split
      · exact hsteps
      · have hrest := ih s'
        rw [hsteps.grows.schemas] at hrest
        exact hsteps.append hrest

/-- A check of all collections binds names of the schema file, and checks each collection. -/
theorem steps_validateOf (s : Store) (w : World) (names : List String) :
    Steps (Fields.get? s.schemas) s (s.checks w names) (s.validateOf w names).2.1 := by
  induction names generalizing s w with
  | nil => exact .done s
  | cons name rest ih =>
    rw [validateOf, checks]
    cases hcollection : s.collection name with
    | error e => exact .done s
    | ok given =>
      obtain ⟨h, s'⟩ := given
      have hsteps := steps_of_collection hcollection
      dsimp only
      cases hget : s'.get? h with
      | none => exact hsteps
      | some c =>
        -- the name may be bound first, and then its collection is checked
        have hvisit : Steps (Fields.get? s.schemas) s [⟨h, w, .checkIntegrity⟩]
            (s'.put h (c.checkIntegrity w).collection) :=
          hsteps.append (Step.visit w .checkIntegrity hget).steps
        dsimp only
        cases hanswer : (c.checkIntegrity w).answer with
        | error e => exact hvisit
        | ok issues =>
          have hrest := ih (s'.put h (c.checkIntegrity w).collection) (c.checkIntegrity w).world
          rw [hvisit.grows.schemas] at hrest
          exact hvisit.append hrest

/-- **Every request is made of steps.** -/
theorem steps_serve (s : Store) (w : World) (r : Request) :
    Steps (r.schemaFor? s.schemas) s (r.visits s w) (s.serve w r).2.1 := by
  -- a handle that is refused leaves the store as it is
  have hgiven : ∀ {f : String → Option Schema} {reply : Except StoreError (Handle × Store)},
      (∀ h s', reply = .ok (h, s') → Steps f s [] s') →
        Steps f s [] (s.replyHandle w reply).2.1 := by
    intro f reply hok
    cases reply with
    | error e => exact .done s
    | ok given => exact hok given.1 given.2 rfl
  cases r with
  | model name schema =>
    exact hgiven fun h s' hmodel => steps_of_model hmodel (if_pos rfl)
  | collection name =>
    exact hgiven fun h s' hcollection => steps_of_collection hcollection
  | status => exact steps_statusOf s _
  | validateAll => exact steps_validateOf s w _
  | perform h op =>
    rw [Request.visits, serve, perform?]
    cases hget : s.get? h with
    | none => exact .done s
    | some c => exact (Step.visit w op hget).steps

/-- A successful request for a name is given the handle that the name is bound to. -/
theorem handle?_serve {r : Request} (hasks : r.AsksFor name)
    (hreply : (s.serve w r).1 = .handle (.ok h)) : (s.serve w r).2.1.handle? name = some h := by
  have hgiven : ∀ {reply : Except StoreError (Handle × Store)},
      (∀ h s', reply = .ok (h, s') → s'.handle? name = some h) →
        (s.replyHandle w reply).1 = .handle (.ok h) →
          (s.replyHandle w reply).2.1.handle? name = some h := by
    intro reply hbound hok
    cases reply with
    | error e => cases hok
    | ok given =>
      obtain ⟨i, s'⟩ := given
      obtain rfl : i = h := Except.ok.inj (Reply.handle.inj hok)
      exact hbound i s' rfl
  cases r with
  | model given schema =>
    obtain rfl : given = name := hasks
    exact hgiven (fun h s' hmodel => handle?_of_model hmodel) hreply
  | collection given =>
    obtain rfl : given = name := hasks
    exact hgiven (fun h s' hcollection => handle?_of_collection hcollection) hreply
  | status => exact hasks.elim
  | validateAll => exact hasks.elim
  | perform => exact hasks.elim

/-- An operation through a handle is one on the collection behind it. -/
theorem serve_perform (hget : s.get? h = some c) (w : World) (op : Operation) :
    s.serve w (.perform h op) =
      (.answer (some (c.perform w op).answer), s.put h (c.perform w op).collection,
        (c.perform w op).world) := by
  rw [serve, perform?, hget]
  rfl

-- ---------------------------------------------------------------------------
-- Rows of calls
-- ---------------------------------------------------------------------------

theorem steps_call (s : Store) (w : World) (k : Call) :
    Steps (k.request.schemaFor? s.schemas) s
      (k.request.visits s { w with clock := k.clock }) (s.call w k).2.1 :=
  steps_serve s _ k.request

theorem Grows.anyhow (h : Grows allowed s s') : Grows (fun _ => True) s s' := by
  obtain ⟨new, hnew, -⟩ := h.bindings
  exact ⟨h.config, h.schemas, new, hnew, fun _ _ => trivial⟩

/-- **Names stay bound as they are** through any calls. -/
theorem grows_calls (s : Store) (w : World) (ks : List Call) :
    Grows (fun _ => True) s (s.calls w ks).2.1 := by
  induction ks generalizing s w with
  | nil => exact .refl _ s
  | cons k rest ih => exact (steps_call s w k).grows.anyhow.trans (ih ..)

/-- **Successful calls for a name are given the handle that the name is bound to in the end.** -/
theorem handle?_calls {ks : List Call} {i : Nat} {k : Call} (hk : ks[i]? = some k)
    (hasks : k.request.AsksFor name) (hreply : (s.calls w ks).1[i]? = some (.handle (.ok h))) :
    (s.calls w ks).2.1.handle? name = some h := by
  induction ks generalizing s w i with
  | nil => cases hk
  | cons first rest ih =>
    cases i with
    | zero =>
      obtain rfl : first = k := Option.some.inj hk
      have hbound := handle?_serve hasks (Option.some.inj hreply)
      exact (grows_calls (s.call w first).2.1 (s.call w first).2.2 rest).handle? hbound
    | succ i => exact ih hk hreply

end Store
end DocStore
