import DocStore.Proofs.Store.Ahead
/-!
# What a report leaves behind

A report on all collections reads nothing from the files and writes nothing, but it binds the names
of the schema file. To the callers of a store this shows in one place: a name that a report bound can
no longer be bound to another schema. Handles are compared as callers can compare them, by their
place among those that they were given.

* `Session`: a store in use, with the handles that its callers have.
* `Session.Ahead.ask`: what is asked of a store that bound names early.
* `status_leaves`: whole rows of questions, with and without a report before them.
-/

namespace DocStore.Store

open Collection (Binding)

-- ---------------------------------------------------------------------------
-- Questions
-- ---------------------------------------------------------------------------

/-- What callers ask of a store. A handle is meant by its place among those that they were given. -/
inductive Question where
  | names
  | request (r : Request)

/-- What callers are told. A handle is told by its place among those that they were given. -/
inductive Told where
  | names (names : List String)
  | reply (r : Reply)

/-- What the clock shows, and what is asked. -/
structure Ask where
  clock : Nat
  question : Question

/-- A store in use: the handles that its callers were given, each once and in turn. -/
structure Session where
  given : List Handle
  store : Store
  world : World

/-- The request with the handle that stands at the place it means, if one was given there. -/
def Request.through (given : List Handle) : Request → Option Request
  | .perform place op => given[place]?.map fun h => .perform h op
  | r => some r

/-- The reply with the place of its handle, and the handles given after it. -/
def Reply.placed (given : List Handle) : Reply → Reply × List Handle
  | .handle (.ok h) =>
    (.handle (.ok (given.idxOf h)), if h ∈ given then given else given ++ [h])
  | r => (r, given)

namespace Session

def ask (x : Session) (k : Ask) : Told × Session :=
  match k.question with
  | .names => (.names x.store.collectionNames, x)
  | .request r =>
    match r.through x.given with
    | none => (.reply (.answer none), x)
    | some r =>
      let (reply, store, world) := x.store.call x.world ⟨k.clock, r⟩
      let (reply, given) := reply.placed x.given
      (.reply reply, ⟨given, store, world⟩)

/-- Asks in turn. -/
def run (x : Session) : List Ask → List Told × Session
  | [] => ([], x)
  | k :: rest =>
    let (told, x) := x.ask k
    let (more, x) := run x rest
    (told :: more, x)

/-- No caller in a row is the first to bind a name to another schema than `early` has for it. -/
def BindsAs (early : String → Option Schema) (x : Session) (asks : List Ask) : Prop :=
  ∀ before clock name schema after,
    asks = before ++ ⟨clock, .request (.model name schema)⟩ :: after →
      (x.run before).2.store.handle? name = none →
        ∀ first, early name = some first → schema = first

end Session

variable {s t s' t' : Store} {w : World} {name : String} {schema : Schema} {h h' : Handle}
  {c : Collection} {early : String → Option Schema} {given given' : List Handle}

-- ---------------------------------------------------------------------------
-- Handles that were given
-- ---------------------------------------------------------------------------

/-- Bound names keep their handles on both sides. -/
theorem Twin.grows {allowed allowed' : Binding → Prop} (htwin : Twin s t h h')
    (hs : Grows allowed s s') (ht : Grows allowed' t t') : Twin s' t' h h' := by
  obtain ⟨name, hbound, hbound'⟩ := htwin
  exact ⟨name, hs.handle? hbound, ht.handle? hbound'⟩

/-- A handle stands at the place of its twin. -/
theorem idxOf_eq (hgiven : List.Forall₂ (Twin s t) given given') (htwin : Twin s t h h') :
    given.idxOf h = given'.idxOf h' ∧ (h ∈ given ↔ h' ∈ given') := by
  induction hgiven with
  | nil => simp
  | @cons i i' given given' hfirst _ ih =>
    have hsame : h = i ↔ h' = i' := htwin.eq_iff hfirst
    rw [List.mem_cons, List.mem_cons, ih.2, hsame]
    refine ⟨?_, Iff.rfl⟩
    by_cases heq : h = i
    · rw [← heq, ← hsame.mp heq, List.idxOf_cons_self, List.idxOf_cons_self]
    · have hne' : i' ≠ h' := fun h => heq (hsame.mpr h.symm)
      rw [List.idxOf_cons_ne _ (Ne.symm heq), List.idxOf_cons_ne _ hne', ih.1]

/-- Twins are told by the same place, and stay twins. -/
theorem placed_handle (hgiven : List.Forall₂ (Twin s t) given given') (htwin : Twin s t h h') :
    (Reply.placed given (.handle (.ok h))).1 = (Reply.placed given' (.handle (.ok h'))).1 ∧
      List.Forall₂ (Twin s t) (Reply.placed given (.handle (.ok h))).2
        (Reply.placed given' (.handle (.ok h'))).2 := by
  obtain ⟨hplace, hmem⟩ := idxOf_eq hgiven htwin
  rw [Reply.placed, Reply.placed, hplace]
  refine ⟨rfl, ?_⟩
  by_cases hknown : h ∈ given
  · rw [if_pos hknown, if_pos (hmem.mp hknown)]
    exact hgiven
  · rw [if_neg hknown, if_neg fun h => hknown (hmem.mpr h)]
    exact List.rel_append hgiven (.cons htwin .nil)

/-- A reply without a handle is told as it is. -/
theorem placed_of_other {reply : Reply} (hreply : ∀ h, reply ≠ .handle (.ok h)) :
    reply.placed given = (reply, given) := by
  unfold Reply.placed
  split
  · exact absurd rfl (hreply _)
  · rfl

/-- The same is asked of both stores, through twins. -/
inductive SameRequest (s t : Store) : Request → Request → Prop
  | perform {h h' : Handle} (htwin : Twin s t h h') (op : Collection.Operation) :
      SameRequest s t (.perform h op) (.perform h' op)
  | other {r : Request} (hr : ∀ h op, r ≠ .perform h op) : SameRequest s t r r

/-- Both stores reply the same, or with twins, do the same to the world, and stay apart in the names
that are bound early alone. -/
inductive ServedAlike (early : String → Option Schema) :
    Reply × Store × World → Reply × Store × World → Prop
  | handle {s t : Store} {h h' : Handle} (hahead : Ahead early s t) (htwin : Twin s t h h')
      (w : World) : ServedAlike early (.handle (.ok h), s, w) (.handle (.ok h'), t, w)
  | other {s t : Store} {reply : Reply} (hahead : Ahead early s t)
      (hreply : ∀ h, reply ≠ .handle (.ok h)) (w : World) :
      ServedAlike early (reply, s, w) (reply, t, w)

/-- Handles that are given alike are served alike. -/
theorem GivenAlike.served (hahead : Ahead early s t) (w : World)
    {reply reply' : Except StoreError (Handle × Store)} (halike : GivenAlike early reply reply') :
    ServedAlike early (s.replyHandle w reply) (t.replyHandle w reply') := by
  cases halike with
  | refused e => exact .other hahead (by simp) w
  | given hnext htwin => exact .handle hnext htwin w

/-- **Requests to a store that bound names early** are served alike. -/
theorem Ahead.serve (hahead : Ahead early s t) {r r' : Request} (hsame : SameRequest s t r r')
    (hkeeps : ∀ name schema, r = .model name schema →
      ∀ first, BoundEarly s t name first → schema = first) (w : World) :
    ServedAlike early (s.serve w r) (t.serve w r') := by
  cases hsame with
  | @perform h h' htwin op =>
    rw [Store.serve, Store.serve, perform?, perform?, hahead.get? htwin]
    cases hget : s.get? h with
    | none => exact .other hahead (by simp) w
    | some c =>
      exact .other (hahead.put htwin hget (Collection.binding_perform c w op)) (by simp) _
  | other hr =>
    cases r with
    | model name schema =>
      exact (hahead.model (hkeeps name schema rfl)).served hahead w
    | collection name => exact (hahead.collection name).served hahead w
    | status =>
      obtain ⟨hreport, hlast⟩ := hahead.statusOf s.collectionNames
      rw [Store.serve, Store.serve, status, status, hahead.collectionNames]
      dsimp only
      rw [hreport, hlast.config]
      exact .other hlast (by simp) w
    | validateAll =>
      obtain ⟨hreport, hworld, hlast⟩ := hahead.validateOf w s.collectionNames
      rw [Store.serve, Store.serve, validateAll, validateAll, hahead.collectionNames]
      dsimp only
      rw [hreport, hworld]
      exact .other hlast (by simp) _
    | perform h op => exact absurd rfl (hr h op)

-- ---------------------------------------------------------------------------
-- Sessions
-- ---------------------------------------------------------------------------

/-- The same session on a store that bound some names early. -/
structure Session.Ahead (early : String → Option Schema) (x y : Session) : Prop where
  given : List.Forall₂ (Twin x.store y.store) x.given y.given
  store : Store.Ahead early x.store y.store
  world : y.world = x.world

/-- A place means twins on both sides, or nothing on either. -/
theorem through_alike (hgiven : List.Forall₂ (Twin s t) given given') (r : Request) :
    r.through given = none ∧ r.through given' = none ∨
      ∃ r₁ r₂, r.through given = some r₁ ∧ r.through given' = some r₂ ∧ SameRequest s t r₁ r₂ ∧
        ∀ name schema, r₁ = .model name schema → r = .model name schema := by
  cases r with
  | perform place op =>
    rcases Nat.lt_or_ge place given.length with hlt | hge
    · have hlt' : place < given'.length := hgiven.length_eq ▸ hlt
      refine .inr ⟨.perform given[place] op, .perform given'[place] op, ?_, ?_,
        .perform (hgiven.get hlt hlt') op, by simp⟩
      · rw [Request.through, List.getElem?_eq_getElem hlt, Option.map_some]
      · rw [Request.through, List.getElem?_eq_getElem hlt', Option.map_some]
    · have hge' : given'.length ≤ place := hgiven.length_eq ▸ hge
      refine .inl ⟨?_, ?_⟩
      · rw [Request.through, List.getElem?_eq_none hge, Option.map_none]
      · rw [Request.through, List.getElem?_eq_none hge', Option.map_none]
  | _ => exact .inr ⟨_, _, rfl, rfl, .other (by simp), fun _ _ h => h⟩

theorem Session.ask_of_none {x : Session} {r : Request} (hnone : r.through x.given = none)
    (clock : Nat) : x.ask ⟨clock, .request r⟩ = (.reply (.answer none), x) := by
  simp only [Session.ask, hnone]

/-- A question is answered as the store serves it, with the place of its handle. -/
theorem Session.ask_of_some {x : Session} {r r' : Request} (hsome : r.through x.given = some r')
    (clock : Nat) : x.ask ⟨clock, .request r⟩ =
      let served := x.store.call x.world ⟨clock, r'⟩
      let placed := served.1.placed x.given
      (.reply placed.1, ⟨placed.2, served.2.1, served.2.2⟩) := by
  simp only [Session.ask, hsome]

/-- **What is asked of a store that bound names early** is answered alike. -/
theorem Session.Ahead.ask {x y : Session} (hahead : Session.Ahead early x y) (k : Ask)
    (hkeeps : ∀ name schema, k.question = .request (.model name schema) →
      x.store.handle? name = none → ∀ first, early name = some first → schema = first) :
    (y.ask k).1 = (x.ask k).1 ∧ Session.Ahead early (x.ask k).2 (y.ask k).2 := by
  obtain ⟨clock, question⟩ := k
  cases question with
  | names =>
    refine ⟨?_, hahead⟩
    show Told.names y.store.collectionNames = .names x.store.collectionNames
    rw [hahead.store.collectionNames]
  | request r =>
    rcases through_alike hahead.given r with ⟨hnone, hnone'⟩ | ⟨r₁, r₂, hr, hr', hsame, hmodel⟩
    · rw [ask_of_none hnone, ask_of_none hnone']
      exact ⟨rfl, hahead⟩
    · -- a name that was bound early is free here, and the caller brings the schema it was bound to
      have hkept : ∀ name schema, r₁ = .model name schema →
          ∀ first, BoundEarly x.store y.store name first → schema = first := by
        intro name schema heq first hearly
        have hfree := named?_eq_none_iff.mp hearly.free
        rcases hahead.store.named name with hsame | ⟨other, hother, hbound⟩
        · rw [hearly.free, hearly.bound] at hsame
          cases hsame
        · obtain rfl := Option.some.inj (hearly.declared.symm.trans hbound.declared)
          exact hkeeps name schema (congrArg Question.request (hmodel name schema heq)) hfree _
            hother
      have hserved : ServedAlike early (x.store.call x.world ⟨clock, r₁⟩)
          (y.store.call x.world ⟨clock, r₂⟩) := hahead.store.serve hsame hkept _
      have hgrows := (steps_call x.store x.world ⟨clock, r₁⟩).grows
      have hgrows' := (steps_call y.store x.world ⟨clock, r₂⟩).grows
      -- the handles that callers have stay those of their names
      have hgiven : List.Forall₂ (Twin (x.store.call x.world ⟨clock, r₁⟩).2.1
          (y.store.call x.world ⟨clock, r₂⟩).2.1) x.given y.given :=
        hahead.given.imp fun h h' htwin => htwin.grows hgrows hgrows'
      rw [ask_of_some hr, ask_of_some hr', hahead.world]
      clear hgrows hgrows'
      generalize x.store.call x.world ⟨clock, r₁⟩ = served,
        y.store.call x.world ⟨clock, r₂⟩ = served' at hserved hgiven
      cases hserved with
      | handle hnext htwin w =>
        obtain ⟨hplace, hgiven'⟩ := placed_handle hgiven htwin
        exact ⟨congrArg Told.reply hplace.symm, hgiven', hnext, rfl⟩
      | other hnext hreply w =>
        dsimp only
        rw [placed_of_other hreply, placed_of_other hreply]
        exact ⟨rfl, hgiven, hnext, rfl⟩

/-- **Rows of questions** are answered alike, if no caller brings another schema for a name that was
bound early. -/
theorem Session.Ahead.run {x y : Session} (hahead : Session.Ahead early x y) {asks : List Ask}
    (hbinds : x.BindsAs early asks) :
    (y.run asks).1 = (x.run asks).1 ∧ Session.Ahead early (x.run asks).2 (y.run asks).2 := by
  induction asks generalizing x y with
  | nil => exact ⟨rfl, hahead⟩
  | cons k rest ih =>
    have hfirst : ∀ name schema, k.question = .request (.model name schema) →
        x.store.handle? name = none → ∀ first, early name = some first → schema = first := by
      intro name schema hquestion
      refine hbinds [] k.clock name schema rest ?_
      rw [← hquestion]
      rfl
    have hrest : (x.ask k).2.BindsAs early rest := by
      intro before clock name schema after hasks
      exact hbinds (k :: before) clock name schema after (congrArg (k :: ·) hasks)
    obtain ⟨htold, hnext⟩ := hahead.ask k hfirst
    obtain ⟨hmore, hlast⟩ := ih hnext hrest
    refine ⟨?_, hlast⟩
    show (y.ask k).1 :: ((y.ask k).2.run rest).1 = (x.ask k).1 :: ((x.ask k).2.run rest).1
    rw [htold, hmore]

-- ---------------------------------------------------------------------------
-- A report before other questions
-- ---------------------------------------------------------------------------

/-- Names stay bound through a question. -/
theorem Session.grows_ask (x : Session) (k : Ask) :
    Grows (fun _ => True) x.store (x.ask k).2.store := by
  obtain ⟨clock, question⟩ := k
  cases question with
  | names => exact .refl _ x.store
  | request r =>
    cases hr : r.through x.given with
    | none =>
      rw [ask_of_none hr]
      exact .refl _ x.store
    | some r' =>
      rw [ask_of_some hr]
      exact (steps_call x.store x.world ⟨clock, r'⟩).grows.anyhow

/-- Names stay bound through any questions. -/
theorem Session.grows_run (x : Session) (asks : List Ask) :
    Grows (fun _ => True) x.store (x.run asks).2.store := by
  induction asks generalizing x with
  | nil => exact .refl _ x.store
  | cons k rest ih => exact (x.grows_ask k).trans (ih (x.ask k).2)

/-- A caller who brings a schema for a name is told what becomes of it. -/
theorem Session.ask_model (x : Session) (clock : Nat) (name : String) (schema : Schema) :
    (x.ask ⟨clock, .request (.model name schema)⟩).1 =
      match x.store.model name schema with
      | .error e => .reply (.handle (.error e))
      | .ok (h, _) => .reply (.handle (.ok (x.given.idxOf h))) := by
  have hthrough : Request.through x.given (.model name schema) = some (.model name schema) := rfl
  rw [ask_of_some hthrough]
  dsimp only
  rw [Store.call, serve]
  cases x.store.model name schema with
  | error e => rfl
  | ok given => rfl

/-- A report adds collections behind those that are there. -/
theorem prefix_statusOf (s : Store) (names : List String) :
    s.collections <+: (s.statusOf names).2.collections := by
  induction names generalizing s with
  | nil => exact List.prefix_rfl
  | cons name rest ih =>
    rw [statusOf]
    cases hgiven : s.collection name with
    | error e => exact List.prefix_rfl
    | ok given =>
      obtain ⟨h, s'⟩ := given
      have hnext : s.collections <+: s'.collections := by
        obtain ⟨-, rfl⟩ | ⟨schema, -, hmodel⟩ := collection_eq_ok hgiven
        · exact List.prefix_rfl
        · obtain ⟨-, ⟨c, -, -, -, rfl⟩ | ⟨-, -, rfl⟩⟩ := model_eq_ok_iff.mp hmodel
          · exact List.prefix_rfl
          · exact List.prefix_append ..
      dsimp only
      split
      · exact hnext
      · exact hnext.trans (ih s')

/-- **A report binds names early**, and that is all it does. -/
theorem ahead_status (hschemas : ∀ e ∈ s.schemas, e.2.WellFormed) :
    Ahead s.status.2.schemaOf? s s.status.2 := by
  have hahead := (Ahead.refl (Fields.get? s.schemas) hschemas).after_statusOf s.collectionNames
  refine ⟨hahead.config, hahead.schemas, hschemas, fun name => ?_⟩
  rcases hahead.named name with hsame | ⟨schema, -, hearly⟩
  · exact .inl hsame
  · refine .inr ⟨schema, ?_, hearly⟩
    rw [schemaOf?_eq]
    exact congrArg (Option.map Collection.schema) hearly.bound

/-- A name has the same collection in both stores, or was bound early. -/
theorem Ahead.named_or_early (hahead : Ahead early s t) (name : String) :
    t.named? name = s.named? name ∨ ∃ schema, BoundEarly s t name schema := by
  rcases hahead.named name with hsame | ⟨schema, -, hearly⟩
  · exact .inl hsame
  · exact .inr ⟨schema, hearly⟩

/-- **What a report leaves behind**, in any store whose schema file holds well-formed schemas, and
whatever handles its callers have. It leaves the world and all collections as they are, and binds
names of the schema file that are free, without loading anything. So whatever is asked later, as long
as no caller is the first to bring another schema for a name that the report bound, the callers are
told the same as without it, the world is the same, and so are all collections but for those that
only the report bound. A caller who is the first to bring a different schema for such a name is given
a handle without the report, and refused after it. -/
theorem status_leaves (s : Store) (w : World) (given : List Handle)
    (hschemas : ∀ e ∈ s.schemas, e.2.WellFormed)
    (hgiven : ∀ h ∈ given, ∃ name, s.handle? name = some h) :
    let later := s.status.2
    let plain : Session := ⟨given, s, w⟩
    let reported : Session := ⟨given, later, w⟩
    ((s.serve w .status).2 = (later, w) ∧ later.config = s.config ∧ later.schemas = s.schemas ∧
      s.collections <+: later.collections ∧
      ∀ name, later.named? name = s.named? name ∨ ∃ schema, BoundEarly s later name schema) ∧
    (∀ asks, plain.BindsAs later.schemaOf? asks →
      (reported.run asks).1 = (plain.run asks).1 ∧
      (reported.run asks).2.world = (plain.run asks).2.world ∧
      ∀ name, (reported.run asks).2.store.named? name = (plain.run asks).2.store.named? name ∨
        ∃ schema, BoundEarly (plain.run asks).2.store (reported.run asks).2.store name schema) ∧
    ∀ asks clock name schema first, (plain.run asks).2.store.handle? name = none →
      later.schemaOf? name = some first → first.same schema = false →
        (∃ place, ((plain.run asks).2.ask ⟨clock, .request (.model name schema)⟩).1 =
          .reply (.handle (.ok place))) ∧
        ((reported.run asks).2.ask ⟨clock, .request (.model name schema)⟩).1 =
          .reply (.handle (.error (.schema (.rebound name)))) := by
  intro later plain reported
  have hahead : Ahead later.schemaOf? s later := ahead_status hschemas
  refine ⟨⟨rfl, hahead.config, hahead.schemas, prefix_statusOf .., hahead.named_or_early⟩, ?_, ?_⟩
  · intro asks hbinds
    -- the report moved no handle, so each is a twin of itself
    have htwins : List.Forall₂ (Twin s later) given given := by
      rw [List.forall₂_same]
      intro h hh
      obtain ⟨name, hbound⟩ := hgiven h hh
      exact ⟨name, hbound, (steps_statusOf s s.collectionNames).grows.handle? hbound⟩
    have hsession : Session.Ahead later.schemaOf? plain reported := ⟨htwins, hahead, rfl⟩
    obtain ⟨htold, hlast⟩ := hsession.run hbinds
    exact ⟨htold, hlast.world, hlast.store.named_or_early⟩
  · intro asks clock name schema first hfree hfirst hother
    obtain ⟨c, hc, rfl⟩ := Option.map_eq_some_iff.mp hfirst
    obtain ⟨h, hbound, hget, -⟩ := exists_handle?_of_named? hc
    have hvalid : validName name = true := by
      rcases hahead.named name with hsame | ⟨_, -, hearly⟩
      · -- a name that was bound before would still be bound
        have hc' : s.named? name = some c := hsame.symm.trans hc
        obtain ⟨i, hi, -⟩ := exists_handle?_of_named? hc'
        have hstill := (plain.grows_run asks).handle? hi
        rw [hfree] at hstill
        cases hstill
      · exact hearly.valid
    constructor
    · rw [Session.ask_model, model_of_free hvalid hfree]
      exact ⟨_, rfl⟩
    · have hgrows := reported.grows_run asks
      obtain ⟨c', hget', hsame⟩ := hgrows.get? hget
      have hschema : c'.schema = c.schema := congrArg Binding.schema hsame
      rw [Session.ask_model, model_of_bound hvalid (hgrows.handle? hbound) hget', hschema, if_neg]
      rw [hother]
      exact Bool.false_ne_true

namespace Sample

/-- A store with one name in its schema file. -/
def declaring (schema : Schema) : Store := ⟨config, [("mail", schema)], []⟩

/-- A name is bound that is not in the schema file, and then the one that is. A record is saved, and
the names are asked for. -/
def filing : List Ask :=
  [⟨0, .request (.model "post" Collection.Sample.schema)⟩, ⟨1, .request (.collection "mail")⟩,
    ⟨2, .request (.perform 1 (Collection.Sample.saving "a").op)⟩, ⟨3, .names⟩]

/-- A list with one object, whose members stand in this order, is the default of the only field. -/
def listing (members : List (String × Json)) : Schema :=
  (Schema.empty false).add "items" ⟨.array, false, some (.array [.object members]), false, false⟩

def ordered : Schema := listing [("a", .int 1), ("b", .int 2)]
def reordered : Schema := listing [("b", .int 2), ("a", .int 1)]

/-- The name of the schema file is bound to this schema, and an empty record is saved. -/
def binding (schema : Schema) : List Ask :=
  [⟨0, .request (.model "mail" schema)⟩, ⟨0, .request (.perform 0 (.save (.object [])))⟩]

/-- The texts of the single records that were told. -/
def recordTexts : List Told → List String
  | [] => []
  | .reply (.answer (some (.ok (.record (some r))))) :: rest =>
    (Json.object r).compact :: recordTexts rest
  | _ :: rest => recordTexts rest

end Sample

/-- The name of the schema file has the second handle without the report and the first one after it,
and the callers are told the same. -/
theorem status_leaves_filing :
    let plain : Session := ⟨[], Sample.declaring Collection.Sample.schema, Sample.world⟩
    let reported : Session :=
      ⟨[], (Sample.declaring Collection.Sample.schema).status.2, Sample.world⟩
    (plain.run Sample.filing).2.store.handle? "mail" = some 1 ∧
      (reported.run Sample.filing).2.store.handle? "mail" = some 0 ∧
      (reported.run Sample.filing).1 = (plain.run Sample.filing).1 ∧
      (reported.run Sample.filing).2.world = (plain.run Sample.filing).2.world := by
  intro plain reported
  have hschemas : ∀ e ∈ (Sample.declaring Collection.Sample.schema).schemas, e.2.WellFormed := by
    intro e he
    rw [List.mem_singleton.mp he]
    exact Collection.Sample.wellFormed_schema
  have hbinds : plain.BindsAs (Sample.declaring Collection.Sample.schema).status.2.schemaOf?
      Sample.filing := by
    intro before clock name schema after hasks _ first hfirst
    have hmem : ⟨clock, .request (.model name schema)⟩ ∈ Sample.filing := by
      rw [hasks]
      exact List.mem_append_right _ List.mem_cons_self
    simp [Sample.filing] at hmem
    obtain ⟨-, rfl, -⟩ := hmem
    rw [schemaOf?_of_free (by decide +kernel)] at hfirst
    cases hfirst
  obtain ⟨-, hrun, -⟩ := status_leaves (Sample.declaring Collection.Sample.schema) Sample.world []
    hschemas (fun _ hh => absurd hh List.not_mem_nil)
  obtain ⟨htold, hworld, -⟩ := hrun Sample.filing hbinds
  exact ⟨by decide +kernel, by decide +kernel, htold, hworld⟩

/-- **A report shows later**, when a caller brings another schema for a name that it bound: a
different one is refused, and one that says the same is left aside, which shows in what is saved. -/
theorem status_shows :
    let plain : Session := ⟨[], Sample.declaring Sample.ordered, Sample.world⟩
    let reported : Session := ⟨[], (Sample.declaring Sample.ordered).status.2, Sample.world⟩
    (reported.run (Sample.binding (.empty false))).1 ≠
        (plain.run (Sample.binding (.empty false))).1 ∧
      Sample.ordered.same Sample.reordered = true ∧
      (reported.run (Sample.binding Sample.reordered)).1 ≠
        (plain.run (Sample.binding Sample.reordered)).1 := by
  intro plain reported
  refine ⟨fun heq => ?_, by decide +kernel, fun heq => ?_⟩
  · have htexts := congrArg Sample.recordTexts heq
    exact absurd htexts (by decide +kernel)
  · have htexts := congrArg Sample.recordTexts heq
    exact absurd htexts (by decide +kernel)

end DocStore.Store
