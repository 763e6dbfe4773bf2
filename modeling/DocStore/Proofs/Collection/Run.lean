import DocStore.Proofs.Collection.Rewriting
/-!
# Runs of calls

A call sets the clock and performs an operation. What one call does to records and file is said
here once, for collections that are in memory and for those that are not.

* `call_of_loaded`: a call leaves records and file, or rewrites both.
* `call_of_notLoaded`: a call that loads is the same call on the collection once it is loaded.
* `Reaches`: the states that calls lead to.
-/

namespace DocStore.Collection

/-- What the clock shows, and what is asked for. -/
structure Call where
  clock : Nat
  op : Operation

/-- Carries out a call. -/
def call (c : Collection) (w : World) (k : Call) : Outcome Answer :=
  c.perform { w with clock := k.clock } k.op

/-- Carries out calls in turn. -/
def calls (c : Collection) (w : World) : List Call →
    List (Except StoreError Answer) × Collection × World
  | [] => ([], c, w)
  | k :: rest =>
    let o := c.call w k
    let (answers, c, w) := calls o.collection o.world rest
    (o.answer :: answers, c, w)

/-- Each of these calls is allowed where it is made. -/
def Allowed (allowed : Collection → World → Call → Prop) (c : Collection) (w : World) :
    List Call → Prop
  | [] => True
  | k :: rest =>
    allowed c w k ∧ Allowed allowed (c.call w k).collection (c.call w k).world rest

/-- The time of a call as records store it. -/
def Call.now (k : Call) : Json := .string (Timestamp.text k.clock)

theorem Call.wellFormed_now (k : Call) : k.now.WellFormed := trivial

/-- The states that calls lead to, each call allowed where it is made. -/
inductive Reaches (allowed : Collection → World → Call → Prop) (c₀ : Collection) (w₀ : World) :
    Collection → World → Prop
  | start : Reaches allowed c₀ w₀ c₀ w₀
  | step {c : Collection} {w : World} (k : Call) (h : Reaches allowed c₀ w₀ c w)
      (hallowed : allowed c w k) :
      Reaches allowed c₀ w₀ (c.call w k).collection (c.call w k).world

/-- What a call that finds records leaves. -/
structure Called (c : Collection) (w : World) (k : Call) (records : List Record)
    (o : Outcome Answer) : Prop where
  schema : o.collection.schema = c.schema
  path : o.collection.path = c.path
  /-- The records stay, or are rewritten in memory and in the file. -/
  records : (o.collection.state = .loaded records ∧ o.world.files = w.files) ∨
    ∃ records', Rewrites c.schema k.now records (c.idSupply w) records'
        (o.collection.idSupply o.world) ∧
      o.collection.state = .loaded records' ∧ c.writeFile records' w.files = some o.world.files

variable {c : Collection} {w : World} {k : Call} {records : List Record}

theorem call_fault {e : StoreError} (h : k.op.fault? = some e) :
    c.call w k = ⟨.error e, c, { w with clock := k.clock }⟩ :=
  perform_fault h ..

/-- **A call on records in memory leaves records and file, or rewrites both.** -/
theorem call_of_loaded (hop : k.op.WellFormed) (h : c.state = .loaded records) :
    Called c w k records (c.call w k) := by
  cases hfault : k.op.fault? with
  | some e =>
    rw [call_fault hfault]
    exact ⟨rfl, rfl, Or.inl ⟨h, rfl⟩⟩
  | none =>
    rw [call, perform_of_load hfault (load_of_loaded h _)]
    have hsettled := settled c { w with clock := k.clock }
      (k.op.effect c.schema k.now records (c.idSupply w) w.random)
    refine ⟨hsettled.schema, hsettled.path, ?_⟩
    rcases hsettled.records with ⟨hstate, hfiles⟩ | ⟨records', answer, hresult, hstate, hwrite⟩
    · exact Or.inl ⟨hstate.trans h, hfiles⟩
    · refine Or.inr ⟨records', ?_, hstate, hwrite⟩
      -- the records that were decided on are those that are left
      have hrewrites := effect_rewrites hop hresult
      rw [← hsettled.ids] at hrewrites
      exact hrewrites

/-- A call that loads is the same call on the collection once it is loaded. -/
theorem call_of_notLoaded (hfault : k.op.fault? = none) (h : c.NotLoaded)
    (hstored : c.stored w.files = .ok records) :
    c.call w k =
      call { c with state := .loaded records }
        { w with files := (c.ensureFile w.files).1,
                 warnings := w.warnings ++ c.loadWarnings records } k := by
  have hload := load_of_stored h (w := { w with clock := k.clock }) hstored
  rw [call, call, perform_of_load hfault hload, perform_of_load hfault (load_of_loaded rfl _)]
  rfl

/-- A call that cannot load fails, and remembers why. -/
theorem call_of_stored_error {e : StoreError} (hfault : k.op.fault? = none) (h : c.NotLoaded)
    (hstored : c.stored w.files = .error e) :
    c.call w k =
      ⟨.error e, { c with state := .failed e },
        { w with clock := k.clock, files := (c.ensureFile w.files).1 }⟩ := by
  have hload := load_of_stored_error h (w := { w with clock := k.clock }) hstored
  rw [call, perform_of_load_error hfault hload]

/-- No call changes the schema. -/
theorem call_schema (c : Collection) (w : World) (k : Call) :
    (c.call w k).collection.schema = c.schema := by
  rw [call, perform_eq]
  split
  · rfl
  · split
    · exact load_schema ..
    · exact (settled ..).schema.trans (load_schema ..)

-- ---------------------------------------------------------------------------
-- A small collection
-- ---------------------------------------------------------------------------

namespace Sample

/-- One required field whose values are unique. -/
def schema : Schema := (Schema.empty true).add "email" ⟨.string, true, none, true, false⟩

def collection : Collection := .unloaded "mail" schema "mail.json"

/-- No files yet, and numbered ids. -/
def world : World := ⟨.fresh ["home"], 0, .numbered, .cycling [], []⟩

def saving (email : String) : Call := ⟨0, .save (.object [("email", .string email)])⟩

/-- What the first call leaves, and the second. -/
def first : Outcome Answer := collection.call world (saving "a")
def second : Outcome Answer := first.collection.call first.world (saving "b")

theorem wellFormed_schema : collection.schema.WellFormed := by
  intro e he v hv
  obtain rfl := List.mem_singleton.mp he
  simp at hv

theorem wellFormed_saving (email : String) : (saving email).op.WellFormed :=
  ⟨List.nodup_singleton _, trivial, trivial⟩

end Sample

end DocStore.Collection
