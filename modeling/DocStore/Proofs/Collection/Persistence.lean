import DocStore.Proofs.Collection.Run
/-!
# Reading back what was saved

A save writes the whole file, so a fresh handle on the same path and schema finds what the saving
handle holds. Writing has no bound on depth, though, and reading has: a record that nests as many
containers as the reader allows is accepted by a save, and the file around it is one container too
deep to be read again.

* `getAll_after_save`: what a fresh handle answers after a save.
-/

namespace DocStore.Collection

variable {c c' : Collection} {w w' : World} {records : List Record} {raw : Json} {r : Record}

/-- A save that succeeds leaves the new record at the end, in memory and in the file. -/
theorem save_eq_ok (hstate : c.state = .loaded records) (hsave : c.save w raw = ⟨.ok r, c', w'⟩) :
    (∃ ids', inserted c.schema w.now records raw (c.idSupply w) = (.ok r, ids')) ∧
      c'.state = .loaded (records ++ [r]) ∧
      c.writeFile (records ++ [r]) w.files = some w'.files := by
  rw [save, writing, load_of_loaded hstate] at hsave
  dsimp only at hsave
  cases hinserted : inserted c.schema w.now records raw (c.idSupply w) with
  | mk result ids =>
    rw [hinserted, withIdSupply_eq] at hsave
    cases result with
    | error e => simp at hsave
    | ok r' =>
      simp only [commit] at hsave
      split at hsave
      · simp at hsave
      · rename_i files hwrite
        simp only [Outcome.mk.injEq, Except.ok.injEq] at hsave
        obtain ⟨rfl, rfl, rfl⟩ := hsave
        exact ⟨⟨ids, rfl⟩, rfl, hwrite⟩

/-- **What a fresh handle answers after a save**: the records of the saving handle, as long as each
of them nests fewer containers than a text may; otherwise nothing can be read any more. -/
theorem getAll_after_save (hschema : c.schema.WellFormed) (hstate : c.state = .loaded records)
    (hrecords : RecordFile.WellFormed records) {text : String} (hraw : Json.read? text = some raw)
    (hsave : c.save w raw = ⟨.ok r, c', w'⟩) :
    c'.state = .loaded (records ++ [r]) ∧
      ((unloaded c.name c.schema c.path).perform w' .getAll).answer =
        if ∀ s ∈ records ++ [r], (Json.object s).depth < Json.maxDepth then
          .ok (.records (records ++ [r]))
        else .error .json := by
  obtain ⟨⟨ids', hinserted⟩, hstate', hwrite⟩ := save_eq_ok hstate hsave
  have hnow : w.now.WellFormed := trivial
  have hr : Json.WellFormed (.object r) :=
    wellFormed_inserted hschema hnow (Json.read?_sound hraw).1 hinserted
  have hwf : RecordFile.WellFormed (records ++ [r]) := Record.forall_append hrecords hr
  -- the file adds one container to each record, and the reader allows 127 in all
  have hdepth : (RecordFile.value (records ++ [r])).depth ≤ Json.maxDepth ↔
      ∀ s ∈ records ++ [r], (Json.object s).depth < Json.maxDepth :=
    RecordFile.depth_value_le (n := 126)
  have hstored := stored_writeFile hwf hwrite
  -- a fresh handle looks at the same path
  have hfresh : (unloaded c.name c.schema c.path).stored w'.files = c.stored w'.files :=
    stored_eq_of_path (by rfl) _
  refine ⟨hstate', ?_⟩
  rw [perform, asAnswer, reading]
  by_cases hread : (RecordFile.value (records ++ [r])).depth ≤ Json.maxDepth
  · rw [if_pos hread, ← hfresh] at hstored
    rw [if_pos (hdepth.mp hread), load_of_stored (notLoaded_unloaded ..) hstored]
    rfl
  · rw [if_neg hread, ← hfresh] at hstored
    rw [if_neg (hread ∘ hdepth.mpr), load_of_stored_error (notLoaded_unloaded ..) hstored]
    rfl

namespace Sample

/-- Lists in lists. -/
def nested : Nat → Json
  | 0 => .array []
  | n + 1 => .array [nested n]

/-- A value as deep as the reader allows. -/
def deepest : Json := .object [("list", nested 125)]

def lists : Collection :=
  { unloaded "lists" ((Schema.empty false).add "list" (.plain .array)) "lists.json" with
    state := .loaded [] }

/-- The record that is stored for it. -/
def deepestStored : Record := [("_id", .string (IdSupply.numberedId 1)), ("list", nested 125)]

theorem wellFormed_nested (n : Nat) : (nested n).WellFormed := by
  induction n with
  | zero => exact trivial
  | succ n ih => exact ⟨ih, trivial⟩

theorem depth_nested (n : Nat) : (nested n).depth = n + 1 := by
  induction n with
  | zero => rfl
  | succ n ih => rw [nested, Json.depth, Json.depthItems, Json.depthItems, ih, Nat.max_zero]

/-- The deepest value is read from its own text. -/
theorem read?_deepest : Json.read? deepest.indented = some deepest := by
  have hwf : deepest.WellFormed := ⟨List.nodup_singleton _, wellFormed_nested 125, trivial⟩
  have hdepth : deepest.depth ≤ Json.maxDepth := by
    simp [deepest, Json.depth, Json.depthMembers, depth_nested, Json.maxDepth]
  exact Json.read?_eq_some_iff.mpr (Json.isText_indented ⟨hwf, hdepth⟩)

end Sample

/-- A record that was read from a text and saved, and that cannot be read again. -/
theorem getAll_after_deepest_save :
    (Sample.lists.save Sample.world Sample.deepest).answer = .ok Sample.deepestStored ∧
      ((unloaded "lists" Sample.lists.schema "lists.json").perform
        (Sample.lists.save Sample.world Sample.deepest).world .getAll).answer = .error .json := by
  have hschema : Sample.lists.schema.WellFormed := by
    intro e he v hv
    obtain rfl := List.mem_singleton.mp he
    simp [FieldSpec.plain] at hv
  have hsaved : (Sample.lists.save Sample.world Sample.deepest).answer = .ok Sample.deepestStored :=
    rfl
  have hsave : Sample.lists.save Sample.world Sample.deepest =
      ⟨.ok Sample.deepestStored, (Sample.lists.save Sample.world Sample.deepest).collection,
        (Sample.lists.save Sample.world Sample.deepest).world⟩ := by
    rw [← hsaved]
  have hdeep : ¬ ∀ s ∈ [] ++ [Sample.deepestStored], (Json.object s).depth < Json.maxDepth := by
    simp [Sample.deepestStored, Json.depth, Json.depthMembers, Sample.depth_nested, Json.maxDepth]
  have h := (getAll_after_save hschema rfl RecordFile.wellFormed_nil Sample.read?_deepest hsave).2
  rw [if_neg hdeep] at h
  exact ⟨hsaved, h⟩

end DocStore.Collection
