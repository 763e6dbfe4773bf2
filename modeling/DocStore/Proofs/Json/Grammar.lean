import DocStore.Proofs.Json.Tokens
/-!
# The grammar of JSON

Which texts a value has, said apart from the reader: tokens in order, with blanks around the items
and members of a container, and with no more containers around each other than a limit allows. The
reader reads the texts of this grammar and no others, so a text that it refuses is none of them.

* `ScalarText`, `RowText`, `InsideText`, `MemberText`, `ValueText`: the grammar.
* `Reads`: what it is to read the texts that items have, and no others.
* `reads_scalar`, `Reads.readInside_eq_some_iff`, `Reads.member`: it holds of the parts of a reader.
* `reads_value`: it holds of the reader of values, whatever its limit.
* `read?_eq_some_iff`, `read?_eq_none_iff`: a text is read as a value exactly if it is a text of it.
-/

namespace DocStore.Json

-- ---------------------------------------------------------------------------
-- Blanks
-- ---------------------------------------------------------------------------

/-- Nothing but blanks. -/
def Blank (s : List Char) : Prop := ∀ c ∈ s, isBlank c = true

theorem blank_nil : Blank [] := by
  intro c hc
  simp at hc

/-- A line break with its indentation is blank. -/
theorem blank_newline (level : Nat) : Blank (newline level) := by
  intro c hc
  rcases List.mem_cons.mp hc with rfl | hc
  · rfl
  · rw [List.eq_of_mem_replicate hc]
    rfl

theorem skipBlanks_append {lead : List Char} (hlead : Blank lead) (s : List Char) :
    skipBlanks (lead ++ s) = skipBlanks s :=
  List.dropWhile_append_of_pos hlead

theorem skipBlanks_cons {c : Char} (h : isBlank c = false) (s : List Char) :
    skipBlanks (c :: s) = c :: s :=
  List.dropWhile_cons_of_neg (by simp [h])

theorem skipBlanks_blank {s : List Char} (h : Blank s) : skipBlanks s = [] := by
  have := skipBlanks_append h []
  rwa [List.append_nil] at this

/-- What is skipped is blank. -/
theorem exists_blank_append (s : List Char) : ∃ lead, Blank lead ∧ s = lead ++ skipBlanks s :=
  ⟨s.takeWhile isBlank, fun _ => List.mem_takeWhile_imp, List.takeWhile_append_dropWhile.symm⟩

theorem continuesNumber_of_isBlank {c : Char} (h : isBlank c = true) :
    continuesNumber c = false := by
  simp only [isBlank, Bool.or_eq_true, beq_iff_eq] at h
  rcases h with ((rfl | rfl) | rfl) | rfl <;> rfl

/-- After blanks a number has ended. -/
theorem endsNumber_append {lead : List Char} (hlead : Blank lead) {s : List Char}
    (hs : EndsNumber s) : EndsNumber (lead ++ s) := by
  cases lead with
  | nil => exact hs
  | cons c lead => exact endsNumber_cons (continuesNumber_of_isBlank (hlead c (by simp))) _

-- ---------------------------------------------------------------------------
-- Values
-- ---------------------------------------------------------------------------

/-- A value that is no container, and a text of it. -/
inductive ScalarText : Json → List Char → Prop where
  | null : ScalarText null ['n', 'u', 'l', 'l']
  | true : ScalarText (bool true) ['t', 'r', 'u', 'e']
  | false : ScalarText (bool false) ['f', 'a', 'l', 's', 'e']
  | number {n : Number} {text : List Char} (h : NumberText n text) : ScalarText (number n) text
  | string {chars text : List Char} (h : StringText chars text) :
      ScalarText (string (String.ofList chars)) ('"' :: (text ++ ['"']))

/-- A text with blanks around it. -/
def Padded (P : List Char → Prop) (s : List Char) : Prop :=
  ∃ lead text trail, s = lead ++ (text ++ trail) ∧ Blank lead ∧ Blank trail ∧ P text

section Containers

variable {α : Type}

/-- At least one item, and texts of all of them with blanks around and commas between them. -/
inductive RowText (P : α → List Char → Prop) : List α → List Char → Prop where
  | single {x : α} {text : List Char} (h : Padded (P x) text) : RowText P [x] text
  | cons {x : α} {xs : List α} {text more : List Char} (h : Padded (P x) text)
      (hmore : RowText P xs more) : RowText P (x :: xs) (text ++ ',' :: more)

/-- Items, and what stands for them between the marks of a container. -/
inductive InsideText (P : α → List Char → Prop) : List α → List Char → Prop where
  | empty {text : List Char} (h : Blank text) : InsideText P [] text
  | row {xs : List α} {text : List Char} (h : RowText P xs text) : InsideText P xs text

/-- A member, and a text of it: its name between quotes, a colon and a text of its value. -/
inductive MemberText (P : Json → List Char → Prop) : String × Json → List Char → Prop where
  | mk {chars name before behind text : List Char} {v : Json} (hname : StringText chars name)
      (hbefore : Blank before) (hbehind : Blank behind) (hvalue : P v text) :
      MemberText P (String.ofList chars, v)
        ('"' :: (name ++ '"' :: (before ++ ':' :: (behind ++ text))))

end Containers

/-- A value, and a text of it with at most this many containers around what is inside. Of several
members of one name the last one counts. -/
def ValueText : ℕ → Json → List Char → Prop
  | 0, v, s => ScalarText v s
  | limit + 1, v, s => ScalarText v s ∨
      (∃ items inside, InsideText (ValueText limit) items inside ∧
        v = array items ∧ s = '[' :: (inside ++ [']'])) ∨
      ∃ members inside, InsideText (MemberText (ValueText limit)) members inside ∧
        v = object (Fields.ofPairs members) ∧ s = '{' :: (inside ++ ['}'])

-- ---------------------------------------------------------------------------
-- Readers
-- ---------------------------------------------------------------------------

/-- The mark that closes a container: no comma, no blank, and no part of a number. -/
def IsClosing (close : Char) : Prop := close = ']' ∨ close = '}'

/-- A text opens neither with a blank nor with the end of a container. -/
def Opens (text : List Char) : Prop := ∃ c t, text = c :: t ∧ isBlank c = false ∧ ¬ IsClosing c

/-- A reader of items reads the texts that items have, and no others, whatever blanks stand before
them and whatever follows them. Such a text does not open with the end of a container. -/
structure Reads {α : Type} (item : List Char → Option (α × List Char))
    (P : α → List Char → Prop) : Prop where
  sound : ∀ {s rest x}, item s = some (x, rest) →
    ∃ lead text, s = lead ++ (text ++ rest) ∧ Blank lead ∧ P x text
  complete : ∀ {lead text rest x}, P x text → Blank lead → EndsNumber rest →
    item (lead ++ (text ++ rest)) = some (x, rest)
  opens : ∀ {x text}, P x text → Opens text

variable {α : Type} {item : List Char → Option (α × List Char)} {P : α → List Char → Prop}
  {close : Char} {xs : List α} {lead text rest : List Char}

theorem IsClosing.isBlank (h : IsClosing close) : isBlank close = false := by
  obtain rfl | rfl := h <;> rfl

theorem opens_cons {c : Char} (hblank : isBlank c = false) (hbracket : c ≠ ']') (hbrace : c ≠ '}')
    (text : List Char) : Opens (c :: text) :=
  ⟨c, text, rfl, hblank, fun h => h.elim hbracket hbrace⟩

/-- A number has ended where a container ends. -/
theorem IsClosing.endsNumber (h : IsClosing close) (rest : List Char) :
    EndsNumber (close :: rest) := by
  obtain rfl | rfl := h <;> exact endsNumber_cons rfl rest

/-- Blanks before a row belong to it. -/
theorem RowText.pad (h : RowText P xs text) (hlead : Blank lead) :
    RowText P xs (lead ++ text) := by
  have hpad : ∀ {x s}, Padded (P x) s → Padded (P x) (lead ++ s) := by
    rintro x _ ⟨first, text, trail, rfl, hfirst, htrail, htext⟩
    exact ⟨lead ++ first, text, trail, (List.append_assoc ..).symm,
      List.forall_mem_append.mpr ⟨hlead, hfirst⟩, htrail, htext⟩
  cases h with
  | single h => exact .single (hpad h)
  | cons h hmore =>
    rw [← List.append_assoc]
    exact .cons (hpad h) hmore

/-- A row is at least as long as there are commas in it. -/
theorem RowText.length_le (h : RowText P xs text) : xs.length ≤ text.length + 1 := by
  induction h with
  | single => simp
  | cons =>
    simp only [List.length_cons, List.length_append]
    omega

namespace Reads

variable (h : Reads item P)
include h

/-- **A row that is read was a row of texts**, closed by the mark. -/
theorem readRow_sound {bound : ℕ} {s : List Char}
    (hread : readRow item close bound s = some (xs, rest)) :
    ∃ text, s = text ++ close :: rest ∧ RowText P xs text := by
  induction bound generalizing s xs with
  | zero => simp [readRow] at hread
  | succ bound ih =>
    rw [readRow] at hread
    split at hread
    · simp at hread
    · rename_i x after hx
      obtain ⟨lead, text, rfl, hlead, htext⟩ := h.sound hx
      obtain ⟨trail, htrail, hafter⟩ := exists_blank_append after
      -- the blanks behind an item belong to it, and a comma or the mark comes next
      have hpadded : Padded (P x) (lead ++ (text ++ trail)) :=
        ⟨lead, text, trail, rfl, hlead, htrail, htext⟩
      split at hread
      · rename_i more hcomma
        obtain ⟨ys, hys, rfl⟩ := of_mapped_eq_some (x :: ·) hread
        obtain ⟨row, rfl, hrow⟩ := ih hys
        refine ⟨_, ?_, .cons hpadded hrow⟩
        rw [hafter, hcomma]
        simp
      · rename_i c more _ hc
        split at hread
        · rename_i hclose
          simp only [Option.some.injEq, Prod.mk.injEq] at hread
          obtain ⟨rfl, rfl⟩ := hread
          refine ⟨_, ?_, .single hpadded⟩
          rw [hafter, hc, hclose]
          simp
        · simp at hread
      · simp at hread

/-- **A row of texts is read**, if the bound leaves room for its items. -/
theorem readRow_text (hclose : IsClosing close) (htext : RowText P xs text) {bound : ℕ}
    (hbound : xs.length ≤ bound) (rest : List Char) :
    readRow item close bound (text ++ close :: rest) = some (xs, rest) := by
  induction htext generalizing bound with
  | single hpadded =>
    obtain ⟨lead, text, trail, rfl, hlead, htrail, htext⟩ := hpadded
    obtain ⟨bound, rfl⟩ := Nat.exists_eq_add_of_le' hbound
    -- what follows the last item is blank up to the mark, so a number ends there
    have hend : EndsNumber (trail ++ close :: rest) :=
      endsNumber_append htrail (hclose.endsNumber rest)
    simp only [List.append_assoc]
    rw [List.length_singleton, readRow, h.complete htext hlead hend]
    simp only [skipBlanks_append htrail, skipBlanks_cons hclose.isBlank]
    obtain rfl | rfl := hclose <;> rfl
  | @cons x xs _ more hpadded hmore ih =>
    obtain ⟨lead, text, trail, rfl, hlead, htrail, htext⟩ := hpadded
    obtain ⟨bound, rfl⟩ := Nat.exists_eq_add_of_le' (Nat.le_trans (Nat.le_add_left 1 _) hbound)
    -- and what follows any other item is blank up to a comma
    have hend : EndsNumber (trail ++ ',' :: (more ++ close :: rest)) :=
      endsNumber_append htrail (endsNumber_cons rfl _)
    simp only [List.append_assoc, List.cons_append]
    rw [readRow, h.complete htext hlead hend]
    simp only [skipBlanks_append htrail, skipBlanks_cons (show isBlank ',' = false from rfl),
      ih (Nat.le_of_succ_le_succ hbound), Option.map_some]

/-- A row opens with its first item, behind blanks that may be left out. -/
theorem exists_opening (htext : RowText P xs text) : ∃ lead c t, text = lead ++ c :: t ∧
    Blank lead ∧ isBlank c = false ∧ ¬ IsClosing c ∧ RowText P xs (c :: t) := by
  -- the first item opens behind its blanks
  have hfirst : ∀ {x s}, Padded (P x) s → ∃ lead c t, s = lead ++ c :: t ∧ Blank lead ∧
      isBlank c = false ∧ ¬ IsClosing c ∧ Padded (P x) (c :: t) := by
    rintro x _ ⟨lead, text, trail, rfl, hlead, htrail, htext⟩
    obtain ⟨c, t, rfl, hblank, hc⟩ := h.opens htext
    exact ⟨lead, c, t ++ trail, rfl, hlead, hblank, hc, [], c :: t, trail, rfl, blank_nil, htrail,
      htext⟩
  cases htext with
  | single hpadded =>
    obtain ⟨lead, c, t, rfl, hlead, hblank, hc, hpadded⟩ := hfirst hpadded
    exact ⟨lead, c, t, rfl, hlead, hblank, hc, .single hpadded⟩
  | @cons _ _ _ more hpadded hmore =>
    obtain ⟨lead, c, t, rfl, hlead, hblank, hc, hpadded⟩ := hfirst hpadded
    exact ⟨lead, c, t ++ ',' :: more, by simp, hlead, hblank, hc, .cons hpadded hmore⟩

/-- **What stands in a container** is what is read up to its end. -/
theorem readInside_eq_some_iff (hclose : IsClosing close) {s : List Char} :
    readInside item close s = some (xs, rest) ↔
      ∃ text, s = text ++ close :: rest ∧ InsideText P xs text := by
  constructor
  · intro hread
    obtain ⟨lead, hlead, hs⟩ := exists_blank_append s
    unfold readInside at hread
    split at hread
    · simp at hread
    · rename_i c t hskip
      rw [hskip] at hs
      split at hread
      · rename_i hc
        simp only [Option.some.injEq, Prod.mk.injEq] at hread
        obtain ⟨rfl, rfl⟩ := hread
        exact ⟨lead, hc ▸ hs, .empty hlead⟩
      · obtain ⟨text, htext, hrow⟩ := h.readRow_sound hread
        rw [htext] at hs
        exact ⟨lead ++ text, by rw [hs, List.append_assoc], .row (hrow.pad hlead)⟩
  · rintro ⟨text, rfl, hinside⟩
    cases hinside with
    | empty hblank =>
      rw [readInside, skipBlanks_append hblank, skipBlanks_cons hclose.isBlank]
      exact if_pos rfl
    | row hrow =>
      obtain ⟨lead, c, t, rfl, hlead, hblank, hc, hrow⟩ := h.exists_opening hrow
      -- an item does not open with the mark, so the container is not empty
      have hne : c ≠ close := by
        rintro rfl
        exact hc hclose
      have hbound : xs.length ≤ (c :: (t ++ close :: rest)).length := by
        have := hrow.length_le
        simp only [List.length_cons, List.length_append] at this ⊢
        omega
      rw [List.append_assoc, List.cons_append, readInside, skipBlanks_append hlead,
        skipBlanks_cons hblank]
      simp only [hne, if_false]
      exact h.readRow_text hclose hrow hbound rest

end Reads

/-- A reader of values makes a reader of members. -/
theorem Reads.member {value : List Char → Option (Json × List Char)}
    {P : Json → List Char → Prop} (h : Reads value P) :
    Reads (readMember value) (MemberText P) where
  sound {s rest m} hread := by
    obtain ⟨lead, hlead, hs⟩ := exists_blank_append s
    unfold readMember at hread
    split at hread
    · rename_i t hopen
      split at hread
      · simp at hread
      · rename_i chars after hname
        split at hread
        · rename_i more hcolon
          -- a name, blanks, a colon, and the rest as the reader of values has it
          obtain ⟨v, hv, rfl⟩ := of_mapped_eq_some (fun v => (String.ofList chars, v)) hread
          obtain ⟨name, rfl, hchars⟩ := readQuoted_sound hname
          obtain ⟨before, hbefore, hafter⟩ := exists_blank_append after
          obtain ⟨behind, text, rfl, hbehind, htext⟩ := h.sound hv
          refine ⟨lead, _, ?_, hlead, .mk hchars hbefore hbehind htext⟩
          rw [hs, hopen, hafter, hcolon]
          simp
        · simp at hread
    · simp at hread
  complete {lead _ rest m} hm hlead hrest := by
    cases hm with
    | mk hname hbefore hbehind hvalue =>
      simp only [List.cons_append, List.append_assoc]
      rw [readMember, skipBlanks_append hlead, skipBlanks_cons (by rfl)]
      simp only [readQuoted_text hname, skipBlanks_append hbefore,
        skipBlanks_cons (show isBlank ':' = false from rfl), h.complete hvalue hbehind hrest,
        Option.map_some]
  opens hm := by
    cases hm with
    | mk => exact opens_cons rfl (by decide) (by decide) _

-- ---------------------------------------------------------------------------
-- Scalars
-- ---------------------------------------------------------------------------

/-- A number opens with a digit or a sign. -/
theorem head_of_readNumber {s : List Char} {r : Number × List Char} (h : readNumber s = some r) :
    ∃ c t, s = c :: t ∧ (c = '-' ∨ c.isDigit = true) := by
  cases s with
  | nil => simp [readNumber, readUnsigned, readDigits] at h
  | cons c t =>
    refine ⟨c, t, rfl, ?_⟩
    by_contra hc
    rw [not_or, Bool.not_eq_true] at hc
    have htake : List.takeWhile Char.isDigit (c :: t) = [] :=
      List.takeWhile_cons_of_neg (by simp [hc.2])
    unfold readNumber at h
    split at h
    · rename_i heq
      exact hc.1 (List.cons.inj heq).1
    · simp [readUnsigned, readDigits, htake] at h

/-- A number does not start with a blank. -/
theorem isBlank_of_isDigit {c : Char} (h : c = '-' ∨ c.isDigit = true) : isBlank c = false := by
  rw [Bool.eq_false_iff]
  intro hb
  simp only [isBlank, Bool.or_eq_true, beq_iff_eq] at hb
  rcases hb with ((rfl | rfl) | rfl) | rfl <;> revert h <;> decide

/-- A number is read as a scalar, since no word and no quote starts as a number does. -/
theorem readScalar_number {s rest : List Char} {n : Number} (h : readNumber s = some (n, rest)) :
    readScalar s = some (.number n, rest) := by
  obtain ⟨c, t, rfl, hc⟩ := head_of_readNumber h
  -- none of the other cases starts with a minus sign or a digit
  have hopen : ∀ {d s'}, c :: t = d :: s' → d = '-' ∨ d.isDigit = true :=
    fun heq => (List.cons.inj heq).1 ▸ hc
  unfold readScalar
  split
  · rename_i heq
    exact absurd (hopen heq) (by decide)
  · rename_i heq
    exact absurd (hopen heq) (by decide)
  · rename_i heq
    exact absurd (hopen heq) (by decide)
  · rename_i heq
    exact absurd (hopen heq) (by decide)
  · rw [h]
    rfl

/-- The text of a scalar is read. -/
theorem readScalar_text {v : Json} {text rest : List Char} (h : ScalarText v text)
    (hrest : EndsNumber rest) : readScalar (text ++ rest) = some (v, rest) := by
  cases h with
  | null => rfl
  | true => rfl
  | false => rfl
  | number hn => exact readScalar_number (readNumber_text hn hrest)
  | string hs =>
    rw [List.cons_append, List.append_assoc, List.singleton_append]
    show (readQuoted _).map _ = _
    rw [readQuoted_text hs]
    rfl

/-- What is read as a scalar was a text of it. -/
theorem readScalar_sound_text {s rest : List Char} {v : Json}
    (h : readScalar s = some (v, rest)) : ∃ text, s = text ++ rest ∧ ScalarText v text := by
  unfold readScalar at h
  split at h
  · simp only [Option.some.injEq, Prod.mk.injEq] at h
    obtain ⟨rfl, rfl⟩ := h
    exact ⟨_, rfl, .null⟩
  · simp only [Option.some.injEq, Prod.mk.injEq] at h
    obtain ⟨rfl, rfl⟩ := h
    exact ⟨_, rfl, .true⟩
  · simp only [Option.some.injEq, Prod.mk.injEq] at h
    obtain ⟨rfl, rfl⟩ := h
    exact ⟨_, rfl, .false⟩
  · obtain ⟨chars, hchars, rfl⟩ :=
      of_mapped_eq_some (fun chars => string (String.ofList chars)) h
    obtain ⟨text, rfl, htext⟩ := readQuoted_sound hchars
    exact ⟨'"' :: (text ++ ['"']), by simp, .string htext⟩
  · obtain ⟨n, hn, rfl⟩ := of_mapped_eq_some Json.number h
    obtain ⟨text, rfl, htext⟩ := readNumber_sound hn
    exact ⟨text, rfl, .number htext⟩

/-- What opens with a character that is no blank is read behind blanks as it stands. -/
theorem skipBlanks_opening {lead text : List Char} (hlead : Blank lead) (h : Opens text)
    (rest : List Char) : skipBlanks (lead ++ (text ++ rest)) = text ++ rest := by
  obtain ⟨c, t, rfl, hblank, -⟩ := h
  rw [skipBlanks_append hlead, List.cons_append, skipBlanks_cons hblank]

/-- A scalar does not start with a blank or with the end of a container. -/
theorem ScalarText.opens {v : Json} {text : List Char} (h : ScalarText v text) : Opens text := by
  cases h with
  | null => exact opens_cons rfl (by decide) (by decide) _
  | true => exact opens_cons rfl (by decide) (by decide) _
  | false => exact opens_cons rfl (by decide) (by decide) _
  | string => exact opens_cons rfl (by decide) (by decide) _
  | number hn =>
    have hread := readNumber_text hn endsNumber_nil
    rw [List.append_nil] at hread
    obtain ⟨c, t, rfl, hc⟩ := head_of_readNumber hread
    refine opens_cons (isBlank_of_isDigit hc) ?_ ?_ t
    · rintro rfl
      exact absurd hc (by decide)
    · rintro rfl
      exact absurd hc (by decide)

/-- **The reader of scalars reads their texts and no others.** -/
theorem reads_scalar : Reads (fun s => readScalar (skipBlanks s)) ScalarText where
  sound {s rest v} hread := by
    obtain ⟨lead, hlead, hs⟩ := exists_blank_append s
    obtain ⟨text, htext, h⟩ := readScalar_sound_text hread
    exact ⟨lead, text, by rw [hs, htext], hlead, h⟩
  complete h hlead hrest := by
    rw [skipBlanks_opening hlead h.opens]
    exact readScalar_text h hrest
  opens h := h.opens

-- ---------------------------------------------------------------------------
-- Values
-- ---------------------------------------------------------------------------

theorem ValueText.of_scalar {v : Json} {text : List Char} (h : ScalarText v text) :
    ∀ limit, ValueText limit v text
  | 0 => h
  | _ + 1 => Or.inl h

/-- **The reader of values reads the texts of values, and no others.** -/
theorem reads_value (limit : ℕ) : Reads (readValue limit) (ValueText limit) := by
  induction limit with
  | zero => exact reads_scalar
  | succ limit ih =>
    refine ⟨?_, ?_, ?_⟩
    · intro s rest v hread
      obtain ⟨lead, hlead, hs⟩ := exists_blank_append s
      rw [readValue] at hread
      split at hread
      · -- a bracket or a brace: the parts are read with one container less
        rename_i t hopen
        obtain ⟨items, hitems, rfl⟩ := of_mapped_eq_some array hread
        obtain ⟨inside, rfl, hinside⟩ := (ih.readInside_eq_some_iff (Or.inl rfl)).mp hitems
        refine ⟨lead, '[' :: (inside ++ [']']), ?_, hlead,
          Or.inr (Or.inl ⟨items, inside, hinside, rfl, rfl⟩)⟩
        rw [hs, hopen]
        simp
      · rename_i t hopen
        obtain ⟨members, hmembers, rfl⟩ :=
          of_mapped_eq_some (fun members => object (Fields.ofPairs members)) hread
        obtain ⟨inside, rfl, hinside⟩ :=
          (ih.member.readInside_eq_some_iff (Or.inr rfl)).mp hmembers
        refine ⟨lead, '{' :: (inside ++ ['}']), ?_, hlead,
          Or.inr (Or.inr ⟨members, inside, hinside, rfl, rfl⟩)⟩
        rw [hs, hopen]
        simp
      · obtain ⟨lead, text, rfl, hlead, h⟩ := reads_scalar.sound hread
        exact ⟨lead, text, rfl, hlead, Or.inl h⟩
    · intro lead text rest v h hlead hrest
      obtain h | ⟨items, inside, hinside, rfl, rfl⟩ | ⟨members, inside, hinside, rfl, rfl⟩ := h
      · -- a scalar is read without room for any container
        have hzero : readValue 0 (lead ++ (text ++ rest)) = some (v, rest) :=
          reads_scalar.complete h hlead hrest
        exact readValue_mono (Nat.zero_le _) hzero
      · have hread : readInside (readValue limit) ']' (inside ++ ']' :: rest) =
            some (items, rest) := (ih.readInside_eq_some_iff (Or.inl rfl)).mpr ⟨_, rfl, hinside⟩
        simp only [List.cons_append, List.append_assoc, List.nil_append]
        rw [readValue, skipBlanks_append hlead, skipBlanks_cons (by rfl)]
        simp only [hread, Option.map_some]
      · have hread : readInside (readMember (readValue limit)) '}' (inside ++ '}' :: rest) =
            some (members, rest) :=
          (ih.member.readInside_eq_some_iff (Or.inr rfl)).mpr ⟨_, rfl, hinside⟩
        simp only [List.cons_append, List.append_assoc, List.nil_append]
        rw [readValue, skipBlanks_append hlead, skipBlanks_cons (by rfl)]
        simp only [hread, Option.map_some]
    · intro v text h
      obtain h | ⟨items, inside, -, -, rfl⟩ | ⟨members, inside, -, -, rfl⟩ := h
      · exact h.opens
      · exact opens_cons rfl (by decide) (by decide) _
      · exact opens_cons rfl (by decide) (by decide) _

-- ---------------------------------------------------------------------------
-- Whole texts
-- ---------------------------------------------------------------------------

/-- A text is read as a value exactly if it is a text of it with blanks around. -/
theorem readWithin?_eq_some_iff {limit : ℕ} {s : List Char} {v : Json} :
    readWithin? limit s = some v ↔ Padded (ValueText limit v) s := by
  constructor
  · intro h
    unfold readWithin? at h
    split at h
    · rename_i v' rest hread
      split at h
      · rename_i hempty
        obtain rfl := Option.some.inj h
        obtain ⟨lead, text, rfl, hlead, htext⟩ := (reads_value limit).sound hread
        -- nothing but blanks may be left behind the value
        obtain ⟨trail, htrail, hrest⟩ := exists_blank_append rest
        rw [List.isEmpty_iff.mp hempty, List.append_nil] at hrest
        exact ⟨lead, text, rest, rfl, hlead, hrest ▸ htrail, htext⟩
      · simp at h
    · simp at h
  · rintro ⟨lead, text, trail, rfl, hlead, htrail, htext⟩
    have hend : EndsNumber trail := by
      simpa using endsNumber_append htrail endsNumber_nil
    rw [readWithin?, (reads_value limit).complete htext hlead hend]
    simp only [skipBlanks_blank htrail, List.isEmpty_nil, if_true]

/-- A value, and a JSON text of it, with blanks around and not too deep to be read. -/
def IsText (v : Json) (text : String) : Prop := Padded (ValueText maxDepth v) text.toList

/-- **A text is read as a value exactly if it is a JSON text of it.** -/
theorem read?_eq_some_iff {text : String} {v : Json} : read? text = some v ↔ IsText v text :=
  readWithin?_eq_some_iff

/-- **A text is refused exactly if it is a JSON text of no value.** -/
theorem read?_eq_none_iff {text : String} : read? text = none ↔ ∀ v, ¬ IsText v text := by
  rw [Option.eq_none_iff_forall_ne_some]
  exact forall_congr' fun v => not_congr read?_eq_some_iff

end DocStore.Json
