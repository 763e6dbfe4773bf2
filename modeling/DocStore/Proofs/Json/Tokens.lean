import Mathlib.Data.List.TakeWhile
import DocStore.Proofs.Json.NumberText
import DocStore.Proofs.Json.Reading
import DocStore.Proofs.Json.StringText
/-!
# Texts of strings and numbers

Which texts a string and a number have, said apart from the reader. The reader of these tokens reads
such texts and no others; a number is read whole, unless what follows goes on with it.

* `StringText`: the characters of a string and what stands for them between quotes.
* `readQuoted_sound`, `readQuoted_text`: what is read up to a closing quote.
* `NumberText`: a number and a text of it, with its parts `FractionText` and `ExponentText`.
* `readNumber_sound`, `readNumber_text`: what is read as a number.
-/

namespace DocStore.Json

-- ---------------------------------------------------------------------------
-- Strings
-- ---------------------------------------------------------------------------

/-- The characters of a string, and what may stand for them between quotes: a character for itself,
or escaped by a letter, by its number, or by the two halves of a surrogate pair. -/
inductive StringText : List Char → List Char → Prop where
  | nil : StringText [] []
  | plain {c : Char} {chars text : List Char} (hquote : c ≠ '"') (hslash : c ≠ '\\')
      (hcontrol : ¬ c.toNat < 32) (h : StringText chars text) :
      StringText (c :: chars) (c :: text)
  | letter {c e : Char} {chars text : List Char} (he : shortEscape? c = some e)
      (h : StringText chars text) : StringText (e :: chars) ('\\' :: c :: text)
  | number {a b c d : Char} {n : Nat} {chars text : List Char} (hn : hexValue4? a b c d = some n)
      (hfirst : ¬ (0xD800 ≤ n ∧ n < 0xDC00)) (hsecond : ¬ (0xDC00 ≤ n ∧ n < 0xE000))
      (h : StringText chars text) :
      StringText (Char.ofNat n :: chars) ('\\' :: 'u' :: a :: b :: c :: d :: text)
  | pair {a b c d e f g i : Char} {n m : Nat} {chars text : List Char}
      (hn : hexValue4? a b c d = some n) (hfirst : 0xD800 ≤ n ∧ n < 0xDC00)
      (hm : hexValue4? e f g i = some m) (hsecond : 0xDC00 ≤ m ∧ m < 0xE000)
      (h : StringText chars text) :
      StringText (Char.ofNat (0x10000 + (n - 0xD800) * 0x400 + (m - 0xDC00)) :: chars)
        ('\\' :: 'u' :: a :: b :: c :: d :: '\\' :: 'u' :: e :: f :: g :: i :: text)

theorem of_prepend_eq_some {c : Char} {r : Option (List Char × List Char)} {chars rest : List Char}
    (h : prepend c r = some (chars, rest)) : ∃ more, r = some (more, rest) ∧ c :: more = chars :=
  of_mapped_eq_some (c :: ·) h

/-- What is read up to a closing quote is the text of a string. -/
theorem readQuoted_sound {s chars rest : List Char} (h : readQuoted s = some (chars, rest)) :
    ∃ text, s = text ++ '"' :: rest ∧ StringText chars text := by
  fun_induction readQuoted s generalizing chars with
  | case1 => simp at h
  | case2 =>
    simp only [Option.some.injEq, Prod.mk.injEq] at h
    obtain ⟨rfl, rfl⟩ := h
    exact ⟨[], rfl, .nil⟩
  | case3 => simp at h
  | case4 => simp at h
  -- two halves of a surrogate pair make one character
  | case5 a b c d n hn hfirst e f g i _ m hm hsecond ih =>
    obtain ⟨more, hr, rfl⟩ := of_prepend_eq_some h
    obtain ⟨text, rfl, htext⟩ := ih hr
    exact ⟨_, rfl, .pair hn hfirst hm hsecond htext⟩
  | case6 => simp at h
  | case7 => simp at h
  | case8 => simp at h
  | case9 a b c d _ n hn hfirst hsecond ih =>
    obtain ⟨more, hr, rfl⟩ := of_prepend_eq_some h
    obtain ⟨text, rfl, htext⟩ := ih hr
    exact ⟨_, rfl, .number hn hfirst hsecond htext⟩
  | case10 c _ _ e he ih =>
    obtain ⟨more, hr, rfl⟩ := of_prepend_eq_some h
    obtain ⟨text, rfl, htext⟩ := ih hr
    exact ⟨_, rfl, .letter he htext⟩
  | case11 => simp at h
  | case12 => simp at h
  | case13 c s hquote _ hslash hcontrol ih =>
    obtain ⟨more, hr, rfl⟩ := of_prepend_eq_some h
    obtain ⟨text, rfl, htext⟩ := ih hr
    refine ⟨_, rfl, .plain hquote ?_ hcontrol htext⟩
    -- a backslash is followed by something, so it was read as an escape
    rintro rfl
    cases text with
    | nil => exact hslash _ _ rfl rfl
    | cons d text => exact hslash _ _ rfl rfl

/-- A letter that is an escape is no `u`. -/
theorem readQuoted_letter {c e : Char} (h : shortEscape? c = some e) (rest : List Char) :
    readQuoted ('\\' :: c :: rest) = prepend e (readQuoted rest) := by
  rw [readQuoted.eq_def]
  split
  · rename_i heq
    exact absurd heq (by simp)
  · rename_i heq
    exact absurd (List.cons.inj heq).1 (by decide)
  · rename_i heq
    obtain ⟨rfl, -⟩ := List.cons.inj (List.cons.inj heq).2
    exact absurd h (by simp [shortEscape?])
  · rename_i heq
    obtain ⟨rfl, rfl⟩ := List.cons.inj (List.cons.inj heq).2
    rw [h]
  · rename_i hslash heq
    obtain ⟨rfl, rfl⟩ := List.cons.inj heq
    exact absurd rfl (hslash _ _ rfl)

/-- The text of a string is read up to the closing quote. -/
theorem readQuoted_text {chars text : List Char} (h : StringText chars text) (rest : List Char) :
    readQuoted (text ++ '"' :: rest) = some (chars, rest) := by
  induction h with
  | nil => rfl
  | plain hquote hslash hcontrol _ ih =>
    rw [List.cons_append, readQuoted_plain hquote hslash hcontrol, ih]
    rfl
  | letter he _ ih =>
    rw [List.cons_append, List.cons_append, readQuoted_letter he, ih]
    rfl
  | number hn hfirst hsecond _ ih =>
    simp only [List.cons_append]
    rw [readQuoted, hn]
    simp only [hfirst, hsecond, if_false, ih]
    rfl
  | pair hn hfirst hm hsecond _ ih =>
    simp only [List.cons_append]
    rw [readQuoted, hn]
    simp only [hfirst, hm, hsecond, and_self, if_true, ih]
    rfl

-- ---------------------------------------------------------------------------
-- Numbers
-- ---------------------------------------------------------------------------

/-- The digits of a fraction, and its text: nothing, or a point and at least one digit. -/
inductive FractionText : List Char → List Char → Prop where
  | none : FractionText [] []
  | some {digits : List Char} (hne : digits ≠ []) (hdigits : ∀ c ∈ digits, c.isDigit = true) :
      FractionText digits ('.' :: digits)

/-- The signs of an exponent, and whether they make it negative. -/
def exponentSigns : List (List Char × Bool) := [(['-'], true), (['+'], false), ([], false)]

/-- The value of an exponent, and its text: nothing, or a mark, a sign that may be left out, and at
least one digit. -/
inductive ExponentText : Option Int → List Char → Prop where
  | none : ExponentText none []
  | some {mark : Char} {sign digits : List Char} {negative : Bool} (hmark : mark = 'e' ∨ mark = 'E')
      (hsign : (sign, negative) ∈ exponentSigns)
      (hne : digits ≠ []) (hdigits : ∀ c ∈ digits, c.isDigit = true) :
      ExponentText (some (if negative then -(digitsValue digits : Int) else digitsValue digits))
        (mark :: (sign ++ digits))

/-- A number, and a text of it: a sign, digits without a zero in front of others, a fraction and an
exponent. -/
inductive NumberText : Number → List Char → Prop where
  | mk {negative : Bool} {whole digits fraction exponent : List Char} {e : Option Int} {n : Number}
      (hwhole : IsWhole whole) (hfraction : FractionText digits fraction)
      (hexponent : ExponentText e exponent) (hn : numberOf? negative whole digits e = some n) :
      NumberText n ((if negative then ['-'] else []) ++ (whole ++ (fraction ++ exponent)))

/-- Digits that are read were there, and were all digits. -/
theorem readDigits_sound {s digits rest : List Char} (h : readDigits s = some (digits, rest)) :
    s = digits ++ rest ∧ digits ≠ [] ∧ ∀ c ∈ digits, c.isDigit = true := by
  rw [readDigits] at h
  split at h
  · simp at h
  · rename_i hne
    simp only [Option.some.injEq, Prod.mk.injEq] at h
    obtain ⟨rfl, rfl⟩ := h
    exact ⟨List.takeWhile_append_dropWhile.symm, hne, fun c hc => List.mem_takeWhile_imp hc⟩

/-- A fraction that is read was a text of it. -/
theorem readFraction_sound {s digits rest : List Char}
    (h : readFraction s = some (digits, rest)) :
    ∃ text, s = text ++ rest ∧ FractionText digits text := by
  unfold readFraction at h
  split at h
  · obtain ⟨rfl, hne, hdigits⟩ := readDigits_sound h
    exact ⟨_, rfl, .some hne hdigits⟩
  · simp only [Option.some.injEq, Prod.mk.injEq] at h
    obtain ⟨rfl, rfl⟩ := h
    exact ⟨[], rfl, .none⟩

/-- Behind its mark and its sign an exponent is a row of digits. -/
theorem readExponent_marked {mark : Char} (hmark : mark = 'e' ∨ mark = 'E') {sign s : List Char}
    {negative : Bool} (hsign : (sign, negative) ∈ exponentSigns)
    (hs : sign = [] → ∀ c ∈ s.head?, c ≠ '-' ∧ c ≠ '+') :
    readExponent (mark :: (sign ++ s)) = (readDigits s).map fun (digits, rest) =>
      (some (if negative then -(digitsValue digits : Int) else digitsValue digits), rest) := by
  simp only [exponentSigns, List.mem_cons, Prod.mk.injEq, List.not_mem_nil, or_false] at hsign
  obtain ⟨rfl, rfl⟩ | ⟨rfl, rfl⟩ | ⟨rfl, rfl⟩ := hsign
  · obtain rfl | rfl := hmark <;> rfl
  · obtain rfl | rfl := hmark <;> rfl
  · cases s with
    | nil => obtain rfl | rfl := hmark <;> rfl
    | cons c s =>
      obtain ⟨hminus, hplus⟩ := hs rfl c rfl
      obtain rfl | rfl := hmark <;> simp [readExponent, hminus, hplus]

/-- Every text opens with the sign of an exponent. -/
theorem exists_exponentSign (s : List Char) : ∃ sign negative rest, s = sign ++ rest ∧
    (sign, negative) ∈ exponentSigns ∧ (sign = [] → ∀ c ∈ rest.head?, c ≠ '-' ∧ c ≠ '+') := by
  cases s with
  | nil => exact ⟨[], false, [], rfl, by simp [exponentSigns], by simp⟩
  | cons c s =>
    by_cases hminus : c = '-'
    · exact ⟨['-'], true, s, by rw [hminus]; rfl, by simp [exponentSigns], by simp⟩
    by_cases hplus : c = '+'
    · exact ⟨['+'], false, s, by rw [hplus]; rfl, by simp [exponentSigns], by simp⟩
    · exact ⟨[], false, c :: s, rfl, by simp [exponentSigns], by simp [hminus, hplus]⟩

/-- An exponent that is read was a text of it. -/
theorem readExponent_sound {s rest : List Char} {e : Option Int}
    (h : readExponent s = some (e, rest)) : ∃ text, s = text ++ rest ∧ ExponentText e text := by
  by_cases hmarked : ∃ mark t, s = mark :: t ∧ (mark = 'e' ∨ mark = 'E')
  · obtain ⟨mark, t, rfl, hmark⟩ := hmarked
    obtain ⟨sign, negative, more, rfl, hsign, hmore⟩ := exists_exponentSign t
    rw [readExponent_marked hmark hsign hmore] at h
    obtain ⟨digits, hdigits, rfl⟩ := of_mapped_eq_some (fun digits =>
      some (if negative then -(digitsValue digits : Int) else digitsValue digits)) h
    obtain ⟨rfl, hne, hall⟩ := readDigits_sound hdigits
    exact ⟨_, by simp, .some hmark hsign hne hall⟩
  · have hnone : readExponent s = some (none, s) := by
      apply readExponent_none
      intro c hc
      cases s with
      | nil => simp at hc
      | cons d t =>
        obtain rfl : d = c := Option.some.inj hc
        exact ⟨fun he => hmarked ⟨d, t, rfl, Or.inl he⟩, fun hE => hmarked ⟨d, t, rfl, Or.inr hE⟩⟩
    rw [hnone] at h
    simp only [Option.some.injEq, Prod.mk.injEq] at h
    obtain ⟨rfl, rfl⟩ := h
    exact ⟨[], rfl, .none⟩

/-- A number that is read without its sign was a text of it. -/
theorem readUnsigned_sound {negative : Bool} {s rest : List Char} {n : Number}
    (h : readUnsigned negative s = some (n, rest)) :
    ∃ text, s = text ++ rest ∧ NumberText n ((if negative then ['-'] else []) ++ text) := by
  obtain ⟨whole, s₁, digits, s₂, e, hread, hlead, hdigits, he, hn⟩ := readUnsigned_eq_some h
  obtain ⟨rfl, hne, hall⟩ := readDigits_sound hread
  obtain ⟨fraction, rfl, hfraction⟩ := readFraction_sound hdigits
  obtain ⟨exponent, rfl, hexponent⟩ := readExponent_sound he
  exact ⟨whole ++ (fraction ++ exponent), by simp, .mk ⟨hne, hall, hlead⟩ hfraction hexponent hn⟩

/-- What is read as a number is a text of it. -/
theorem readNumber_sound {s rest : List Char} {n : Number} (h : readNumber s = some (n, rest)) :
    ∃ text, s = text ++ rest ∧ NumberText n text := by
  unfold readNumber at h
  split at h
  · obtain ⟨text, rfl, htext⟩ := readUnsigned_sound h
    exact ⟨'-' :: text, rfl, htext⟩
  · obtain ⟨text, rfl, htext⟩ := readUnsigned_sound h
    exact ⟨text, rfl, htext⟩

-- What follows a number decides where its parts end, so each part is read with what follows it.

/-- What follows a fraction goes on neither with its digits nor with a point. -/
theorem readFraction_text {digits text s : List Char} (h : FractionText digits text)
    (hs : ∀ c ∈ s.head?, c.isDigit = false ∧ c ≠ '.') :
    readFraction (text ++ s) = some (digits, s) := by
  cases h with
  | none => exact readFraction_none fun c hc => (hs c hc).2
  | some hne hdigits => exact readDigits_append hne hdigits fun c hc => (hs c hc).1

/-- An exponent is read from its text, as long as the number ends behind it. -/
theorem readExponent_text {e : Option Int} {text rest : List Char} (h : ExponentText e text)
    (hrest : EndsNumber rest) : readExponent (text ++ rest) = some (e, rest) := by
  cases h with
  | none => exact hrest.readExponent
  | @some mark sign digits negative hmark hsign hne hdigits =>
    -- without a sign the digits come next, and none of them is taken for a sign
    have hstart : sign = [] → ∀ c ∈ (digits ++ rest).head?, c ≠ '-' ∧ c ≠ '+' := by
      intro _ c hc
      rw [List.head?_append_of_ne_nil _ hne] at hc
      have hdigit := hdigits c (List.mem_of_mem_head? hc)
      exact ⟨by rintro rfl; exact absurd hdigit (by decide),
        by rintro rfl; exact absurd hdigit (by decide)⟩
    rw [List.cons_append, List.append_assoc, readExponent_marked hmark hsign hstart,
      readDigits_append hne hdigits hrest.isDigit]
    rfl

/-- An exponent opens with its mark. -/
theorem ExponentText.head {e : Option Int} {text rest : List Char} (h : ExponentText e text)
    (hrest : EndsNumber rest) : ∀ c ∈ (text ++ rest).head?, c.isDigit = false ∧ c ≠ '.' := by
  intro c hc
  cases h with
  | none =>
    refine ⟨hrest.isDigit c hc, ?_⟩
    rintro rfl
    exact absurd (hrest '.' hc) (by decide)
  | some hmark =>
    obtain rfl := Option.some.inj hc
    obtain rfl | rfl := hmark <;> decide

/-- A text of a number is read as it, whatever follows, unless that goes on with the number. -/
theorem readNumber_text {n : Number} {text rest : List Char} (h : NumberText n text)
    (hrest : EndsNumber rest) : readNumber (text ++ rest) = some (n, rest) := by
  obtain ⟨hwhole, hfraction, hexponent, hn⟩ := h
  rename_i negative whole digits fraction exponent e
  have hhead := hexponent.head hrest
  have hstart : ∀ c ∈ (fraction ++ (exponent ++ rest)).head?, c.isDigit = false := by
    intro c hc
    cases hfraction with
    | none => exact (hhead c hc).1
    | some => exact Option.some.inj hc ▸ rfl
  -- the parts are read one behind the other, each up to where the next one starts
  have hread : ∀ negative, readUnsigned negative (whole ++ (fraction ++ (exponent ++ rest))) =
      (numberOf? negative whole digits e).map fun n => (n, rest) := fun negative =>
    readUnsigned_eq hwhole hstart (readFraction_text hfraction hhead)
      (readExponent_text hexponent hrest)
  simp only [List.append_assoc]
  cases negative with
  | true =>
    rw [if_pos rfl, List.singleton_append, readNumber_minus, hread, hn]
    rfl
  | false =>
    rw [if_neg (by decide), List.nil_append, readNumber_digit hwhole.head_isDigit, hread, hn]
    rfl

end DocStore.Json
