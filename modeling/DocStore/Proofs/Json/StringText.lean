import DocStore.Json.Printer
import DocStore.Json.Reader
/-!
# The text of a string reads back

Between quotes every character is escaped on its own, and reading takes the escapes one by one, so
the characters of a string are restored in order, whatever follows the closing quote.

* `readQuoted_flatMap_escaped`: the characters of a string are read from its text.
-/

namespace DocStore.Json

theorem hexValue?_hexDigit {n : Nat} (h : n < 16) : hexValue? (hexDigit n) = some n := by
  have hall : ∀ n < 16, hexValue? (hexDigit n) = some n := by decide
  exact hall n h

/-- The escape of a control character by its number. -/
theorem hexValue4?_control {n : Nat} (h : n < 32) :
    hexValue4? '0' '0' (hexDigit (n / 16)) (hexDigit (n % 16)) = some n := by
  have hzero : hexValue? '0' = some 0 := rfl
  have hhigh : hexValue? (hexDigit (n / 16)) = some (n / 16) := hexValue?_hexDigit (by omega)
  have hlow : hexValue? (hexDigit (n % 16)) = some (n % 16) := hexValue?_hexDigit (by omega)
  unfold hexValue4?
  simp only [hzero, hhigh, hlow, Option.bind_eq_bind, Option.bind_some]
  congr 1
  omega

/-- A control character is read from its escape by number. -/
theorem readQuoted_control {c : Char} (h : c.toNat < 32) (rest : List Char) :
    readQuoted ('\\' :: 'u' :: '0' :: '0' :: hexDigit (c.toNat / 16) :: hexDigit (c.toNat % 16) ::
      rest) = prepend c (readQuoted rest) := by
  have hfirst : ¬ (0xD800 ≤ c.toNat ∧ c.toNat < 0xDC00) := by omega
  have hsecond : ¬ (0xDC00 ≤ c.toNat ∧ c.toNat < 0xE000) := by omega
  rw [readQuoted, hexValue4?_control h]
  simp only [hfirst, hsecond, if_false, Char.ofNat_toNat]

/-- A character that needs no escape is read as itself. -/
theorem readQuoted_plain {c : Char} (hquote : c ≠ '"') (hslash : c ≠ '\\') (hctrl : ¬ c.toNat < 32)
    (rest : List Char) : readQuoted (c :: rest) = prepend c (readQuoted rest) := by
  rw [readQuoted.eq_def]
  split
  · rename_i h
    exact absurd h (by simp)
  · rename_i h
    exact absurd (List.cons.inj h).1 hquote
  · rename_i h
    exact absurd (List.cons.inj h).1 hslash
  · rename_i h
    exact absurd (List.cons.inj h).1 hslash
  · rename_i h
    obtain ⟨rfl, rfl⟩ := List.cons.inj h
    exact if_neg hctrl

/-- One character is read from its escape. -/
theorem readQuoted_escaped (c : Char) (rest : List Char) :
    readQuoted (escaped c ++ rest) = prepend c (readQuoted rest) := by
  unfold escaped
  split
  · rename_i h; subst h; rfl
  split
  · rename_i h; subst h; rfl
  split
  · rename_i h; subst h; rfl
  split
  · rename_i h; subst h; rfl
  split
  · rename_i h; subst h; rfl
  split
  · rename_i h; subst h; rfl
  split
  · rename_i h; subst h; rfl
  split
  · rename_i h
    exact readQuoted_control h rest
  · rename_i hquote hslash _ _ _ _ _ hctrl
    exact readQuoted_plain hquote hslash hctrl rest

/-- The characters of a string are read from its text. -/
theorem readQuoted_flatMap_escaped (chars rest : List Char) :
    readQuoted (chars.flatMap escaped ++ '"' :: rest) = some (chars, rest) := by
  induction chars with
  | nil => rfl
  | cons c chars ih =>
    rw [List.flatMap_cons, List.append_assoc, readQuoted_escaped, ih]
    rfl

end DocStore.Json
