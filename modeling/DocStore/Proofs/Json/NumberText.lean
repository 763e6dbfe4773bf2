import DocStore.Json.Printer
import DocStore.Json.Reader
import DocStore.Proofs.Double.Shortest
/-!
# The text of a number reads back

A number is read from its own text, whatever follows it, as long as that does not go on with the
number. Integers are read from their digits; the text of a double is one of four layouts of its
shortest digits, and each of them is read as the decimal it lays out.

* `readNumber_jsonText`: a number is read from its text.
-/

namespace DocStore.Json

-- ---------------------------------------------------------------------------
-- Where a number ends
-- ---------------------------------------------------------------------------

/-- Whether a number could go on with this character. -/
def continuesNumber (c : Char) : Bool := c.isDigit || c == '.' || c == 'e' || c == 'E'

/-- What follows a number does not go on with it. -/
def EndsNumber (rest : List Char) : Prop := ∀ c ∈ rest.head?, continuesNumber c = false

/-- The end of the text ends a number. -/
theorem endsNumber_nil : EndsNumber [] := by
  intro c hc
  simp at hc

/-- A character with which no number goes on ends one. -/
theorem endsNumber_cons {c : Char} (h : continuesNumber c = false) (rest : List Char) :
    EndsNumber (c :: rest) := by
  intro d hd
  simp only [List.head?_cons, Option.mem_def, Option.some.injEq] at hd
  exact hd ▸ h

-- ---------------------------------------------------------------------------
-- Rows of digits
-- ---------------------------------------------------------------------------

/-- Digits in front count for as many tens as digits follow. -/
theorem digitsValue_append (a b : List Char) :
    digitsValue (a ++ b) = digitsValue a * 10 ^ b.length + digitsValue b := by
  -- over the list that follows, for any value of the digits before it
  have hfold : ∀ (l : List Char) (n : Nat),
      l.foldl (fun n c => 10 * n + (c.toNat - 48)) n = n * 10 ^ l.length + digitsValue l := by
    intro l
    induction l with
    | nil => intro n; simp [digitsValue]
    | cons c rest ih =>
      intro n
      rw [digitsValue, List.foldl_cons, List.foldl_cons, ih, ih]
      simp only [List.length_cons, pow_succ]
      ring
  rw [digitsValue, List.foldl_append]
  exact hfold b _

/-- Zeros have the value zero. -/
theorem digitsValue_replicate_zero (n : Nat) : digitsValue (List.replicate n '0') = 0 := by
  induction n with
  | zero => rfl
  | succ n ih =>
    rw [List.replicate_succ', digitsValue_append, ih]
    rfl

/-- The digits are ten characters in a row. -/
theorem digitChar_toNat {n : Nat} (h : n < 10) : (Nat.digitChar n).toNat = 48 + n := by
  have hall : ∀ n < 10, (Nat.digitChar n).toNat = 48 + n := by decide
  exact hall n h

/-- A digit has its own value. -/
theorem digitsValue_digitChar {n : Nat} (h : n < 10) : digitsValue [Nat.digitChar n] = n := by
  rw [digitsValue, List.foldl_cons, List.foldl_nil, digitChar_toNat h]
  omega

/-- **The digits of a number have its value.** -/
theorem digitsValue_toDigits (n : Nat) : digitsValue (Nat.toDigits 10 n) = n := by
  induction n using Nat.strong_induction_on with
  | _ n ih =>
    rw [Nat.toDigits_eq_if (by norm_num)]
    split
    · rename_i h
      exact digitsValue_digitChar h
    · rename_i h
      -- the last digit is the remainder, and the digits before it are those of the tenth
      rw [digitsValue_append, ih (n / 10) (by omega),
        digitsValue_digitChar (Nat.mod_lt n (by omega))]
      simp only [List.length_singleton, pow_one]
      omega

theorem isDigit_toDigits (n : Nat) : ∀ c ∈ Nat.toDigits 10 n, c.isDigit = true :=
  fun _ hc => Nat.isDigit_of_mem_toDigits (by norm_num) (by norm_num) hc

/-- A row of zeros. -/
theorem isDigit_zeros (n : Nat) : ∀ c ∈ List.replicate n '0', c.isDigit = true := by
  intro c hc
  rw [List.eq_of_mem_replicate hc]
  rfl

/-- The first digit is a zero in zero only. -/
theorem head?_toDigits_ne_zero {n : Nat} (h : n ≠ 0) : (Nat.toDigits 10 n).head? ≠ some '0' := by
  induction n using Nat.strong_induction_on with
  | _ n ih =>
    rw [Nat.toDigits_eq_if (by norm_num)]
    split
    · rename_i hlt
      have hall : ∀ n < 10, n ≠ 0 → [Nat.digitChar n].head? ≠ some '0' := by decide
      exact hall n hlt h
    · rename_i hge
      rw [List.head?_append_of_ne_nil _ Nat.toDigits_ne_nil]
      exact ih (n / 10) (by omega) (by omega)

/-- A row of digits that could stand before a point: it has no zero in front of other digits. -/
def IsWhole (digits : List Char) : Prop :=
  digits ≠ [] ∧ (∀ c ∈ digits, c.isDigit = true) ∧ (digits.head? = some '0' → digits.length ≤ 1)

/-- The digits of a number could stand before a point. -/
theorem isWhole_toDigits (n : Nat) : IsWhole (Nat.toDigits 10 n) := by
  refine ⟨Nat.toDigits_ne_nil, isDigit_toDigits n, ?_⟩
  intro hhead
  by_cases h : n = 0
  · subst h
    rw [Nat.toDigits_zero]
    rfl
  · exact absurd hhead (head?_toDigits_ne_zero h)

/-- A row of digits is read up to what is no digit. -/
theorem readDigits_append {digits rest : List Char} (hne : digits ≠ [])
    (hdigits : ∀ c ∈ digits, c.isDigit = true) (hrest : ∀ c ∈ rest.head?, c.isDigit = false) :
    readDigits (digits ++ rest) = some (digits, rest) := by
  have htake : rest.takeWhile Char.isDigit = [] := by
    cases rest with
    | nil => rfl
    | cons c rest => rw [List.takeWhile_cons_of_neg (by simp [hrest c rfl])]
  have hdrop : rest.dropWhile Char.isDigit = rest := by
    cases rest with
    | nil => rfl
    | cons c rest => rw [List.dropWhile_cons_of_neg (by simp [hrest c rfl])]
  rw [readDigits, List.takeWhile_append_of_pos hdigits, List.dropWhile_append_of_pos hdigits,
    htake, hdrop, List.append_nil]
  cases digits with
  | nil => exact absurd rfl hne
  | cons c digits => rfl

-- ---------------------------------------------------------------------------
-- The parts of a number
-- ---------------------------------------------------------------------------

/-- What ends a number does not start with a digit. -/
theorem EndsNumber.isDigit {rest : List Char} (h : EndsNumber rest) :
    ∀ c ∈ rest.head?, c.isDigit = false := by
  intro c hc
  have := h c hc
  simp only [continuesNumber, Bool.or_eq_false_iff] at this
  exact this.1.1.1

/-- Without a point there is no fraction. -/
theorem readFraction_none {rest : List Char} (h : ∀ c ∈ rest.head?, c ≠ '.') :
    readFraction rest = some ([], rest) := by
  unfold readFraction
  split
  · exact absurd rfl (h '.' rfl)
  · rfl

/-- Without an `e` there is no exponent. -/
theorem readExponent_none {rest : List Char} (h : ∀ c ∈ rest.head?, c ≠ 'e' ∧ c ≠ 'E') :
    readExponent rest = some (none, rest) := by
  unfold readExponent
  split
  · exact absurd rfl (h 'e' rfl).1
  · exact absurd rfl (h 'E' rfl).2
  · rfl

/-- What ends a number is no fraction of it. -/
theorem EndsNumber.readFraction {rest : List Char} (h : EndsNumber rest) :
    readFraction rest = some ([], rest) := by
  apply readFraction_none
  rintro c hc rfl
  exact absurd (h '.' hc) (by decide)

/-- What ends a number is no exponent of it. -/
theorem EndsNumber.readExponent {rest : List Char} (h : EndsNumber rest) :
    readExponent rest = some (none, rest) := by
  apply readExponent_none
  intro c hc
  constructor <;> rintro rfl
  · exact absurd (h 'e' hc) (by decide)
  · exact absurd (h 'E' hc) (by decide)

/-- An exponent with a plus sign is the value of its digits. -/
theorem readExponent_positive {digits rest : List Char} (hne : digits ≠ [])
    (hdigits : ∀ c ∈ digits, c.isDigit = true) (hrest : EndsNumber rest) :
    readExponent ('e' :: '+' :: (digits ++ rest)) =
      some (some (digitsValue digits : Int), rest) := by
  simp [readExponent, readDigits_append hne hdigits hrest.isDigit]

/-- An exponent with a minus sign is the opposite of the value of its digits. -/
theorem readExponent_negative {digits rest : List Char} (hne : digits ≠ [])
    (hdigits : ∀ c ∈ digits, c.isDigit = true) (hrest : EndsNumber rest) :
    readExponent ('e' :: '-' :: (digits ++ rest)) =
      some (some (-(digitsValue digits : Int)), rest) := by
  simp [readExponent, readDigits_append hne hdigits hrest.isDigit]

/-- A number is read from its parts in turn. -/
theorem readUnsigned_eq {negative : Bool} {whole fraction s₁ s₂ s₃ : List Char}
    {exponent : Option Int} (hwhole : IsWhole whole)
    (hstart : ∀ c ∈ s₁.head?, c.isDigit = false)
    (hfraction : readFraction s₁ = some (fraction, s₂))
    (hexponent : readExponent s₂ = some (exponent, s₃)) :
    readUnsigned negative (whole ++ s₁) =
      (numberOf? negative whole fraction exponent).map fun n => (n, s₃) := by
  obtain ⟨hne, hdigits, hlead⟩ := hwhole
  -- a zero in front of other digits would be refused
  have hguard : ¬ (whole.head? = some '0' ∧ 1 < whole.length) := by
    rintro ⟨hhead, hlen⟩
    have := hlead hhead
    omega
  unfold readUnsigned
  rw [readDigits_append hne hdigits hstart]
  simp only [Option.bind_eq_bind, Option.bind_some, hfraction, hexponent, Bool.and_eq_true,
    beq_iff_eq, decide_eq_true_eq, if_neg hguard]
  cases numberOf? negative whole fraction exponent <;> rfl

theorem readNumber_minus (s : List Char) : readNumber ('-' :: s) = readUnsigned true s := rfl

/-- A text that starts with a digit is read as a number without a sign. -/
theorem readNumber_digit {s : List Char} (h : ∀ c ∈ s.head?, c.isDigit = true) :
    readNumber s = readUnsigned false s := by
  unfold readNumber
  split
  · exact absurd (h '-' rfl) (by decide)
  · rfl

/-- What starts with whole digits starts with a digit. -/
theorem IsWhole.head_isDigit {whole s : List Char} (h : IsWhole whole) :
    ∀ c ∈ (whole ++ s).head?, c.isDigit = true := by
  obtain ⟨hne, hdigits, -⟩ := h
  intro c hc
  rw [List.head?_append_of_ne_nil _ hne] at hc
  exact hdigits c (List.mem_of_mem_head? hc)

-- ---------------------------------------------------------------------------
-- Integers
-- ---------------------------------------------------------------------------

/-- Digits alone make an integer, if it is in range and is not `-0`. -/
theorem numberOf?_int {negative : Bool} {n : Nat}
    (hrange : Number.IntegerRange (if negative then -(n : Int) else n))
    (hzero : negative = true → n ≠ 0) :
    numberOf? negative (Nat.toDigits 10 n) [] none =
      some (.int (if negative then -(n : Int) else n)) := by
  -- `-0` would become a double, since integers have one zero
  have hsign : (negative && n == 0) = false := by
    cases negative with
    | false => rfl
    | true => simpa using hzero rfl
  unfold numberOf?
  simp only [digitsValue_toDigits, hsign, hrange, decide_true, List.isEmpty_nil,
    Option.isNone_none, Bool.and_self, Bool.not_false, if_true]

/-- **An integer is read from its text.** -/
theorem readNumber_int {n : Int} (hrange : Number.IntegerRange n) {rest : List Char}
    (hrest : EndsNumber rest) : readNumber ((toString n).toList ++ rest) = some (.int n, rest) := by
  -- the digits are read up to the end of the number, which has no fraction and no exponent
  have hread : ∀ negative m, readUnsigned negative (Nat.toDigits 10 m ++ rest) =
      (numberOf? negative (Nat.toDigits 10 m) [] none).map fun n => (n, rest) := fun negative m =>
    readUnsigned_eq (isWhole_toDigits m) hrest.isDigit hrest.readFraction hrest.readExponent
  cases n with
  | ofNat m =>
    have htext : (toString (Int.ofNat m)).toList = Nat.toDigits 10 m := Nat.toList_repr
    rw [htext, readNumber_digit (isWhole_toDigits m).head_isDigit, hread,
      numberOf?_int (by simpa using hrange) (by simp)]
    rfl
  | negSucc m =>
    have htext : (toString (Int.negSucc m)).toList = '-' :: Nat.toDigits 10 (m + 1) := by
      show ("-" ++ Nat.repr (m + 1)).toList = _
      rw [String.toList_append, Nat.toList_repr]
      rfl
    rw [htext, List.cons_append, readNumber_minus, hread,
      numberOf?_int (by simpa [Int.negSucc_eq] using hrange) (by simp)]
    rfl

-- ---------------------------------------------------------------------------
-- Doubles
-- ---------------------------------------------------------------------------

/-- A number with a fraction or an exponent is a double. -/
theorem numberOf?_float {negative : Bool} {whole fraction : List Char} {exponent : Option Int}
    (h : fraction ≠ [] ∨ exponent.isSome = true) :
    numberOf? negative whole fraction exponent =
      (Double.ofDecimal? negative (digitsValue (whole ++ fraction))
        (exponent.getD 0 - fraction.length)).map .float := by
  have hcond : (fraction.isEmpty && exponent.isNone) = false := by
    rcases h with h | h
    · simp [h]
    · simp [h]
  unfold numberOf?
  simp only [hcond, Bool.false_and, Bool.false_eq_true, if_false]

theorem toList_toString (n : Nat) : (toString n).toList = Nat.toDigits 10 n := Nat.toList_repr

theorem length_toString (n : Nat) : (toString n).length = (Nat.toDigits 10 n).length := by
  rw [← toList_toString, String.length_toList]

/-- What is read from a text that lays out a decimal: the double nearest to it. -/
def decimalRead (negative : Bool) (c : Decimal) (rest : List Char) :
    Option (Number × List Char) :=
  (Double.ofDecimal? negative c.digits c.exponent).map fun d => (.float d, rest)

/-- Digits with a point are read as the decimal they stand for. -/
theorem readUnsigned_point {negative : Bool} {whole fraction rest : List Char} {c : Decimal}
    (hwhole : IsWhole whole) (hne : fraction ≠ []) (hfraction : ∀ d ∈ fraction, d.isDigit = true)
    (hrest : EndsNumber rest)
    (hvalue : Double.ofDecimal? negative (digitsValue (whole ++ fraction)) (0 - fraction.length) =
      Double.ofDecimal? negative c.digits c.exponent) :
    readUnsigned negative (whole ++ '.' :: (fraction ++ rest)) = decimalRead negative c rest := by
  have hread : readFraction ('.' :: (fraction ++ rest)) = some (fraction, rest) :=
    readDigits_append hne hfraction hrest.isDigit
  rw [readUnsigned_eq hwhole (by simp) hread hrest.readExponent, numberOf?_float (Or.inl hne),
    Option.getD_none, hvalue, decimalRead, Option.map_map]
  rfl

/-- A decimal below one, laid out as zeros and its digits behind `0.`, is read. -/
theorem readUnsigned_small {negative : Bool} {c : Decimal} {rest : List Char}
    (hrest : EndsNumber rest) {point : Int}
    (hpoint : point = c.exponent + (Nat.toDigits 10 c.digits).length) (hsmall : point ≤ 0) :
    readUnsigned negative ((floatStyle.placePoint (toString c.digits) point).toList ++ rest) =
      decimalRead negative c rest := by
  have htext : (floatStyle.placePoint (toString c.digits) point).toList ++ rest =
      ['0'] ++ '.' :: (List.replicate (-point).toNat '0' ++ Nat.toDigits 10 c.digits ++ rest) := by
    rw [DecimalStyle.placePoint, if_pos hsmall, String.toList_append, String.toList_append,
      String.toList_ofList, toList_toString]
    simp
  have hwhole : IsWhole ['0'] := isWhole_toDigits 0
  rw [htext]
  -- the zeros on both sides of the point add nothing to the value of the digits
  apply readUnsigned_point hwhole (by simp) _ hrest
  · rw [← List.append_assoc, digitsValue_append, digitsValue_append, digitsValue_replicate_zero,
      digitsValue_toDigits, show digitsValue ['0'] = 0 from rfl]
    simp only [Nat.zero_mul, Nat.zero_add]
    congr 1
    simp only [List.length_append, List.length_replicate]
    omega
  · intro d hd
    rcases List.mem_append.mp hd with hd | hd
    · exact isDigit_zeros _ d hd
    · exact isDigit_toDigits _ d hd

/-- A whole decimal, laid out as its digits and zeros before `.0`, is read. -/
theorem readUnsigned_large {negative : Bool} {c : Decimal} {rest : List Char}
    (hzero : c.digits = 0 → c.exponent = 0) (hrest : EndsNumber rest) {point : Int}
    (hpoint : point = c.exponent + (Nat.toDigits 10 c.digits).length)
    (hpos : ¬ point ≤ 0) (hlarge : (Nat.toDigits 10 c.digits).length ≤ point.toNat) :
    readUnsigned negative ((floatStyle.placePoint (toString c.digits) point).toList ++ rest) =
      decimalRead negative c rest := by
  obtain ⟨k, hk⟩ : ∃ k, k = point.toNat - (Nat.toDigits 10 c.digits).length := ⟨_, rfl⟩
  have hexponent : c.exponent = k := by omega
  have htext : (floatStyle.placePoint (toString c.digits) point).toList ++ rest =
      (Nat.toDigits 10 c.digits ++ List.replicate k '0') ++ '.' :: (['0'] ++ rest) := by
    rw [DecimalStyle.placePoint, if_neg hpos, length_toString, if_pos hlarge, String.toList_append,
      String.toList_append, String.toList_ofList, toList_toString, ← hk]
    simp [floatStyle]
  have hwhole : IsWhole (Nat.toDigits 10 c.digits ++ List.replicate k '0') := by
    obtain ⟨hne, hdigits, hlead⟩ := isWhole_toDigits c.digits
    refine ⟨by simp [hne], ?_, ?_⟩
    · intro d hd
      rcases List.mem_append.mp hd with hd | hd
      · exact hdigits d hd
      · exact isDigit_zeros _ d hd
    · intro hhead
      rw [List.head?_append_of_ne_nil _ hne] at hhead
      have h0 : c.digits = 0 := by
        by_contra h
        exact head?_toDigits_ne_zero h hhead
      -- zero has the exponent zero, and no zeros are written behind it
      have hk0 : k = 0 := by
        have := hzero h0
        omega
      simpa [hk0] using hlead hhead
  rw [htext]
  apply readUnsigned_point hwhole (by simp) (by simp) hrest
  -- the zeros written out, the one after the point included, are a power of ten
  rw [digitsValue_append, digitsValue_append, digitsValue_replicate_zero, digitsValue_toDigits,
    ← Double.ofDecimal?_mul_pow_ten negative c.digits (k + 1) c.exponent,
    show digitsValue ['0'] = 0 from rfl]
  congr 1
  · simp only [List.length_replicate, List.length_singleton]
    ring
  · simp only [List.length_singleton]
    omega

/-- A decimal that is laid out with the point among its digits is read. -/
theorem readUnsigned_middle {negative : Bool} {c : Decimal} {rest : List Char}
    (hrest : EndsNumber rest) {point : Int}
    (hpoint : point = c.exponent + (Nat.toDigits 10 c.digits).length)
    (hpos : ¬ point ≤ 0) (hmiddle : ¬ (Nat.toDigits 10 c.digits).length ≤ point.toNat) :
    readUnsigned negative ((floatStyle.placePoint (toString c.digits) point).toList ++ rest) =
      decimalRead negative c rest := by
  obtain ⟨hne, hdigits, hlead⟩ := isWhole_toDigits c.digits
  have htext : (floatStyle.placePoint (toString c.digits) point).toList ++ rest =
      (Nat.toDigits 10 c.digits).take point.toNat ++
        '.' :: ((Nat.toDigits 10 c.digits).drop point.toNat ++ rest) := by
    rw [DecimalStyle.placePoint, if_neg hpos, length_toString, if_neg hmiddle,
      String.toList_append, String.toList_append, String.toList_ofList, String.toList_ofList,
      toList_toString]
    simp
  -- the first digit is no zero where others follow it, before the point as well
  have hwhole : IsWhole ((Nat.toDigits 10 c.digits).take point.toNat) := by
    refine ⟨?_, fun d hd => hdigits d (List.mem_of_mem_take hd), ?_⟩
    · rw [Ne, List.take_eq_nil_iff]
      rintro (h | h)
      · omega
      · exact hne h
    · intro hhead
      rw [List.head?_take, if_neg (by omega)] at hhead
      have := hlead hhead
      rw [List.length_take]
      omega
  rw [htext]
  apply readUnsigned_point hwhole _ (fun d hd => hdigits d (List.mem_of_mem_drop hd)) hrest
  · rw [List.take_append_drop, digitsValue_toDigits, List.length_drop]
    congr 1
    omega
  · rw [Ne, List.drop_eq_nil_iff]
    exact hmiddle

/-- The exponent of a decimal is written with its sign and without leading zeros. -/
def exponentChars (e : Int) : List Char :=
  'e' :: (if e < 0 then '-' else '+') :: Nat.toDigits 10 e.natAbs

/-- An exponent is read from its own text. -/
theorem readExponent_exponentChars (e : Int) {rest : List Char} (hrest : EndsNumber rest) :
    readExponent (exponentChars e ++ rest) = some (some e, rest) := by
  rw [exponentChars]
  split
  · rename_i he
    rw [List.cons_append, List.cons_append, readExponent_negative Nat.toDigits_ne_nil
      (isDigit_toDigits _) hrest, digitsValue_toDigits]
    congr 3
    omega
  · rename_i he
    rw [List.cons_append, List.cons_append, readExponent_positive Nat.toDigits_ne_nil
      (isDigit_toDigits _) hrest, digitsValue_toDigits]
    congr 3
    omega

/-- An exponent is written in as many digits as it needs. -/
theorem padded_one (n : Nat) : (DecimalStyle.padded 1 n).toList = Nat.toDigits 10 n := by
  have hlen : 1 - (Nat.toDigits 10 n).length = 0 := by
    have : 0 < (Nat.toDigits 10 n).length := Nat.length_toDigits_pos
    omega
  rw [DecimalStyle.padded, String.toList_append, String.toList_ofList, length_toString, hlen,
    toList_toString]
  rfl

/-- A decimal that is laid out with an exponent is read. -/
theorem readUnsigned_withExponent {negative : Bool} {c : Decimal} {rest : List Char}
    (hrest : EndsNumber rest) {first : Int}
    (hfirst : first = c.exponent + (Nat.toDigits 10 c.digits).length - 1) :
    readUnsigned negative ((floatStyle.withExponent (toString c.digits) first).toList ++ rest) =
      decimalRead negative c rest := by
  have hdigits := isDigit_toDigits c.digits
  have hvalue := digitsValue_toDigits c.digits
  have hsign : ((if first < 0 then "-" else floatStyle.plusSign) : String).toList =
      [if first < 0 then '-' else '+'] := by
    split <;> rfl
  have hwidth : floatStyle.exponentWidth = 1 := rfl
  have hbare : floatStyle.mantissaPoint = false := rfl
  cases hds : Nat.toDigits 10 c.digits with
  | nil => exact absurd hds Nat.toDigits_ne_nil
  | cons d tail =>
    rw [hds] at hdigits hvalue hfirst
    have hwhole : IsWhole [d] :=
      ⟨by simp, fun x hx => hdigits x (by simp_all), fun _ => Nat.le_refl 1⟩
    have htext : (floatStyle.withExponent (toString c.digits) first).toList =
        (if tail.isEmpty then [d] else d :: '.' :: tail) ++ exponentChars first := by
      rw [DecimalStyle.withExponent]
      simp only [toList_toString, hds, List.take_succ_cons, List.take_zero, List.drop_succ_cons,
        List.drop_zero, hwidth, hbare, String.toList_append, padded_one, exponentChars, hsign]
      cases tail <;> simp
    have hexponent := readExponent_exponentChars first hrest
    -- a single digit is written without a point
    cases htail : tail with
    | nil =>
      subst htail
      have hstop : ∀ x ∈ (exponentChars first ++ rest).head?, x = 'e' := by
        intro x hx
        simpa [exponentChars] using hx.symm
      have hfraction : readFraction (exponentChars first ++ rest) =
          some ([], exponentChars first ++ rest) := by
        apply readFraction_none
        intro x hx
        rw [hstop x hx]
        decide
      rw [htext, List.isEmpty_nil, if_pos rfl, List.append_assoc,
        readUnsigned_eq hwhole (fun x hx => by rw [hstop x hx]; rfl) hfraction hexponent,
        numberOf?_float (Or.inr rfl), List.append_nil, hvalue, decimalRead, Option.map_map]
      simp only [Option.getD_some, List.length_nil, Nat.cast_zero, sub_zero, List.length_singleton,
        Nat.cast_one] at hfirst ⊢
      rw [show first = c.exponent by omega]
      rfl
    | cons x more =>
      have hne : tail ≠ [] := by simp [htail]
      have hfraction : readFraction ('.' :: (tail ++ (exponentChars first ++ rest))) =
          some (tail, exponentChars first ++ rest) :=
        readDigits_append hne (fun y hy => hdigits y (List.mem_cons_of_mem _ hy))
          (by simp [exponentChars])
      have hempty : tail.isEmpty = false := by simp [htail]
      rw [htext, hempty, if_neg (by decide), List.append_assoc, List.cons_append, List.cons_append,
        show d :: '.' :: (tail ++ (exponentChars first ++ rest)) =
          [d] ++ '.' :: (tail ++ (exponentChars first ++ rest)) from rfl,
        readUnsigned_eq hwhole (by simp) hfraction hexponent, numberOf?_float (Or.inr rfl),
        List.singleton_append, hvalue, decimalRead, Option.map_map, Option.getD_some]
      rw [List.length_cons] at hfirst
      rw [show first - (tail.length : Int) = c.exponent by omega]
      rfl

/-- The digits of a decimal in the layout of JSON are read as that decimal. -/
theorem readUnsigned_layout {negative : Bool} {c : Decimal} {rest : List Char}
    (hzero : c.digits = 0 → c.exponent = 0) (hrest : EndsNumber rest) :
    readUnsigned negative ((floatStyle.layout false c).toList ++ rest) =
      decimalRead negative c rest := by
  rw [DecimalStyle.layout]
  simp only [Bool.false_and, Bool.false_eq_true, if_false, length_toString]
  -- by where the point would stand, the layout is one of four
  split
  · have hpoint : c.exponent + (Nat.toDigits 10 c.digits).length - 1 + 1 =
        c.exponent + (Nat.toDigits 10 c.digits).length := by omega
    by_cases hsmall : c.exponent + (Nat.toDigits 10 c.digits).length - 1 + 1 ≤ 0
    · exact readUnsigned_small hrest hpoint hsmall
    · by_cases hlarge : (Nat.toDigits 10 c.digits).length ≤
          (c.exponent + (Nat.toDigits 10 c.digits).length - 1 + 1).toNat
      · exact readUnsigned_large hzero hrest hpoint hsmall hlarge
      · exact readUnsigned_middle hrest hpoint hsmall hlarge
  · exact readUnsigned_withExponent hrest rfl

/-- What is read without a sign starts with a digit. -/
theorem readNumber_of_readUnsigned {s : List Char} {r : Number × List Char}
    (h : readUnsigned false s = some r) : readNumber s = some r := by
  unfold readNumber
  split
  · simp [readUnsigned, readDigits] at h
  · exact h

/-- The text of a double is its sign and the layout of its shortest digits. -/
theorem jsonText_float (d : Double) :
    d.jsonText.toList =
      (if d.negative then ['-'] else []) ++ (floatStyle.layout false d.shortest).toList := by
  rw [Double.jsonText, DecimalStyle.layout, DecimalStyle.layout]
  cases d.negative <;> simp [floatStyle]

/-- **A double is read from its text.** -/
theorem readNumber_float (d : Double) {rest : List Char} (hrest : EndsNumber rest) :
    readNumber (d.jsonText.toList ++ rest) = some (.float d, rest) := by
  -- the layout is read as its decimal, and the shortest digits are those of this double
  have hread : readUnsigned d.negative ((floatStyle.layout false d.shortest).toList ++ rest) =
      some (.float d, rest) := by
    rw [readUnsigned_layout Double.shortest_exponent hrest, decimalRead, Double.ofDecimal?_shortest]
    rfl
  rw [jsonText_float]
  cases hneg : d.negative with
  | true =>
    rw [if_pos rfl, List.singleton_append, List.cons_append, readNumber_minus, ← hneg]
    exact hread
  | false =>
    rw [if_neg (by decide), List.nil_append]
    exact readNumber_of_readUnsigned (hneg ▸ hread)

-- ---------------------------------------------------------------------------
-- Numbers
-- ---------------------------------------------------------------------------

/-- A number is read from its text. -/
theorem readNumber_jsonText {n : Number} (hwf : WellFormed (.number n)) {rest : List Char}
    (hrest : EndsNumber rest) : readNumber (n.jsonText.toList ++ rest) = some (n, rest) := by
  cases n with
  | int n => exact readNumber_int (by simpa [WellFormed] using hwf) hrest
  | float d => exact readNumber_float d hrest

end DocStore.Json
