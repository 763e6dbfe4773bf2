/-!
# Drawing at random

A source hands out random words of 32 bits. A draw below `n` scales a word to the range, and takes
a second word when the first leaves open which side of a boundary the draw falls on.
-/

namespace DocStore

/-- An endless row of random words, and how many of them are used up. -/
structure WordSource where
  word : Nat → UInt32
  used : Nat

namespace WordSource

/-- The words of a list over and over; zeros if the list is empty. -/
def cycling (words : List UInt32) : WordSource :=
  ⟨fun i => words.getD (i % words.length) 0, 0⟩

/-- The next word. -/
def next (s : WordSource) : Nat × WordSource :=
  ((s.word s.used).toNat, { s with used := s.used + 1 })

/-- How many words there are: `2 ^ 32`. -/
def wordCount : Nat := 4294967296

/-- A number below `n`, for `n` up to the number of words. -/
def below (s : WordSource) (n : Nat) : Nat × WordSource :=
  let (w, s) := s.next
  let result := w * n / wordCount
  -- what the division leaves; a carry can come up only where it is large
  let low := w * n % wordCount
  if low > wordCount - n then
    let (v, s) := s.next
    (if low + v * n / wordCount ≥ wordCount then result + 1 else result, s)
  else (result, s)

/-- Draws items of a list, each draw from the whole list. -/
def draw {α : Type} (s : WordSource) (items : Array α) : Nat → List α × WordSource
  | 0 => ([], s)
  | count + 1 =>
    let (i, s) := s.below items.size
    let (rest, s) := draw s items count
    (items[i]?.toList ++ rest, s)

end WordSource

end DocStore
