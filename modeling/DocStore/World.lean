import DocStore.FileTree
import DocStore.Pipeline.Sample
import DocStore.Timestamp
/-!
# The world around a store

What operations read and change besides their collection: files, the clock, the supply of ids and
of random words, and the warnings given so far.
-/

namespace DocStore

/-- An endless supply of ids, and how many of them are used up. -/
structure IdSupply where
  id : Nat → String
  used : Nat

namespace IdSupply

/-- The next id. -/
def next (s : IdSupply) : String × IdSupply := (s.id s.used, { s with used := s.used + 1 })

/-- The ids of a list over and over; there must be at least one. -/
def cycling? (ids : List String) : Option IdSupply :=
  if ids.isEmpty then none else some ⟨fun i => ids.getD (i % ids.length) "", 0⟩

/-- The id with this number: the last twelve of its digits count. -/
def numberedId (n : Nat) : String :=
  "00000000-0000-4000-8000-" ++ String.ofList (Timestamp.zeroPadded 12 n)

/-- The id that 128 bits make: all but the six that mark it as random. -/
def randomId (bits : Nat) : String :=
  let digit (i : Nat) : Char :=
    let d := (bits >>> (4 * i)) % 16
    if i = 12 then '4' else Json.hexDigit (if i = 16 then 8 + d % 4 else d)
  let part (start length : Nat) : String :=
    String.ofList ((List.range length).map fun i => digit (start + i))
  "-".intercalate [part 0 8, part 8 4, part 12 4, part 16 4, part 20 12]

/-- Random ids, each of the 128 bits of the next number. -/
def ofBits (bits : Nat) : IdSupply := ⟨fun i => randomId (bits + i), 0⟩

/-- Numbered ids, from one on. -/
def numbered : IdSupply := ⟨fun i => numberedId (i + 1), 0⟩

end IdSupply

/-- What operations read and change besides their collection. -/
structure World where
  files : FileTree
  /-- Microseconds since the start of 1970. -/
  clock : Nat
  ids : IdSupply
  random : WordSource
  /-- The warnings given so far, oldest first. -/
  warnings : List String

namespace World

/-- The current time as records store it. -/
def now (w : World) : Json := .string (Timestamp.text w.clock)

def warn (w : World) (messages : List String) : World :=
  { w with warnings := w.warnings ++ messages }

end World

end DocStore
