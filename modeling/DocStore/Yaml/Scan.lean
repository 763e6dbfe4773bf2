import DocStore.Json.Reader
import DocStore.Yaml.Token
/-!
# Scalars and other long tokens of YAML

How the characters of a scalar are read, in each of the ways to write one. Where the text of a
scalar goes over several lines, a single line break between two of them counts as a space, and of
more than one the first does not count.
-/

namespace DocStore

namespace Yaml

-- ---------------------------------------------------------------------------
-- Gaps between the words of a scalar
-- ---------------------------------------------------------------------------

/-- Blanks and line breaks between two words of a scalar. -/
structure Gap where
  /-- The blanks before the first line break. -/
  blanks : List Char
  /-- The first line break, if there is one; an escaped one counts as nothing. -/
  first : Option (List Char)
  /-- The other line breaks. -/
  later : List Char

namespace Gap

def none : Gap := ⟨[], .none, []⟩

def hasBreak (g : Gap) : Bool := g.first.isSome

/-- The characters a gap counts as. -/
def text (g : Gap) : List Char :=
  match g.first with
  | .none => g.blanks
  | some first =>
    if first = ['\n'] then (if g.later.isEmpty then [' '] else g.later) else first ++ g.later

/-- The gap with one more line break. -/
def addBreak (g : Gap) (b : List Char) : Gap :=
  match g.first with
  | .none => ⟨[], some b, []⟩
  | some _ => { g with later := g.later ++ b }

end Gap

/-- Reads a gap. With `least`, a tab left of that column is an error on every line but the first.
The first argument bounds the number of characters. -/
def readGap (least : Option Nat) : Nat → Gap → Cursor → Option (Gap × Cursor)
  | 0, g, c => some (g, c)
  | bound + 1, g, c =>
    match c.peek with
    | none => some (g, c)
    | some ch =>
      if isBlank ch then
        if g.hasBreak then
          -- a tab cannot indent
          if ch == '\t' && least.any (c.column < ·) then none
          else readGap least bound g (c.skip 1)
        else readGap least bound { g with blanks := g.blanks ++ [ch] } (c.skip 1)
      else if isBreak ch then
        let (b, c) := c.lineBreak
        readGap least bound (g.addBreak b) c
      else some (g, c)

-- ---------------------------------------------------------------------------
-- Plain scalars
-- ---------------------------------------------------------------------------

/-- The characters that end a plain scalar inside brackets. -/
def endsFlowScalar (c : Char) : Bool := [',', '[', ']', '{', '}'].contains c

/-- The next word of a plain scalar, and what follows it. A colon ends the scalar when a blank
follows; inside brackets, a colon before punctuation is an error. -/
def plainWord (inFlow : Bool) : List Char → Option (List Char × List Char)
  | [] => some ([], [])
  | c :: rest =>
    if isBlank c || isBreak c then some ([], c :: rest)
    else if inFlow && c == ':' && rest.head?.any (fun d => endsFlowScalar d || d == '?') then none
    -- the colon of a key
    else if c == ':' && !isSolid rest.head? then some ([], c :: rest)
    else if inFlow && endsFlowScalar c then some ([], c :: rest)
    else (plainWord inFlow rest).map fun (word, rest) => (c :: word, rest)

/-- The words of a plain scalar after what is read of it already. `least` is the column its further
lines have to reach. The answer also says whether the text behind it starts on a new line. -/
def plainWords (inFlow : Bool) (least : Nat) :
    Nat → List Char → Gap → Cursor → Option (List Char × Bool × Cursor)
  | 0, _, _, _ => none
  | bound + 1, text, gap, c =>
    if c.atMarker || c.peek == some '#' then some (text, gap.hasBreak, c)
    else
      match plainWord inFlow c.rest with
      | none => none
      | some (word, rest) =>
        let text := if word.isEmpty then text else text ++ gap.text ++ word
        let pending := if word.isEmpty then gap else Gap.none
        let c := c.skip (c.rest.length - rest.length)
        if !c.atBlank && !c.atBreak then some (text, pending.hasBreak, c)
        else
          match readGap (some least) (c.rest.length + 1) pending c with
          | none => none
          | some (pending, c) =>
            if !inFlow && c.column < least then some (text, pending.hasBreak, c)
            else plainWords inFlow least bound text pending c

-- ---------------------------------------------------------------------------
-- Quoted scalars
-- ---------------------------------------------------------------------------

/-- The character after a backslash that stands for another one. -/
def shortEscape? : Char → Option Char
  | '0' => some '\x00'
  | 'a' => some '\x07'
  | 'b' => some '\x08'
  | 't' | '\t' => some '\t'
  | 'n' => some '\n'
  | 'v' => some '\x0b'
  | 'f' => some '\x0c'
  | 'r' => some '\r'
  | 'e' => some '\x1b'
  | ' ' => some ' '
  | '"' => some '"'
  | '/' => some '/'
  | '\\' => some '\\'
  | 'N' => some '\x85'
  | '_' => some '\xa0'
  | 'L' => some '\u2028'
  | 'P' => some '\u2029'
  | _ => none

/-- How many hexadecimal digits follow the letter of an escape. -/
def hexLength? : Char → Option Nat
  | 'x' => some 2
  | 'u' => some 4
  | 'U' => some 8
  | _ => none

/-- The character that hexadecimal digits stand for. -/
def hexChar? (count : Nat) (s : List Char) : Option Char :=
  let digits := s.take count
  if digits.length < count then none
  else
    match digits.mapM Json.hexValue? with
    | none => none
    | some values =>
      let n := values.foldl (fun n d => 16 * n + d) 0
      -- halves of surrogate pairs are no characters
      if (0xD800 ≤ n && n ≤ 0xDFFF) || n > 0x10FFFF then none else some (Char.ofNat n)

/-- What ends a word of a quoted scalar. -/
inductive WordEnd where
  | quote | gap | escapedBreak

/-- The next word of a scalar between single quotes; a quote is written twice. -/
def singleWord : List Char → Option (List Char × WordEnd × List Char)
  | [] => none
  | '\'' :: '\'' :: rest => (singleWord rest).map fun (word, e, rest) => ('\'' :: word, e, rest)
  | c :: rest =>
    if c == '\'' then some ([], .quote, c :: rest)
    else if isBlank c || isBreak c then some ([], .gap, c :: rest)
    else (singleWord rest).map fun (word, e, rest) => (c :: word, e, rest)

/-- The next word of a scalar between double quotes. The first argument bounds its length. -/
def doubleWord : Nat → List Char → Option (List Char × WordEnd × List Char)
  | 0, _ => none
  | _ + 1, [] => none
  | bound + 1, '\\' :: c :: rest =>
    if isBreak c then some ([], .escapedBreak, c :: rest)
    else
      match shortEscape? c, hexLength? c with
      | some e, _ => (doubleWord bound rest).map fun (word, k, rest) => (e :: word, k, rest)
      | none, some count =>
        match hexChar? count rest with
        | none => none
        | some e =>
          (doubleWord bound (rest.drop count)).map fun (word, k, rest) => (e :: word, k, rest)
      | none, none => none
  | bound + 1, c :: rest =>
    if c == '"' then some ([], .quote, c :: rest)
    else if isBlank c || isBreak c then some ([], .gap, c :: rest)
    else if c == '\\' then none
    else (doubleWord bound rest).map fun (word, k, rest) => (c :: word, k, rest)

/-- The words of a quoted scalar up to its closing quote. -/
def quotedWords (single : Bool) : Nat → Cursor → Option (List Char × Cursor)
  | 0, _ => none
  | bound + 1, c =>
    if c.atMarker then none
    else
      match if single then singleWord c.rest else doubleWord (c.rest.length + 1) c.rest with
      | none => none
      | some (word, ending, rest) =>
        let c := c.skip (c.rest.length - rest.length)
        match ending with
        | .quote => some (word, c.skip 1)
        | .gap =>
          match readGap none (c.rest.length + 1) Gap.none c with
          | none => none
          | some (gap, c) =>
            (quotedWords single bound c).map fun (text, c) => (word ++ gap.text ++ text, c)
        | .escapedBreak =>
          let (_, c) := c.lineBreak
          match readGap none (c.rest.length + 1) ⟨[], some [], []⟩ c with
          | none => none
          | some (gap, c) =>
            (quotedWords single bound c).map fun (text, c) => (word ++ gap.text ++ text, c)

-- ---------------------------------------------------------------------------
-- Block scalars
-- ---------------------------------------------------------------------------

/-- What happens to the line breaks at the end of a block scalar. -/
inductive Chomping where
  | clip | strip | keep
deriving DecidableEq

/-- Passes over the indentation and over empty lines. `indent` is the indentation of the scalar if
it is known. The answer is the line breaks and the greatest column reached. -/
def blockGap (indent : Option Nat) :
    Nat → List Char → Nat → Cursor → Option (List Char × Nat × Cursor)
  | 0, _, _, _ => none
  | bound + 1, breaks, deepest, c =>
    let width := (c.rest.takeWhile (· == ' ')).length
    let c := c.skip (match indent with
      | some n => min width (n - c.column)
      | none => width)
    let deepest := max deepest c.column
    if c.peek == some '\t' && indent.all (c.column < ·) then none
    else if c.atBreak then
      let (b, c) := c.lineBreak
      blockGap indent bound (breaks ++ b) deepest c
    else some (breaks, deepest, c)

/-- The lines of a block scalar that has this indentation, after what is read of it. `last` is the
break behind the last line, `breaks` are the empty lines after it, and `blankBefore` says whether
the last line starts with a blank. -/
def blockLines (literal : Bool) (chomping : Chomping) (indent : Nat) :
    Nat → List Char → List Char → List Char → Bool → Cursor → Option (List Char × Cursor)
  | 0, _, _, _, _, _ => none
  | bound + 1, text, last, breaks, blankBefore, c =>
    if c.column == indent && c.peek.isSome then
      let blankHere := c.atBlank
      -- a break is folded only between two lines that start with no blank
      let fold := !literal && last == ['\n'] && !blankBefore && !blankHere
      let joint := if fold then (if breaks.isEmpty then [' '] else breaks) else last ++ breaks
      let (line, c) := c.span fun ch => !isBreak ch
      let (last, c) := c.lineBreak
      match blockGap (some indent) (c.rest.length + 1) [] 0 c with
      | none => none
      | some (breaks, _, c) =>
        blockLines literal chomping indent bound (text ++ joint ++ line) last breaks blankHere c
    else
      match chomping with
      | .strip => some (text, c)
      | .clip => some (text ++ last, c)
      | .keep => some (text ++ last ++ breaks, c)

/-- The sign and the digit after the indicator of a block scalar, in either order. -/
def blockHeader (c : Cursor) : Option (Chomping × Option Nat × Cursor) :=
  let sign (c : Cursor) : Chomping × Cursor :=
    match c.peek with
    | some '+' => (.keep, c.skip 1)
    | some '-' => (.strip, c.skip 1)
    | _ => (.clip, c)
  let digit (c : Cursor) : Option (Option Nat × Cursor) :=
    match c.peek with
    | some d =>
      if d == '0' then none
      else if d.isDigit then some (some (d.toNat - 48), c.skip 1)
      else some (none, c)
    | none => some (none, c)
  match sign c with
  | (.clip, c) =>
    match digit c with
    | none => none
    | some (some n, c) =>
      let (chomping, c) := sign c
      some (chomping, some n, c)
    | some (none, c) => some (.clip, none, c)
  | (chomping, c) => (digit c).map fun (n, c) => (chomping, n, c)

/-- A block scalar after its indicator, in a block of the indentation `parent`. -/
def blockScalar (literal : Bool) (parent : Int) (c : Cursor) : Option (List Char × Cursor) := do
  let (chomping, increment, c) ← blockHeader c
  let c := c.skipComment
  if !c.atLineEnd then none
  else
    let (_, c) := c.lineBreak
    let given := increment.map fun n => if parent ≥ 0 then parent.toNat + n else n
    let (breaks, deepest, c) ← blockGap given (c.rest.length + 1) [] 0 c
    let indent := given.getD (max deepest (max (parent + 1).toNat 1))
    blockLines literal chomping indent (c.rest.length + 2) [] [] breaks false c

-- ---------------------------------------------------------------------------
-- Anchors, tags and directives
-- ---------------------------------------------------------------------------

/-- The name of an anchor or alias after its indicator. -/
def anchorName (c : Cursor) : Option (String × Cursor) :=
  let (name, c) := c.span isWordChar
  let ends := !isSolid c.peek || c.peek.any fun ch => "?:,]\x7d%@\x60".toList.contains ch
  if name.isEmpty || !ends then none else some (String.ofList name, c)

/-- Characters of a tag beside letters and digits. -/
def isTagChar (verbatim : Bool) (c : Char) : Bool :=
  isWordChar c || ";/?:@&=+$.!~*'()%".toList.contains c ||
    (verbatim && [',', '[', ']'].contains c)

/-- The bytes behind percent signs, decoded. -/
def percentDecoded : List Char → Option (List UInt8)
  | [] => some []
  | '%' :: a :: b :: rest => do
    let high ← Json.hexValue? a
    let low ← Json.hexValue? b
    (percentDecoded rest).map ((UInt8.ofNat (16 * high + low)) :: ·)
  | '%' :: _ => none
  | c :: rest => (percentDecoded rest).map ((String.singleton c).toUTF8.toList ++ ·)

/-- A tag text with its percent signs decoded. -/
def tagText? (s : List Char) : Option String := do
  String.fromUTF8? ⟨(← percentDecoded s).toArray⟩

/-- A tag from its exclamation mark on: its handle and what follows it. -/
def readTag (inFlow : Bool) (c : Cursor) : Option (Token × Cursor) := do
  let (token, c) ←
    if c.ahead 1 == some '<' then do
      let (uri, c) := (c.skip 2).span (isTagChar true)
      if uri.isEmpty || c.peek != some '>' then none
      else
        let text ← tagText? uri
        some (Token.tag "" text, c.skip 1)
    else do
      let (word, after) := (c.skip 1).span isWordChar
      if after.peek == some '!' then do
        let (uri, c) := (after.skip 1).span (isTagChar false)
        if uri.isEmpty then none
        else
          let text ← tagText? uri
          some (Token.tag (String.ofList ('!' :: word ++ ['!'])) text, c)
      else do
        let (uri, c) := (c.skip 1).span (isTagChar false)
        if uri.isEmpty then some (Token.tag "" "!", c)
        else
          let text ← tagText? uri
          some (Token.tag "!" text, c)
  if !isSolid c.peek || (inFlow && c.peek == some ',') then some (token, c) else none

/-- A number of one to nine digits. -/
def readShortNumber (c : Cursor) : Option (Nat × Cursor) :=
  let (digits, c) := c.span Char.isDigit
  if digits.isEmpty || digits.length > 9 then none else some (Json.digitsValue digits, c)

/-- A version number. -/
def readVersion (c : Cursor) : Option (Nat × Nat × Cursor) := do
  let (major, c) ← readShortNumber (c.skipWhile isBlank)
  if c.peek != some '.' then none
  else
    let (minor, c) ← readShortNumber (c.skip 1)
    some (major, minor, c)

/-- A directive from its percent sign on. -/
def readDirective (c : Cursor) : Option (Token × Cursor) := do
  let (name, c) := (c.skip 1).span isWordChar
  if isSolid c.peek then none
  else
    let (token, c) ←
      match String.ofList name with
      | "YAML" => do
        let (major, minor, c) ← readVersion c
        if major = 1 ∧ (minor = 1 ∨ minor = 2) then some (Token.versionDirective, c) else none
      | "TAG" => do
        let c := c.skipWhile isBlank
        let (word, after) := (c.skip 1).span isWordChar
        if c.peek != some '!' then none
        else
          let (handle, c) ←
            if after.peek == some '!' then some (String.ofList ('!' :: word ++ ['!']), after.skip 1)
            else if word.isEmpty then some ("!", after)
            else none
          if !c.atBlank then none
          else
            let (uri, c) := (c.skipWhile isBlank).span (isTagChar true)
            if uri.isEmpty || isSolid c.peek then none
            else
              let text ← tagText? uri
              some (Token.tagDirective handle text, c)
      | _ => none
    let c := c.skipComment
    if c.atLineEnd then
      let (_, c) := c.lineBreak
      some (token, c)
    else none

end Yaml

end DocStore
