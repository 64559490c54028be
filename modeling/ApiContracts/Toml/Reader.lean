import ApiContracts.Text.Pieces
import ApiContracts.Toml.Table

/-!
# Reading TOML

The table that a text holds. A line is a header, a key with its value, or blank; a comment may end it. Texts stand between quotes or apostrophes, threefold ones over several lines, and arrays and inline tables may be spread over lines with comments between.
-/

namespace ApiContracts.Toml

open Text

def isSpace (c : Char) : Bool := c = ' ' || c = '\t'

/-- A character that a comment or a text on one line may hold. -/
def isPlain (c : Char) : Bool := c = '\t' || (' ' ≤ c && c ≠ '\x7f')

def isKeyChar (c : Char) : Bool := c.isAlphanum || c = '_' || c = '-'

def quoteMark : Char := '"'

def apostrophe : Char := '\x27'

def skipSpaces (cs : List Char) : List Char := cs.dropWhile isSpace

theorem length_dropWhile_le (p : Char → Bool) (cs : List Char) : (cs.dropWhile p).length ≤ cs.length :=
  (List.dropWhile_sublist p).length_le

/-- What follows blanks, line ends and comments. -/
def skipGap : List Char → List Char
  | [] => []
  | c :: cs =>
    if isSpace c || c = '\n' then skipGap cs
    else if c = '#' then skipGap (cs.dropWhile isPlain)
    else c :: cs
termination_by cs => cs.length
decreasing_by
  · simp
  · simp only [List.length_cons]
    exact Nat.lt_succ_of_le (length_dropWhile_le isPlain cs)

/-- What follows the end of a line, before which a comment may stand. -/
def endLine? (cs : List Char) : Option (List Char) :=
  let behind := match skipSpaces cs with
    | '#' :: comment => comment.dropWhile isPlain
    | others => others
  match behind with
  | [] => some []
  | '\n' :: rest => some rest
  | _ => none

/-! ## Texts -/

def shortEscape? (c : Char) : Option Char :=
  [('b', '\x08'), ('t', '\t'), ('n', '\n'), ('f', '\x0c'), ('r', '\r'), ('e', '\x1b'), ('"', '"'), ('\\', '\\')].lookup c

def numbered? (digits : List Char) : Option Char :=
  (natural 16 digits).bind fun n => if n.isValidChar then some (Char.ofNat n) else none

/-- The character behind a backslash, and what follows it. -/
def escape? : List Char → Option (Char × List Char)
  | 'x' :: a :: b :: rest => (numbered? [a, b]).map fun c => (c, rest)
  | 'u' :: a :: b :: c :: d :: rest => (numbered? [a, b, c, d]).map fun c => (c, rest)
  | 'U' :: a :: b :: c :: d :: e :: f :: g :: h :: rest => (numbered? [a, b, c, d, e, f, g, h]).map fun c => (c, rest)
  | c :: rest => (shortEscape? c).map fun c => (c, rest)
  | [] => none

theorem escape?_length {cs rest : List Char} {c : Char} (h : escape? cs = some (c, rest)) : rest.length < cs.length := by
  unfold escape? at h
  split at h <;>
    first
      | (obtain ⟨_, _, hc⟩ := Option.map_eq_some_iff.1 h
         obtain ⟨_, rfl⟩ := Prod.mk.injEq .. ▸ hc
         simp only [List.length_cons]
         omega)
      | simp at h

def putFront (c : Char) (found : Option (List Char × List Char)) : Option (List Char × List Char) :=
  found.map fun (s, rest) => (c :: s, rest)

/-- A text between quotes, from behind the opening one. -/
def basicText : List Char → Option (List Char × List Char)
  | [] => none
  | '"' :: rest => some ([], rest)
  | '\\' :: cs =>
    match h : escape? cs with
    | some (c, rest) =>
      have := escape?_length h
      putFront c (basicText rest)
    | none => none
  | c :: cs => if isPlain c then putFront c (basicText cs) else none
termination_by cs => cs.length
decreasing_by all_goals simp only [List.length_cons]; omega

/-- A text between threefold quotes; one or two may stand in front of the closing ones. A backslash at the end of a line joins it to the next text. -/
def longBasicText : List Char → Option (List Char × List Char)
  | [] => none
  | '"' :: '"' :: '"' :: '"' :: '"' :: rest => some (['"', '"'], rest)
  | '"' :: '"' :: '"' :: '"' :: rest => some (['"'], rest)
  | '"' :: '"' :: '"' :: rest => some ([], rest)
  | '\\' :: cs =>
    if (skipSpaces cs).head? = some '\n' then longBasicText (cs.dropWhile fun c => isSpace c || c = '\n')
    else
      match h : escape? cs with
      | some (c, rest) =>
        have := escape?_length h
        putFront c (longBasicText rest)
      | none => none
  | c :: cs => if isPlain c || c = '\n' then putFront c (longBasicText cs) else none
termination_by cs => cs.length
decreasing_by
  · simp only [List.length_cons]
    exact Nat.lt_succ_of_le (length_dropWhile_le _ cs)
  · simp only [List.length_cons]
    omega
  · simp

/-- A text between apostrophes, which has no escapes. -/
def literalText (cs : List Char) : Option (List Char × List Char) :=
  let inside (c : Char) : Bool := isPlain c && c ≠ apostrophe
  match cs.dropWhile inside with
  | c :: rest => if c = apostrophe then some (cs.takeWhile inside, rest) else none
  | [] => none

/-- A text between threefold apostrophes; one or two may stand in front of the closing ones. -/
def longLiteralText : List Char → Option (List Char × List Char)
  | [] => none
  | c :: cs =>
    if c = apostrophe then
      match (cs.takeWhile (· = apostrophe)).length with
      | 0 | 1 => putFront c (longLiteralText cs)
      | 2 => some ([], cs.drop 2)
      | 3 => some ([c], cs.drop 3)
      | _ => some ([c, c], cs.drop 4)
    else if isPlain c || c = '\n' then putFront c (longLiteralText cs)
    else none

/-- What follows three marks and the line end behind them, if there is one. -/
def afterThree? (mark : Char) (cs : List Char) : Option (List Char) :=
  (afterStart [mark, mark, mark] cs).map fun
    | '\n' :: rest => rest
    | rest => rest

/-- A text value, and what follows it. -/
def readText (cs : List Char) : Option (String × List Char) :=
  let found :=
    match afterThree? quoteMark cs, afterThree? apostrophe cs with
    | some rest, _ => longBasicText rest
    | none, some rest => longLiteralText rest
    | none, none =>
      match cs with
      | c :: rest => if c = quoteMark then basicText rest else if c = apostrophe then literalText rest else none
      | [] => none
  found.map fun (s, rest) => (String.ofList s, rest)

/-! ## Keys -/

/-- One key, bare or quoted, and what follows it. -/
def readKeyPart (cs : List Char) : Option (String × List Char) :=
  match cs with
  | [] => none
  | c :: rest =>
    if c = quoteMark then (basicText rest).map fun (s, rest) => (String.ofList s, rest)
    else if c = apostrophe then (literalText rest).map fun (s, rest) => (String.ofList s, rest)
    else
      let bare := cs.takeWhile isKeyChar
      if bare.isEmpty then none else some (String.ofList bare, cs.dropWhile isKeyChar)

/-- Keys between dots, and what follows them and their blanks. -/
def readPath : Nat → List Char → Option (List String × List Char)
  | 0, _ => none
  | fuel + 1, cs => do
    let (key, rest) ← readKeyPart (skipSpaces cs)
    match skipSpaces rest with
    | '.' :: rest =>
      let (path, rest) ← readPath fuel rest
      return (key :: path, rest)
    | rest => return ([key], rest)

/-- A path; it has no more keys than characters. -/
def readKeys (cs : List Char) : Option (List String × List Char) := readPath (cs.length + 1) cs

/-! ## Values -/

/-- A character of a value without quotes. -/
def isWordChar (c : Char) : Bool := c.isAlphanum || c ∈ ['+', '-', '_', '.', ':']

/-- A value without quotes, and what follows it. A time may follow a date after one space. -/
def readWord (cs : List Char) : Option (Item × List Char) :=
  let word := cs.takeWhile isWordChar
  let rest := cs.dropWhile isWordChar
  let joined := match afterDate? word, rest with
    | some [], ' ' :: c :: _ =>
      if c.isDigit then (word ++ ' ' :: (rest.drop 1).takeWhile isWordChar, (rest.drop 1).dropWhile isWordChar)
      else (word, rest)
    | _, _ => (word, rest)
  (Scalar.ofWord? joined.1).map fun s => (.scalar s, joined.2)

/-- The items of an array up to the closing bracket; a comma may follow the last one. -/
def readItems (item : List Char → Option (Item × List Char)) : Nat → List Char → Option (List Item × List Char)
  | 0, _ => none
  | fuel + 1, cs =>
    match skipGap cs with
    | ']' :: rest => some ([], rest)
    | cs => do
      let (first, rest) ← item cs
      match skipGap rest with
      | ',' :: rest =>
        let (others, rest) ← readItems item fuel rest
        return (first :: others, rest)
      | ']' :: rest => return ([first], rest)
      | _ => none

/-- A key with its value added to entries, and what follows. -/
def readEntry (value : List Char → Option (Item × List Char)) (origin : Origin) (entries : Entries) (cs : List Char) :
    Option (Entries × List Char) := do
  let (path, rest) ← readKeys cs
  match rest with
  | '=' :: rest =>
    let (item, rest) ← value (skipSpaces rest)
    let (_, entries) ← assign path item origin entries
    return (entries, rest)
  | _ => none

/-- The entries of an inline table up to the closing brace; a comma may follow the last one. -/
def readInline (value : List Char → Option (Item × List Char)) :
    Nat → Entries → List Char → Option (Entries × List Char)
  | 0, _, _ => none
  | fuel + 1, entries, cs =>
    match skipGap cs with
    | '\x7d' :: rest => some (entries, rest)
    | cs => do
      let (entries, rest) ← readEntry value .inline entries cs
      match skipGap rest with
      | ',' :: rest => readInline value fuel entries rest
      | '\x7d' :: rest => return (entries, rest)
      | _ => none

/-- A value, and what follows it; arrays and inline tables stand in each other up to a depth. -/
def readValue : Nat → List Char → Option (Item × List Char)
  | 0, '[' :: _ => none
  | 0, '\x7b' :: _ => none
  | depth + 1, '[' :: rest =>
    (readItems (readValue depth) (rest.length + 1) rest).map fun (items, rest) => (.array items, rest)
  | depth + 1, '\x7b' :: rest =>
    (readInline (readValue depth) (rest.length + 1) [] rest).map fun (entries, rest) => (.table .inline entries, rest)
  | _, cs =>
    if cs.head? = some quoteMark ∨ cs.head? = some apostrophe then
      (readText cs).map fun (s, rest) => (.scalar (.text s), rest)
    else readWord cs

/-- How many arrays and inline tables may stand in each other. -/
def maxDepth : Nat := 80

/-! ## Lines -/

/-- The text read so far: its table, and the path of the table that keys are added to. -/
structure Draft where
  entries : Entries := []
  place : List String := []

def readHeader (draft : Draft) (element : Bool) (cs : List Char) : Option (Draft × List Char) := do
  let (path, rest) ← readKeys cs
  let rest ← afterStart (if element then [']', ']'] else [']']) rest
  let (_, entries) ← openAt element path .header draft.entries
  return (⟨entries, path⟩, rest)

/-- A key with its value, added to the table of the last header. -/
def readAssignment (draft : Draft) (cs : List Char) : Option (Draft × List Char) := do
  let (path, rest) ← readKeys cs
  match rest with
  | '=' :: rest =>
    let (item, rest) ← readValue maxDepth (skipSpaces rest)
    let (_, entries) ← changeAt .implied (assign path item) draft.place .header draft.entries
    return (⟨entries, draft.place⟩, rest)
  | _ => none

/-- What a line adds, up to its end. -/
def readLine (draft : Draft) (cs : List Char) : Option (Draft × List Char) :=
  match skipSpaces cs with
  | '[' :: '[' :: rest => readHeader draft true rest
  | '[' :: rest => readHeader draft false rest
  | '\n' :: _ | '#' :: _ | [] => some (draft, cs)
  | cs => readAssignment draft cs

def readLines : Nat → Draft → List Char → Option Entries
  | 0, _, _ => none
  | fuel + 1, draft, cs =>
    match cs with
    | [] => some draft.entries
    | cs => do
      let (draft, rest) ← readLine draft cs
      readLines fuel draft (← endLine? rest)

/-- A line ends with a line feed, with or without a carriage return in front. -/
def withPlainLines : List Char → List Char
  | '\r' :: '\n' :: rest => '\n' :: withPlainLines rest
  | c :: rest => c :: withPlainLines rest
  | [] => []

/-- The table of a text, if the text is well formed. A mark of the byte order may stand in front. -/
def ofText? (s : String) : Option Entries :=
  let cs := match withPlainLines s.toList with
    | '\uFEFF' :: rest => rest
    | cs => cs
  readLines (cs.length + 1) {} cs

end ApiContracts.Toml
