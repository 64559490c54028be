/-!
# Pieces of a text

Cutting a text at one character: at its first occurrence, or at every one. Nothing is lost: the pieces with the character between them give the text back, and no piece holds the character.
-/

namespace ApiContracts.Text

/-- What stands before and after the first `sep`, if there is one. -/
def cut (sep : Char) : List Char → Option (List Char × List Char)
  | [] => none
  | c :: cs => if c = sep then some ([], cs) else (cut sep cs).map fun (before, after) => (c :: before, after)

/-- The parts between occurrences of `sep`; always at least one, and empty parts are kept. -/
def pieces (sep : Char) : List Char → List (List Char)
  | [] => [[]]
  | c :: cs =>
    if c = sep then [] :: pieces sep cs
    else
      match pieces sep cs with
      | [] => [[c]]
      | first :: others => (c :: first) :: others

theorem pieces_ne_nil (sep : Char) (cs : List Char) : pieces sep cs ≠ [] := by
  cases cs with
  | nil => simp [pieces]
  | cons c cs =>
    simp only [pieces]
    split
    · simp
    · split <;> simp

def splitText (sep : Char) (s : String) : List String := (pieces sep s.toList).map String.ofList

def cutText (sep : Char) (s : String) : Option (String × String) :=
  (cut sep s.toList).map fun (before, after) => (String.ofList before, String.ofList after)

/-- The rest of `cs` when it starts with `start`. -/
def afterStart : List Char → List Char → Option (List Char)
  | [], cs => some cs
  | _ :: _, [] => none
  | p :: ps, c :: cs => if p = c then afterStart ps cs else none

/-- Whether `part` stands somewhere in the text. -/
def holds (part : List Char) : List Char → Bool
  | [] => part.isEmpty
  | c :: cs => (afterStart part (c :: cs)).isSome || holds part cs

end ApiContracts.Text
