import ApiContracts.Description.Endpoint

/-!
# Emitted names

Names of emitted declarations. A name keeps the word characters of what it is made from and writes an underscore for every other character. A field whose key is a reserved word is written raw, or with an underscore behind it where the raw form does not exist.
-/

namespace ApiContracts.Compile

def reservedWords : List String :=
  ["as", "break", "const", "continue", "crate", "else", "enum", "extern", "false", "fn", "for", "if", "impl", "in", "let",
    "loop", "match", "mod", "move", "mut", "pub", "ref", "return", "self", "Self", "static", "struct", "super", "trait",
    "true", "type", "unsafe", "use", "where", "while", "async", "await", "dyn", "abstract", "become", "box", "do", "final",
    "macro", "override", "priv", "typeof", "unsized", "virtual", "yield", "try"]

def unraisable : List String := ["self", "Self", "super", "crate", "_"]

def isWordChar (c : Char) : Bool := c.isAlphanum || c == '_'

/-- The characters with an underscore for each that no word holds. -/
def wordChars (cs : List Char) : List Char := cs.map fun c => if isWordChar c then c else '_'

/-- The name of an endpoint's contract: the verb in capitals, then the path. -/
def identifier (verb : Verb) (path : String) : String := verb.wireName ++ String.ofList (wordChars path.toList)

/-- Word characters that do not start with a digit and are not empty. -/
def startable : List Char → List Char
  | [] => ['_']
  | c :: cs => if c.isDigit then '_' :: c :: cs else c :: cs

/-- The name of a field, and whether it differs from the key it stands for. -/
structure FieldName where
  text : String
  renamed : Bool
  deriving DecidableEq

def fieldName (key : String) : FieldName :=
  let plain := String.ofList (startable (wordChars key.toList))
  if plain ∈ unraisable then ⟨plain ++ "_", true⟩
  else if plain ∈ reservedWords then ⟨"r#" ++ plain, plain != key⟩
  else ⟨plain, plain != key⟩

end ApiContracts.Compile
