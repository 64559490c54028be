import ApiContracts.Compile.Contract
import ApiContracts.Proofs.Text.Pieces
import ApiContracts.Proofs.Text.Literal

/-!
# Names that can be written

The name of a contract is a word, whatever its path. The name of a field has to be more than that: a name that
the language takes, which no reserved word is. It is written raw where that helps and longer where it does not.
What the field is called on the wire is settled by the lines it is declared with, by a rename if there is one and
else by its name, and it is the key it was made from.
-/

namespace ApiContracts.Compile

open Text

/-- Whether a text is made of word characters. -/
def IsWord (s : String) : Prop := ∀ c ∈ s.toList, isWordChar c = true

instance (s : String) : Decidable (IsWord s) :=
  List.decidableBAll (fun c => isWordChar c = true) s.toList

theorem isWord_wordChars (cs : List Char) : IsWord (String.ofList (wordChars cs)) := by
  intro c hc
  rw [String.toList_ofList, wordChars, List.mem_map] at hc
  obtain ⟨d, -, rfl⟩ := hc
  split
  · assumption
  · decide

theorem IsWord.append {a b : String} (ha : IsWord a) (hb : IsWord b) : IsWord (a ++ b) := by
  intro c hc
  rw [String.toList_append, List.mem_append] at hc
  exact hc.elim (ha c) (hb c)

theorem IsWord.filter {s : String} (h : IsWord s) : s.toList.filter isWordChar = s.toList := by
  rw [List.filter_eq_self]
  exact h

theorem IsWord.not_mem {s : String} (h : IsWord s) {c : Char} (hc : isWordChar c = false) :
    c ∉ s.toList := by
  intro hmem
  rw [h c hmem] at hc
  cases hc

theorem IsWord.colon_not_mem {s : String} (h : IsWord s) : ':' ∉ s.toList := by
  exact h.not_mem (by decide)

theorem IsWord.comma_not_mem {s : String} (h : IsWord s) : ',' ∉ s.toList := by
  exact h.not_mem (by decide)

theorem isWord_identifier (v : Verb) (path : String) : IsWord (identifier v path) := by
  have hverb : IsWord v.wireName := by cases v <;> decide
  exact hverb.append (isWord_wordChars _)

/-! ### Names of fields -/

/-- Whether a text can be a name, reserved words aside. -/
structure IsIdentifier (s : String) : Prop where
  ne_empty : s ≠ ""
  ne_underscore : s ≠ "_"
  chars : ∀ c ∈ s.toList, c.isAlphanum = true ∨ c = '_'
  first : ∀ c cs, s.toList = c :: cs → c.isDigit = false

/-- How a name is written: as it is or, if it is reserved, raw. Four reserved words are no names either way. -/
inductive WrittenAs (name : String) : String → Prop where
  | plain (hfree : name ∉ reservedWords) : WrittenAs name name
  | raw (hreserved : name ∈ reservedWords) (hraw : name ∉ ["self", "Self", "super", "crate"]) :
      WrittenAs name ("r#" ++ name)

/-- A name without the sign that it is written raw. -/
def unraised (text : String) : String := (afterStart "r#".toList text.toList).elim text String.ofList

theorem unraised_raw (name : String) : unraised ("r#" ++ name) = name := by
  rw [unraised, String.toList_append, afterStart_append, Option.elim_some, String.ofList_toList]

theorem IsWord.unraised_eq {s : String} (h : IsWord s) : unraised s = s := by
  have hnone : afterStart "r#".toList s.toList = none := by
    rw [Option.eq_none_iff_forall_ne_some]
    intro rest hrest
    have hsign : '#' ∈ s.toList := by
      rw [eq_append_of_afterStart hrest]
      simp
    exact h.not_mem (by decide) hsign
  rw [unraised, hnone, Option.elim_none]

theorem IsIdentifier.isWord {s : String} (h : IsIdentifier s) : IsWord s := by
  intro c hc
  rw [isWordChar, Bool.or_eq_true, beq_iff_eq]
  exact h.chars c hc

theorem WrittenAs.unraised_eq {name text : String} (h : WrittenAs name text) (hname : IsIdentifier name) :
    unraised text = name := by
  cases h with
  | plain => exact hname.isWord.unraised_eq
  | raw => exact unraised_raw name

/-- The words of a key, in a form that does not start with a digit and is not empty. -/
def plainName (key : String) : String := String.ofList (startable (wordChars key.toList))

theorem startable_cases (cs : List Char) :
    startable cs = '_' :: cs ∨ startable cs = cs ∧ ∃ c rest, cs = c :: rest ∧ c.isDigit = false := by
  cases cs with
  | nil => exact Or.inl rfl
  | cons c rest =>
      rw [startable]
      cases hc : c.isDigit with
      | true => exact Or.inl rfl
      | false => exact Or.inr ⟨rfl, c, rest, rfl, hc⟩

theorem isWord_plainName (key : String) : IsWord (plainName key) := by
  have hkey := isWord_wordChars key.toList
  rw [IsWord, String.toList_ofList] at hkey
  rw [IsWord, plainName, String.toList_ofList]
  rcases startable_cases (wordChars key.toList) with hstart | ⟨hstart, -⟩
  · rw [hstart, List.forall_mem_cons]
    exact ⟨by decide, hkey⟩
  · rwa [hstart]

theorem first_plainName (key : String) :
    ∃ c rest, (plainName key).toList = c :: rest ∧ c.isDigit = false := by
  rw [plainName, String.toList_ofList]
  rcases startable_cases (wordChars key.toList) with hstart | ⟨hstart, hfirst⟩
  · exact ⟨'_', _, hstart, by decide⟩
  · rwa [hstart]

theorem length_le_plainName (key : String) : key.length ≤ (plainName key).length := by
  have hwords : (wordChars key.toList).length = key.length := by
    rw [wordChars, List.length_map, String.length_toList]
  rw [plainName, String.length_ofList, ← hwords]
  rcases startable_cases (wordChars key.toList) with hstart | ⟨hstart, -⟩
  · rw [hstart, List.length_cons]
    exact Nat.le_succ _
  · exact Nat.le_of_eq (by rw [hstart])

theorem IsWord.isIdentifier {s : String} (hword : IsWord s) (hne : s ≠ "_")
    (hfirst : ∃ c rest, s.toList = c :: rest ∧ c.isDigit = false) : IsIdentifier s := by
  obtain ⟨c, rest, hs, hc⟩ := hfirst
  refine ⟨?_, hne, ?_, ?_⟩
  · rintro rfl
    cases hs
  · intro x hx
    simpa [isWordChar] using hword x hx
  · intro d rest' hs'
    rw [hs, List.cons.injEq] at hs'
    rw [← hs'.1]
    exact hc

theorem isIdentifier_longer (key : String) : IsIdentifier (plainName key ++ "_") ∧ plainName key ++ "_" ≠ key := by
  obtain ⟨c, rest, hname, hc⟩ := first_plainName key
  have hlonger : (plainName key ++ "_").toList = c :: (rest ++ ['_']) := by
    simp [String.toList_append, hname]
  refine ⟨((isWord_plainName key).append (by decide)).isIdentifier ?_ ⟨c, _, hlonger, hc⟩, ?_⟩
  · intro heq
    rw [heq] at hlonger
    simp at hlonger
  · intro heq
    have hlength := congrArg String.length heq
    have hle := length_le_plainName key
    have hone : "_".length = 1 := by decide
    rw [String.length_append, hone] at hlength
    omega

theorem fieldName_written (key : String) :
    ∃ name, IsIdentifier name ∧ WrittenAs name (fieldName key).text
      ∧ ((fieldName key).renamed = false ↔ name = key) := by
  have heq : fieldName key = if plainName key ∈ unraisable then ⟨plainName key ++ "_", true⟩
      else if plainName key ∈ reservedWords then ⟨"r#" ++ plainName key, plainName key != key⟩
      else ⟨plainName key, plainName key != key⟩ := rfl
  rw [heq]
  split
  · next hunraisable =>
      have hfree : ∀ name ∈ unraisable, name ++ "_" ∉ reservedWords := by decide +kernel
      obtain ⟨hidentifier, hne⟩ := isIdentifier_longer key
      exact ⟨_, hidentifier, .plain (hfree _ hunraisable), by simp [hne]⟩
  · next hraisable =>
      have hne : plainName key ≠ "_" := by
        intro hname
        rw [hname] at hraisable
        exact hraisable (by decide)
      have hraw : plainName key ∉ ["self", "Self", "super", "crate"] :=
        fun hmem => hraisable (List.mem_append_left ["_"] hmem)
      have hidentifier := (isWord_plainName key).isIdentifier hne (first_plainName key)
      split
      · next hreserved => exact ⟨_, hidentifier, .raw hreserved hraw, by simp⟩
      · next hfree => exact ⟨_, hidentifier, .plain hfree, by simp⟩

/-! ### What a field is called on the wire -/

/-- The value of the rename that a line gives. -/
def renameOf? (line : String) : Option String :=
  (afterStart "    #[serde(rename = ".toList line.toList).bind fun literal =>
    match literal? literal with
    | some (value, [')', ']']) => some (String.ofList value)
    | _ => none

def declaredName? (line : String) : Option String :=
  (afterStart "    pub ".toList line.toList).bind fun rest => (cut ':' rest).map fun (name, _) => String.ofList name

/-- What a field is called on the wire by the lines it is declared with: by its rename, or else by its name. -/
def serializedName? (lines : List String) : Option String :=
  (lines.findSome? renameOf?).or ((lines.findSome? declaredName?).map unraised)

theorem renameOf?_literal (key : String) :
    renameOf? ("    #[serde(rename = " ++ quote key ++ ")]") = some key := by
  have hend : ")]".toList = [')', ']'] := rfl
  rw [renameOf?, String.toList_append, String.toList_append, List.append_assoc, afterStart_append,
    Option.bind_some, hend, literal?_quote]
  simp only [String.ofList_toList]

theorem declaredName?_field {text : String} (h : ':' ∉ text.toList) (rest : String) :
    declaredName? ("    pub " ++ text ++ ": " ++ rest) = some text := by
  have hcolon : ": ".toList = [':', ' '] := rfl
  rw [declaredName?, String.append_assoc, String.append_assoc, String.toList_append, afterStart_append,
    Option.bind_some, String.toList_append, String.toList_append, hcolon, List.cons_append, cut_append h,
    Option.map_some]
  simp only [String.ofList_toList]

theorem WrittenAs.colon_not_mem {name text : String} (h : WrittenAs name text) (hname : IsIdentifier name) :
    ':' ∉ text.toList := by
  cases h with
  | plain => exact hname.isWord.colon_not_mem
  | raw =>
      have hsign : ':' ∉ "r#".toList := by decide
      rw [String.toList_append, List.mem_append, not_or]
      exact ⟨hsign, hname.isWord.colon_not_mem⟩

theorem renameOf?_field (rest : String) : renameOf? ("    pub " ++ rest) = none := by
  have hparts : afterStart "    #[serde(rename = ".toList "    pub ".toList = none
      ∧ afterStart "    pub ".toList "    #[serde(rename = ".toList = none := by decide +kernel
  rw [renameOf?, String.toList_append, afterStart_append_eq_none hparts.1 hparts.2, Option.bind_none]

theorem readings_default :
    renameOf? "    #[serde(default, skip_serializing_if = \"Option::is_none\")]" = none
      ∧ declaredName? "    #[serde(default, skip_serializing_if = \"Option::is_none\")]" = none := by
  have hrename : afterStart "    #[serde(rename = ".toList
      "    #[serde(default, skip_serializing_if = \"Option::is_none\")]".toList = none := by decide +kernel
  have hname : afterStart "    pub ".toList
      "    #[serde(default, skip_serializing_if = \"Option::is_none\")]".toList = none := by decide +kernel
  rw [renameOf?, hrename, declaredName?, hname, Option.bind_none, Option.bind_none]
  exact ⟨rfl, rfl⟩

def declaringLines (text : String) (type : WrappedType) : List String :=
  (if type.optional then ["    #[serde(default, skip_serializing_if = \"Option::is_none\")]"] else []) ++
    [s!"    pub {text}: {type.typeText},"]

theorem fieldLines_eq (f : SectionField) :
    Contract.fieldLines f = Contract.renameLines f ++ declaringLines f.name.text f.type := by
  exact List.append_assoc _ _ _

theorem readings_declaringLines {text : String} (h : ':' ∉ text.toList) (type : WrappedType) :
    (declaringLines text type).findSome? renameOf? = none
      ∧ (declaringLines text type).findSome? declaredName? = some text := by
  have hline : s!"    pub {text}: {type.typeText}," = "    pub " ++ text ++ ": " ++ (type.typeText ++ ",") := by
    rw [← String.append_assoc]
    rfl
  have hrename : renameOf? ("    pub " ++ text ++ ": " ++ (type.typeText ++ ",")) = none := by
    rw [String.append_assoc, String.append_assoc]
    exact renameOf?_field _
  have hdeclared := declaredName?_field h (type.typeText ++ ",")
  rw [declaringLines, hline]
  split
  · simp [readings_default, hrename, hdeclared]
  · simp [hrename, hdeclared]

theorem serializedName?_fieldLines (key : String) (type : WrappedType) (rule : FieldRule String) :
    serializedName? (Contract.fieldLines ⟨fieldName key, key, type, rule⟩) = some key := by
  obtain ⟨name, hidentifier, hwritten, hrenamed⟩ := fieldName_written key
  obtain ⟨hnone, hdeclared⟩ := readings_declaringLines (hwritten.colon_not_mem hidentifier) type
  rw [fieldLines_eq, serializedName?, List.findSome?_append, List.findSome?_append]
  simp only [hnone, hdeclared, Contract.renameLines]
  cases h : (fieldName key).renamed with
  | true =>
      have hliteral : renameOf? s!"    #[serde(rename = {quote key})]" = some key := renameOf?_literal key
      simp [hliteral]
  | false => simp [hwritten.unraised_eq hidentifier, hrenamed.1 h]

/-- The name of a field is one that the language takes, and not reserved unless it is written raw; it is renamed
exactly if it is not the key, and so the lines that declare it give it the key on the wire. -/
theorem fieldName_valid_and_keyed (key : String) :
    let field := fieldName key
    let name := unraised field.text
    IsIdentifier name
      ∧ WrittenAs name field.text
      ∧ (field.renamed = false ↔ name = key)
      ∧ ∀ type rule, serializedName? (Contract.fieldLines ⟨field, key, type, rule⟩) = some key := by
  intro field name
  obtain ⟨name', hidentifier, hwritten, hrenamed⟩ := fieldName_written key
  have hname : name = name' := hwritten.unraised_eq hidentifier
  rw [hname]
  exact ⟨hidentifier, hwritten, hrenamed, serializedName?_fieldLines key⟩

/-- A reserved word, one that has no raw form, and keys that are no names. -/
example : ["type", "self", "1st", "x-id", ""].map fieldName
    = [⟨"r#type", false⟩, ⟨"self_", true⟩, ⟨"_1st", true⟩, ⟨"x_id", true⟩, ⟨"__", true⟩] := by
  decide +kernel

end ApiContracts.Compile
