import ApiContracts.Rules.NamedType
import ApiContracts.Service.Request
import ApiContracts.Json.Reader
import ApiContracts.Table
import ApiContracts.Text.Blank

/-!
# Decoding sections

A section of a request becomes an object of the keys that its rules declare. Texts are read as what their rule checks for, and stay texts where they cannot be; nothing is refused here. A single text for an array is cut at its commas.
-/

namespace ApiContracts

open Json Decimal Text

def jsonOf? (raw : String) : Option Value := (Value.ofString raw).toOption

/-- What a text is read as for a check, if it can be. -/
def Check.read? (check : Check NamedType) (raw : String) : Option Value :=
  match check with
  | .any | .string => none
  | .number => (finite? (trim raw.toList)).map .double
  | .integer => (signed64 (trim raw.toList)).map .int
  | .boolean => if raw = "true" then some (.bool true) else if raw = "false" then some (.bool false) else none
  | .enum t => if t.accepts (.str raw) then some (.str raw) else (jsonOf? raw).filter t.accepts
  | .nested _ => jsonOf? raw

/-- A text as its check reads it, or as it is. -/
def Check.coerce (check : Check NamedType) (raw : String) : Value := (check.read? raw).getD (.str raw)

/-- The value of the texts sent for a rule's key; without any there is none. -/
def FieldRule.ofTexts (r : FieldRule NamedType) (texts : List String) : Option Value :=
  if r.array then
    match texts with
    | [] => none
    | [single] => some (.arr (((splitText ',' single).filter (!·.isEmpty)).map r.check.coerce))
    | many => some (.arr (many.map r.check.coerce))
  else texts.getLast?.map r.check.coerce

/-- The value that a section of a request holds for a rule. A null in a body counts as nothing. -/
def FieldRule.valueIn (r : FieldRule NamedType) (part : Section) (req : Request) : Option Value :=
  match part with
  | .paths => r.ofTexts (req.pathParam? r.key).toList
  | .query => r.ofTexts (req.queryValues r.key)
  | .headers => r.ofTexts (req.headerValues r.key)
  | .body => ((req.body.bind (·.member? r.key)).filter (!·.isNull))

def SectionRules.decode (s : SectionRules NamedType) (req : Request) : Table Value :=
  s.rules.foldl (fun t r => (r.valueIn s.part req).elim t (t.insert r.key)) Table.empty

end ApiContracts
