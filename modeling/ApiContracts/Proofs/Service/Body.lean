import ApiContracts.Proofs.Except
import ApiContracts.Proofs.Text.Numeral
import ApiContracts.Proofs.Text.Pieces
import ApiContracts.Service.Exchange
import ApiContracts.Settings

/-!
# Bodies within a limit

A body is read up to the first byte over the limit, and that byte is what it is refused for. No size tells the place
of that byte when the limit is the greatest size, but then no body has one. So with every limit, what has been read
is too long exactly if the body is, and otherwise it is the whole body (`readLimited_eq`). Only then is it asked
whether the body has more than blanks in it, whether its content type is one of JSON, and last which value it tells.
-/

namespace ApiContracts

open Json Text

variable {limit : Nat} {bytes : List UInt8} {contentType : Option String}

/-- What is read of a body is all of it, or is too long because the body is. -/
theorem readLimited_eq (hlimit : limit ≤ maxSize) (hbytes : limit = maxSize → bytes.length ≤ maxSize) :
    readLimited limit bytes = if limit < bytes.length then .error (.tooLarge limit) else .ok bytes := by
  have hlong : (bytes.take (min (limit + 1) maxSize)).length > limit ↔ limit < bytes.length := by
    rw [List.length_take]
    omega
  rw [readLimited]
  split
  · next h => rw [if_pos (hlong.1 h)]
  · next h =>
      rw [hlong] at h
      rw [if_neg h, List.take_of_length_le]
      omega

theorem size?_le {s : String} {n : Nat} (h : size? s = some n) : n ≤ maxSize := by
  rw [size?] at h
  split at h
  · exact bounded_le h
  · exact bounded_le h

/-- The limit of an application that is set up by its environment is a size, whatever stands there. -/
theorem Settings.bodyLimit_le_maxSize (env : Environment) : (Settings.ofEnvironment env).bodyLimit ≤ maxSize := by
  show ((env.lookup "ABSTRACTAPI_BODY_LIMIT").bind size?).getD (5 * 1024 * 1024) ≤ maxSize
  cases hsize : (env.lookup "ABSTRACTAPI_BODY_LIMIT").bind size? with
  | none => decide
  | some n =>
      obtain ⟨s, -, hs⟩ := Option.bind_eq_some_iff.1 hsize
      exact size?_le hs

/-! ### Bodies that are not read as JSON -/

def blankBytes : List UInt8 := [0x20, 0x09, 0x0a, 0x0c, 0x0d]

/-- Whether `json` stands somewhere in a content type, in any letter case. -/
def NamesJson (contentType : String) : Prop :=
  ∃ word : String, sameLetters word "json" = true ∧ word.toList <:+: contentType.toList

/-- Whether a body is blank, or has a content type that does not name JSON. -/
def LeftUnread (contentType : Option String) (bytes : List UInt8) : Prop :=
  (∀ b ∈ bytes, b ∈ blankBytes) ∨ ∃ t, contentType = some t ∧ ¬ NamesJson t

theorem isBlankByte_iff {b : UInt8} : isBlankByte b = true ↔ b ∈ blankBytes := by
  simp [isBlankByte, blankBytes, or_assoc]

theorem holds_json_iff {t : String} : holds "json".toList (lower t).toList = true ↔ NamesJson t := by
  have htext : (lower t).toList = t.toList.map Char.toLower := String.toList_ofList
  have hword (word : String) : sameLetters word "json" = true ↔ "json".toList = word.toList.map Char.toLower := by
    have hjson : lower "json" = "json" := by decide +kernel
    rw [sameLetters, beq_iff_eq, hjson, ← String.toList_inj, lower, String.toList_ofList, eq_comm]
  rw [holds_iff, htext, List.infix_map_iff]
  constructor
  · rintro ⟨cs, hcs, hjson⟩
    have hback : (String.ofList cs).toList = cs := String.toList_ofList
    refine ⟨String.ofList cs, ?_, by rwa [hback]⟩
    rw [hword, hback]
    exact hjson
  · rintro ⟨word, hjson, hinfix⟩
    exact ⟨word.toList, hinfix, (hword word).1 hjson⟩

theorem isJsonContent_eq_false :
    isJsonContent contentType = false ↔ ∃ t, contentType = some t ∧ ¬ NamesJson t := by
  cases contentType with
  | none => simp [isJsonContent]
  | some t => simp [isJsonContent, ← holds_json_iff]

theorem leftUnread_iff :
    (bytes.all isBlankByte || !isJsonContent contentType) = true ↔ LeftUnread contentType bytes := by
  rw [Bool.or_eq_true, List.all_eq_true, Bool.not_eq_true', isJsonContent_eq_false, LeftUnread]
  simp only [isBlankByte_iff]

/-! ### The three decisions -/

section Decisions

variable (hlimit : limit ≤ maxSize) (hbytes : limit = maxSize → bytes.length ≤ maxSize)
include hlimit hbytes

theorem readBody_eq : readBody limit contentType bytes =
    if limit < bytes.length then .error (.tooLarge limit)
    else if bytes.all isBlankByte || !isJsonContent contentType then .ok none
    else ((Value.ofBytes bytes).mapError fun e => .malformedJson e.message).map some := by
  rw [readBody, readLimited_eq hlimit hbytes]
  split <;> rfl

theorem readBody_eq_tooLarge {n : Nat} :
    readBody limit contentType bytes = .error (.tooLarge n) ↔ n = limit ∧ limit < bytes.length := by
  rw [readBody_eq hlimit hbytes]
  split
  · next hlong => simp [hlong, eq_comm]
  · next hwithin =>
      refine iff_of_false ?_ fun h => hwithin h.2
      split
      · simp
      · rw [map_eq_error, mapError_eq_error]
        rintro ⟨fault, -, h⟩
        cases h

theorem readBody_eq_none :
    readBody limit contentType bytes = .ok none ↔ bytes.length ≤ limit ∧ LeftUnread contentType bytes := by
  rw [readBody_eq hlimit hbytes, ← leftUnread_iff, ← Nat.not_lt]
  split
  · next hlong => simp [hlong]
  · next hwithin =>
      split
      · next hunread => simp [hwithin, hunread]
      · next hread =>
          refine iff_of_false ?_ fun h => hread h.2
          rw [map_eq_ok]
          rintro ⟨v, -, h⟩
          cases h

theorem readBody_of_read (hwithin : bytes.length ≤ limit) (hread : ¬ LeftUnread contentType bytes) :
    readBody limit contentType bytes
      = ((Value.ofBytes bytes).mapError fun e => .malformedJson e.message).map some := by
  rw [readBody_eq hlimit hbytes, if_neg (Nat.not_lt_of_le hwithin), if_neg (mt leftUnread_iff.1 hread)]

end Decisions

/-- With any limit, up to the greatest of all, a body is refused exactly if it is longer, whatever is in it. A body
within the limit is left unread exactly if it is blank or its content type does not name JSON, and any other is
read as it is, to its last byte. That the length of a body is a size too matters with the greatest limit only. -/
theorem body_refused_or_read_whole (limit : Nat) (contentType : Option String) (bytes : List UInt8)
    (hlimit : limit ≤ maxSize) (hbytes : limit = maxSize → bytes.length ≤ maxSize) :
    let answer := readBody limit contentType bytes
    (∀ n, answer = .error (.tooLarge n) ↔ n = limit ∧ limit < bytes.length)
      ∧ (answer = .ok none ↔ bytes.length ≤ limit ∧ LeftUnread contentType bytes)
      ∧ (bytes.length ≤ limit → ¬ LeftUnread contentType bytes →
          answer = ((Value.ofBytes bytes).mapError fun e => .malformedJson e.message).map some) :=
  ⟨fun _ => readBody_eq_tooLarge hlimit hbytes, readBody_eq_none hlimit hbytes, readBody_of_read hlimit hbytes⟩

/-- With its length as the limit, or with the greatest limit, a list is read. With one byte less it is refused,
although the bytes within that limit are a list too. -/
theorem list_read_at_bounds :
    let bytes := bytesOf "[] "
    maxSize ≤ maxSize ∧ bytes.length ≤ maxSize
      ∧ readBody maxSize (some "Application/Problem+JSON") bytes = .ok (some (.arr []))
      ∧ readBody maxSize (some "text/plain") bytes = .ok none
      ∧ readBody 3 none bytes = .ok (some (.arr []))
      ∧ readBody 2 none bytes = .error (.tooLarge 2) := by
  intro bytes
  have hbytes : bytes = [0x5b, 0x5d, 0x20] := by decide +kernel
  have hlength : bytes.length = 3 := by rw [hbytes]; rfl
  have hsize : bytes.length ≤ maxSize := by rw [hlength]; decide
  have hvalue : Value.ofBytes bytes = .ok (.arr []) := by rw [hbytes]; rfl
  have hanswer (limit : Nat) (h : limit ≤ maxSize) (contentType : Option String) :=
    body_refused_or_read_whole limit contentType bytes h fun _ => hsize
  refine ⟨Nat.le_refl _, hsize, ?_, ?_, ?_, ?_⟩
  · obtain ⟨-, -, hread⟩ := hanswer maxSize (Nat.le_refl _) (some "Application/Problem+JSON")
    rw [hread hsize ?_, hvalue]
    · rfl
    · rw [← leftUnread_iff]
      decide +kernel
  · obtain ⟨-, hblank, -⟩ := hanswer maxSize (Nat.le_refl _) (some "text/plain")
    rw [hblank, ← leftUnread_iff]
    exact ⟨hsize, by decide +kernel⟩
  · obtain ⟨-, -, hread⟩ := hanswer 3 (by decide) none
    rw [hread (Nat.le_of_eq hlength) ?_, hvalue]
    · rfl
    · rw [← leftUnread_iff]
      decide +kernel
  · obtain ⟨htooLarge, -, -⟩ := hanswer 2 (by decide) none
    rw [htooLarge, hlength]
    decide

end ApiContracts
