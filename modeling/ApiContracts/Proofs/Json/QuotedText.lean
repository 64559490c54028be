import ApiContracts.Json.Printer
import ApiContracts.Json.Reader
import ApiContracts.Proofs.Text.Utf8

/-!
# Reading back quoted texts

A reader that meets the bytes it is meant for answers, and goes on right behind them, whatever follows. For a
quoted text this holds character by character: one that is written as it is passes byte for byte, since no
byte of it is a quote, a backslash or a control character, and an escape gives back the character it stands
for.
-/

namespace ApiContracts.Json

open Text

/-! ### Places -/

namespace Cursor

variable {c : Cursor} {rest : List UInt8}

theorem rest_next (c : Cursor) : c.next.rest = c.rest.tail := by
  unfold next
  split
  · next h => simp [h]
  · next h =>
      rw [h]
      split <;> rfl

theorem rest_advance (n : Nat) (c : Cursor) : (advance n c).rest = c.rest.drop n := by
  induction n generalizing c with
  | zero => rfl
  | succ n ih => rw [advance, ih, rest_next, List.drop_tail]

theorem advance_advance (m n : Nat) (c : Cursor) : advance n (advance m c) = advance (m + n) c := by
  induction m generalizing c with
  | zero => rw [advance, Nat.zero_add]
  | succ m ih => rw [advance, ih, Nat.succ_add, advance]

theorem next_eq_advance (c : Cursor) : c.next = advance 1 c := by
  rfl

theorem rest_behind {bytes : List UInt8} (h : c.rest = bytes ++ rest) :
    (advance bytes.length c).rest = rest := by
  rw [rest_advance, h, List.drop_left]

theorem rest_next_of_cons {b : UInt8} (h : c.rest = b :: rest) : c.next.rest = rest := by
  rw [rest_next, h, List.tail_cons]

theorem skipBlanks_of_cons {b : UInt8} (h : c.rest = b :: rest) (hb : isJsonBlank b = false) :
    c.skipBlanks = c := by
  rw [skipBlanks, h, List.takeWhile_cons_of_neg (by simp [hb])]
  rfl

theorem skipBlanks_of_nil (h : c.rest = []) : c.skipBlanks = c := by
  rw [skipBlanks, h]
  rfl

end Cursor

section Characters

variable {c : Cursor} {rest : List UInt8}

/-! ### Characters as they are -/

def IsPlainByte (b : UInt8) : Prop := 0x20 ≤ b.toNat ∧ b ≠ 0x22 ∧ b ≠ 0x5c

theorem isPlainByte_of_mem {ch : Char} (hcontrol : 0x20 ≤ ch.toNat) (hquote : ch ≠ '"') (hbackslash : ch ≠ '\\')
    {b : UInt8} (h : b ∈ String.utf8EncodeChar ch) : IsPlainByte b := by
  have hb := toNat_of_mem_utf8EncodeChar h
  have hne : ∀ d : Char, d.toNat < 0x80 → ch ≠ d → b.toNat ≠ d.toNat := by
    intro d hd hch heq
    refine hch (Char.ext (UInt32.toNat_inj.1 ?_))
    show ch.toNat = d.toNat
    omega
  refine ⟨by omega, ?_, ?_⟩
  · rintro rfl
    exact hne '"' (by decide) hquote rfl
  · rintro rfl
    exact hne '\\' (by decide) hbackslash rfl

theorem readStringBytes_plain {bytes : List UInt8} (hplain : ∀ b ∈ bytes, IsPlainByte b) (fuel : Nat)
    (seen : List UInt8) (h : c.rest = bytes ++ rest) :
    readStringBytes (fuel + bytes.length) seen c
      = readStringBytes fuel (bytes.reverse ++ seen) (c.advance bytes.length) := by
  induction bytes generalizing c seen with
  | nil => rfl
  | cons b bytes ih =>
      obtain ⟨hcontrol, hquote, hbackslash⟩ := hplain b List.mem_cons_self
      have hlt : ¬ b < 0x20 := by
        simp only [UInt8.lt_iff_toNat_lt, UInt8.reduceToNat]
        omega
      have hbytes : ∀ b ∈ bytes, IsPlainByte b := fun b hb => hplain b (List.mem_cons_of_mem _ hb)
      rw [List.length_cons, ← Nat.add_assoc, readStringBytes, h]
      simp only [List.cons_append, beq_eq_false_iff_ne.2 hquote, beq_eq_false_iff_ne.2 hbackslash, if_neg hlt,
        Bool.false_eq_true, if_false]
      rw [ih hbytes _ (Cursor.rest_next_of_cons h), List.reverse_cons, List.append_assoc]
      rfl

/-! ### Escapes -/

theorem readHex_of_cons {a b d e : UInt8} {n : Nat} (h : c.rest = a :: b :: d :: e :: rest)
    (hn : natural 16 ([a, b, d, e].map fun x => Char.ofNat x.toNat) = some n) :
    readHex c = .ok (n, c.advance 4) := by
  unfold readHex
  rw [h]
  simp only [hn]

/-- The bytes of an escape behind its backslash give the character that is escaped. -/
def Escapes (bytes : List UInt8) (ch : Char) : Prop :=
  ∀ (c : Cursor) (rest : List UInt8), c.rest = bytes ++ rest → readEscape c = .ok (ch, c.advance bytes.length)

theorem readUnicode_of_low {n : Nat} (hhex : readHex c = .ok (n, c.advance 4)) (hn : n < 0xd800) :
    readUnicode c = .ok (Char.ofNat n, c.advance 4) := by
  have hsurrogate : ¬ (decide (0xdc00 ≤ n) && decide (n ≤ 0xdfff)) = true := by
    simp only [Bool.and_eq_true, decide_eq_true_eq]
    omega
  have hlow : (decide (n < 0xd800) || decide (0xdbff < n)) = true := by
    simp only [Bool.or_eq_true, decide_eq_true_eq]
    omega
  rw [readUnicode, hhex]
  show (if _ then _ else if _ then _ else _) = _
  rw [if_neg hsurrogate, if_pos hlow]
  rfl

def digitByte (n : Nat) : UInt8 := if n < 10 then .ofNat (0x30 + n) else .ofNat (0x57 + n)

theorem natural_digitBytes : ∀ n < 32,
    natural 16 ([0x30, 0x30, digitByte (n / 16), digitByte (n % 16)].map fun x => Char.ofNat x.toNat) = some n := by
  decide +kernel

theorem encode_hexDigits_one : ∀ n < 16, encode (['\\', 'u', '0', '0', '0'] ++ hexDigits n)
    = [0x5c, 0x75, 0x30, 0x30, digitByte (n / 16), digitByte (n % 16)] := by
  decide +kernel

theorem encode_hexDigits_two : ∀ n < 32, 16 ≤ n → encode (['\\', 'u', '0', '0'] ++ hexDigits n)
    = [0x5c, 0x75, 0x30, 0x30, digitByte (n / 16), digitByte (n % 16)] := by
  decide +kernel

theorem escapes_number {ch : Char} (hch : ch.toNat < 32) :
    Escapes [0x75, 0x30, 0x30, digitByte (ch.toNat / 16), digitByte (ch.toNat % 16)] ch := by
  intro c rest h
  have hhex := readHex_of_cons (Cursor.rest_next_of_cons h) (natural_digitBytes _ hch)
  rw [readEscape, h]
  show readUnicode c.next = _
  rw [readUnicode_of_low hhex (by omega), Char.ofNat_toNat]
  rfl

/-- The letters of the escapes that a printer writes without a number, with what they stand for. -/
def shortEscapes : List (UInt8 × Char) :=
  [(0x22, '"'), (0x5c, '\\'), (0x6e, '\n'), (0x72, '\r'), (0x74, '\t'), (0x62, '\x08'), (0x66, '\x0c')]

theorem escapes_short {b : UInt8} {ch : Char} (h : (b, ch) ∈ shortEscapes) : Escapes [b] ch := by
  intro c rest hrest
  rw [readEscape, hrest]
  simp only [shortEscapes, List.mem_cons, Prod.mk.injEq, List.not_mem_nil, or_false] at h
  obtain ⟨rfl, rfl⟩ | ⟨rfl, rfl⟩ | ⟨rfl, rfl⟩ | ⟨rfl, rfl⟩ | ⟨rfl, rfl⟩ | ⟨rfl, rfl⟩ | ⟨rfl, rfl⟩ := h <;> rfl

theorem encode_escapeJsonChar_short : ∀ e ∈ shortEscapes, encode (escapeJsonChar e.2) = [0x5c, e.1] := by
  decide +kernel

theorem escapeJsonChar_of_not_short {ch : Char} (h : ∀ b, (b, ch) ∉ shortEscapes) :
    escapeJsonChar ch = if ch.toNat < 16 then ['\\', 'u', '0', '0', '0'] ++ hexDigits ch.toNat
      else if ch.toNat < 32 then ['\\', 'u', '0', '0'] ++ hexDigits ch.toNat else [ch] := by
  have hne : ∀ e ∈ shortEscapes, ch ≠ e.2 := by
    intro e he heq
    exact h e.1 (heq ▸ he)
  simp only [shortEscapes, List.forall_mem_cons] at hne
  obtain ⟨hquote, hbackslash, hfeed, hreturn, htab, hback, hpage, -⟩ := hne
  rw [escapeJsonChar, if_neg hquote, if_neg hbackslash, if_neg hfeed, if_neg hreturn, if_neg htab, if_neg hback,
    if_neg hpage]

theorem encode_escapeJsonChar (ch : Char) :
    (encode (escapeJsonChar ch) = encode [ch] ∧ ∀ b ∈ encode [ch], IsPlainByte b)
      ∨ ∃ bytes, encode (escapeJsonChar ch) = 0x5c :: bytes ∧ Escapes bytes ch := by
  by_cases hshort : ∃ b, (b, ch) ∈ shortEscapes
  · obtain ⟨b, hb⟩ := hshort
    exact Or.inr ⟨[b], encode_escapeJsonChar_short _ hb, escapes_short hb⟩
  · rw [not_exists] at hshort
    rw [escapeJsonChar_of_not_short hshort]
    by_cases hcontrol : ch.toNat < 32
    · right
      refine ⟨_, ?_, escapes_number hcontrol⟩
      by_cases hone : ch.toNat < 16
      · rw [if_pos hone]
        exact encode_hexDigits_one _ hone
      · rw [if_neg hone, if_pos hcontrol]
        exact encode_hexDigits_two _ hcontrol (Nat.not_lt.1 hone)
    · left
      rw [if_neg (by omega), if_neg hcontrol]
      refine ⟨rfl, ?_⟩
      intro b hb
      rw [encode, List.flatMap_singleton] at hb
      refine isPlainByte_of_mem (Nat.not_lt.1 hcontrol) ?_ ?_ hb
      · rintro rfl
        exact hshort 0x22 (by decide)
      · rintro rfl
        exact hshort 0x5c (by decide)

/-! ### Quoted texts -/

theorem readStringBytes_char (ch : Char) (h : c.rest = encode (escapeJsonChar ch) ++ rest) :
    ∃ steps ≤ (encode (escapeJsonChar ch)).length, ∀ fuel seen, readStringBytes (fuel + steps) seen c
      = readStringBytes fuel ((encode [ch]).reverse ++ seen) (c.advance (encode (escapeJsonChar ch)).length) := by
  obtain ⟨htext, hplain⟩ | ⟨bytes, htext, hescapes⟩ := encode_escapeJsonChar ch
  · rw [htext] at h ⊢
    exact ⟨_, Nat.le_refl _, fun fuel seen => readStringBytes_plain hplain fuel seen h⟩
  · rw [htext] at h ⊢
    refine ⟨1, by simp, ?_⟩
    intro fuel seen
    rw [readStringBytes, h]
    simp only [List.cons_append]
    rw [if_neg (by decide), if_pos (by decide), hescapes c.next rest (Cursor.rest_next_of_cons h)]
    rfl

theorem readStringBytes_text (cs : List Char) {fuel : Nat} (seen : List UInt8)
    (h : c.rest = encode (cs.flatMap escapeJsonChar) ++ 0x22 :: rest)
    (hfuel : (encode (cs.flatMap escapeJsonChar)).length < fuel) :
    readStringBytes fuel seen c
      = .ok ((encode cs).reverse ++ seen, c.advance ((encode (cs.flatMap escapeJsonChar)).length + 1)) := by
  induction cs generalizing c fuel seen with
  | nil =>
      cases fuel with
      | zero => exact absurd hfuel (Nat.not_lt_zero _)
      | succ fuel =>
          rw [List.flatMap_nil] at h
          rw [readStringBytes, h]
          rfl
  | cons ch cs ih =>
      have hencode : encode ((ch :: cs).flatMap escapeJsonChar)
          = encode (escapeJsonChar ch) ++ encode (cs.flatMap escapeJsonChar) := by
        rw [List.flatMap_cons, encode_append]
      have hchars : encode (ch :: cs) = encode [ch] ++ encode cs := encode_append [ch] cs
      rw [hencode, List.append_assoc] at h
      rw [hencode, List.length_append] at hfuel ⊢
      obtain ⟨steps, hsteps, hread⟩ := readStringBytes_char ch h
      obtain ⟨left, rfl⟩ := Nat.exists_eq_add_of_le' (show steps ≤ fuel by omega)
      rw [hread, ih _ (Cursor.rest_behind h) (by omega), Cursor.advance_advance, hchars, List.reverse_append,
        List.append_assoc, Nat.add_assoc]

theorem bytesOf_stringText (s : String) :
    bytesOf (stringText s) = 0x22 :: (encode (s.toList.flatMap escapeJsonChar) ++ [0x22]) := by
  rw [bytesOf_eq_encode, stringText, String.toList_ofList, List.cons_append]
  show encode (['"'] ++ (s.toList.flatMap escapeJsonChar ++ ['"'])) = _
  rw [encode_append, encode_append]
  rfl

/-- A quoted text reads as the text, from behind its opening quote. -/
theorem readString_stringText {s : String} (h : c.rest = bytesOf (stringText s) ++ rest) :
    readString c.next = .ok (s, c.advance (bytesOf (stringText s)).length) := by
  rw [bytesOf_stringText] at h ⊢
  have hbehind : c.next.rest = encode (s.toList.flatMap escapeJsonChar) ++ 0x22 :: rest := by
    rw [Cursor.rest_next, h, List.cons_append, List.tail_cons, List.append_assoc]
    rfl
  have hfuel : (encode (s.toList.flatMap escapeJsonChar)).length < c.next.rest.length + 1 := by
    rw [hbehind, List.length_append]
    omega
  rw [readString, readStringBytes_text s.toList [] hbehind hfuel]
  simp only [bind, Except.bind, List.append_nil, List.reverse_reverse, decode?_encode, String.ofList_toList]
  rw [List.length_cons, List.length_append]
  rfl

end Characters

end ApiContracts.Json
