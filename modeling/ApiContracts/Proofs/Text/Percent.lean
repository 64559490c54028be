import ApiContracts.Proofs.Text.Utf8
import ApiContracts.Text.Percent
import Mathlib.Data.List.Forall2

/-!
# What is sent percent-encoded

A sender writes each character of a text as it is, or byte by byte with a percent sign and two digits before
the next. The reader cannot tell which it was and need not: a percent sign is never sent as it is, so each one
that arrives starts a byte, and no byte of any other character looks like one. What is read is therefore the
bytes of the text in order, and from all of them together the text.
-/

namespace ApiContracts.Text

def IsHexDigit (n : Nat) (c : Char) : Prop := c = n.digitChar ∨ c = n.digitChar.toUpper

instance (n : Nat) (c : Char) : Decidable (IsHexDigit n c) := inferInstanceAs (Decidable (_ ∨ _))

/-- Whether characters write one byte: a percent sign and its two digits. -/
inductive EncodesByte (b : UInt8) : List Char → Prop where
  | mk {high low : Char} (hhigh : IsHexDigit (b.toNat / 16) high) (hlow : IsHexDigit (b.toNat % 16) low) :
      EncodesByte b ['%', high, low]

/-- Whether characters write one character of a value in the path of a target. -/
inductive EncodesChar (c : Char) : List Char → Prop where
  | asItIs (hpercent : c ≠ '%') (hslash : c ≠ '/') (hmark : c ≠ '?') : EncodesChar c [c]
  | byBytes {parts : List (List Char)} (hparts : List.Forall₂ EncodesByte (String.utf8EncodeChar c) parts) :
      EncodesChar c parts.flatten

/-- Whether a text is a value written in one of these ways, chosen anew for each character. -/
def PercentEncodes (value sent : String) : Prop :=
  ∃ parts, List.Forall₂ EncodesChar value.toList parts ∧ sent.toList = parts.flatten

/-! ### Digits -/

theorem of_isHexDigit {p : Nat → Char → Prop} (hall : ∀ n < 16, p n n.digitChar ∧ p n n.digitChar.toUpper) {n : Nat}
    {c : Char} (hn : n < 16) (hc : IsHexDigit n c) : p n c := by
  obtain ⟨hlower, hupper⟩ := hall n hn
  rcases hc with rfl | rfl
  · exact hlower
  · exact hupper

theorem hexByte_of_isHexDigit {n : Nat} {c : Char} (hn : n < 16) (hc : IsHexDigit n c) :
    ∃ b, String.utf8EncodeChar c = [b] ∧ hexByte b = some n := by
  have hall : ∀ n < 16, (String.utf8EncodeChar n.digitChar).map hexByte = [some n]
      ∧ (String.utf8EncodeChar n.digitChar.toUpper).map hexByte = [some n] := by decide +kernel
  have hmap := of_isHexDigit (p := fun n c => (String.utf8EncodeChar c).map hexByte = [some n]) hall hn hc
  obtain ⟨b, hb, hdigit⟩ := List.map_eq_singleton_iff.1 hmap
  exact ⟨b, hb, hdigit⟩

theorem ne_of_isHexDigit {n : Nat} {c : Char} (hn : n < 16) (hc : IsHexDigit n c) : c ≠ '/' ∧ c ≠ '?' := by
  have hall : ∀ n < 16, (n.digitChar ≠ '/' ∧ n.digitChar ≠ '?')
      ∧ n.digitChar.toUpper ≠ '/' ∧ n.digitChar.toUpper ≠ '?' := by decide +kernel
  exact of_isHexDigit (p := fun _ c => c ≠ '/' ∧ c ≠ '?') hall hn hc

theorem nibbles_lt (b : UInt8) : b.toNat / 16 < 16 ∧ b.toNat % 16 < 16 := by
  have hb := b.toNat_lt
  omega

/-! ### What is never sent -/

theorem forall_mem_flatten {α : Type} {R : α → List Char → Prop} {p : Char → Prop}
    (hR : ∀ a w, R a w → ∀ c ∈ w, p c) {as : List α} {parts : List (List Char)} (h : List.Forall₂ R as parts) :
    ∀ c ∈ parts.flatten, p c := by
  induction h with
  | nil => simp
  | cons hpart _ ih =>
      rw [List.flatten_cons, List.forall_mem_append]
      exact ⟨hR _ _ hpart, ih⟩

theorem EncodesByte.ne {b : UInt8} {w : List Char} (h : EncodesByte b w) : ∀ x ∈ w, x ≠ '/' ∧ x ≠ '?' := by
  obtain ⟨hhigh, hlow⟩ := h
  simp only [List.forall_mem_cons]
  exact ⟨by decide, ne_of_isHexDigit (nibbles_lt b).1 hhigh, ne_of_isHexDigit (nibbles_lt b).2 hlow, by simp⟩

theorem EncodesChar.ne {c : Char} {w : List Char} (h : EncodesChar c w) : ∀ x ∈ w, x ≠ '/' ∧ x ≠ '?' := by
  cases h with
  | asItIs _ hslash hmark => simp [hslash, hmark]
  | byBytes hparts => exact forall_mem_flatten (fun _ _ h => h.ne) hparts

/-! ### Decoding -/

section Decoding

variable {b : UInt8} {rest : List UInt8}

theorem percentDecodeBytes_cons (hb : b ≠ 0x25) : percentDecodeBytes (b :: rest) = b :: percentDecodeBytes rest := by
  rcases rest with _ | ⟨high, _ | ⟨low, rest⟩⟩
  · rfl
  · rfl
  · rw [percentDecodeBytes, if_neg (by simpa using hb)]

theorem percentDecodeBytes_append {bytes : List UInt8} (h : ∀ b ∈ bytes, b ≠ 0x25) :
    percentDecodeBytes (bytes ++ rest) = bytes ++ percentDecodeBytes rest := by
  induction bytes with
  | nil => rfl
  | cons b bytes ih =>
      rw [List.forall_mem_cons] at h
      rw [List.cons_append, percentDecodeBytes_cons h.1, ih h.2, List.cons_append]

theorem percentDecodeBytes_encodesByte {w : List Char} (h : EncodesByte b w) :
    percentDecodeBytes (encode w ++ rest) = b :: percentDecodeBytes rest := by
  obtain ⟨hhigh, hlow⟩ := h
  next high low =>
  obtain ⟨high', hhighBytes, hhighValue⟩ := hexByte_of_isHexDigit (nibbles_lt b).1 hhigh
  obtain ⟨low', hlowBytes, hlowValue⟩ := hexByte_of_isHexDigit (nibbles_lt b).2 hlow
  have hbytes : encode ['%', high, low] = [0x25, high', low'] := by
    have hpercent : String.utf8EncodeChar '%' = [0x25] := by decide
    simp [encode, hpercent, hhighBytes, hlowBytes]
  have hb : UInt8.ofNat (b.toNat / 16 * 16 + b.toNat % 16) = b := by
    rw [Nat.div_add_mod', UInt8.ofNat_toNat]
  rw [hbytes, List.cons_append, List.cons_append, List.cons_append, List.nil_append, percentDecodeBytes]
  simp only [beq_self_eq_true, if_true, hhighValue, hlowValue, hb]

theorem percentDecodeBytes_encodesBytes {bytes : List UInt8} {parts : List (List Char)}
    (h : List.Forall₂ EncodesByte bytes parts) :
    percentDecodeBytes (encode parts.flatten ++ rest) = bytes ++ percentDecodeBytes rest := by
  induction h with
  | nil => rfl
  | cons hpart _ ih =>
      rw [List.flatten_cons, encode_append, List.append_assoc, percentDecodeBytes_encodesByte hpart, ih,
        List.cons_append]

theorem percentDecodeBytes_encodesChar {c : Char} {w : List Char} (h : EncodesChar c w) :
    percentDecodeBytes (encode w ++ rest) = String.utf8EncodeChar c ++ percentDecodeBytes rest := by
  cases h with
  | byBytes hparts => exact percentDecodeBytes_encodesBytes hparts
  | asItIs hpercent _ _ =>
      have hbytes : ∀ b ∈ String.utf8EncodeChar c, b ≠ 0x25 := by
        rintro b hb rfl
        rcases toNat_of_mem_utf8EncodeChar hb with hc | hlarge
        · exact hpercent (Char.toNat_inj.1 hc.symm)
        · exact absurd hlarge (by decide)
      have hone : encode [c] = String.utf8EncodeChar c := by simp [encode]
      rw [hone, percentDecodeBytes_append hbytes]

theorem percentDecodeBytes_encodesChars {cs : List Char} {parts : List (List Char)}
    (h : List.Forall₂ EncodesChar cs parts) : percentDecodeBytes (encode parts.flatten) = encode cs := by
  induction h with
  | nil => rfl
  | @cons c part cs parts hpart _ ih =>
      rw [List.flatten_cons, encode_append, percentDecodeBytes_encodesChar hpart, ih, encode, encode,
        List.flatMap_cons]

end Decoding

namespace PercentEncodes

variable {value sent : String}

theorem percentDecode_eq (h : PercentEncodes value sent) : percentDecode sent = value := by
  obtain ⟨parts, hparts, hsent⟩ := h
  rw [percentDecode, bytesOf_eq_encode, hsent, percentDecodeBytes_encodesChars hparts, textLossy,
    decodeLossy_encode, String.ofList_toList]

/-- Neither of the two characters that end a segment of a target's path is sent. -/
theorem not_mem (h : PercentEncodes value sent) : '/' ∉ sent.toList ∧ '?' ∉ sent.toList := by
  obtain ⟨parts, hparts, hsent⟩ := h
  have hall : ∀ x ∈ sent.toList, x ≠ '/' ∧ x ≠ '?' := by
    rw [hsent]
    exact forall_mem_flatten (fun _ _ h => h.ne) hparts
  exact ⟨fun hmem => (hall _ hmem).1 rfl, fun hmem => (hall _ hmem).2 rfl⟩

theorem ne_empty (h : PercentEncodes value sent) (hvalue : value ≠ "") : sent ≠ "" := by
  rintro rfl
  have hempty : percentDecode "" = "" := by decide +kernel
  exact hvalue (h.percentDecode_eq.symm.trans hempty)

end PercentEncodes

end ApiContracts.Text
