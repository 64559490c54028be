import ApiContracts.Text.Utf8
import Mathlib.Data.List.Basic

/-!
# Texts out of their bytes

The bytes of a text are those of its characters one after the other, and reading them gives the characters
again. A character takes one to four bytes, by its number. The first of them tells how many; the bounds on the
second one leave out the surrogates, and whatever would be written in more bytes than it takes.
-/

namespace ApiContracts.Text

/-! ### The bytes of a text -/

theorem toList_loop_eq (bytes : ByteArray) (i : Nat) (seen : List UInt8) :
    ByteArray.toList.loop bytes i seen = seen.reverse ++ bytes.data.toList.drop i := by
  fun_induction ByteArray.toList.loop bytes i seen with
  | case1 i seen h ih =>
      have hi : i < bytes.data.toList.length := by simpa using h
      rw [ih, List.drop_eq_getElem_cons hi]
      simp [ByteArray.get!, h]
  | case2 i seen h =>
      rw [List.drop_eq_nil_of_le (by simpa using Nat.le_of_not_lt h), List.append_nil]

theorem bytesOf_eq_encode (s : String) : bytesOf s = encode s.toList := by
  have hbytes : s.toUTF8 = s.toList.utf8Encode := by
    rw [← String.toByteArray_ofList, String.ofList_toList]
    rfl
  rw [bytesOf, hbytes, ByteArray.toList, toList_loop_eq, List.utf8Encode, List.reverse_nil, List.nil_append,
    List.drop_zero, List.toList_data_toByteArray]
  rfl

theorem encode_append (cs ds : List Char) : encode (cs ++ ds) = encode cs ++ encode ds := by
  exact List.flatMap_append

theorem bytesOf_append (s t : String) : bytesOf (s ++ t) = bytesOf s ++ bytesOf t := by
  rw [bytesOf_eq_encode, bytesOf_eq_encode, bytesOf_eq_encode, String.toList_append, encode_append]

/-! ### Bounds on bytes -/

theorem toNat_ofNat {n : Nat} (h : n < 256) : (UInt8.ofNat n).toNat = n := by
  rw [UInt8.toNat_ofNat']
  exact Nat.mod_eq_of_lt h

section Bounds

variable {b c low high : UInt8}

theorem inRange_iff : (decide (low ≤ b) && decide (b ≤ high)) = true
    ↔ low.toNat ≤ b.toNat ∧ b.toNat ≤ high.toNat := by
  simp [UInt8.le_iff_toNat_le]

theorem isTail_iff : isTail b = true ↔ 0x80 ≤ b.toNat ∧ b.toNat ≤ 0xbf := by
  exact inRange_iff

theorem isSecond_of_bounds (hlow : 0x80 ≤ c.toNat) (hhigh : c.toNat ≤ 0xbf)
    (hlong : b.toNat = 0xe0 → 0xa0 ≤ c.toNat) (hsurrogate : b.toNat = 0xed → c.toNat ≤ 0x9f)
    (hlonger : b.toNat = 0xf0 → 0x90 ≤ c.toNat) (hlast : b.toNat = 0xf4 → c.toNat ≤ 0x8f) :
    isSecond b c = true := by
  have hvalue : ∀ n : UInt8, (b == n) = true → b.toNat = n.toNat := fun n h => congrArg UInt8.toNat (eq_of_beq h)
  unfold isSecond secondRange
  rw [inRange_iff]
  split
  · next h => exact ⟨hlong (hvalue _ h), hhigh⟩
  · split
    · next h => exact ⟨hlow, hsurrogate (hvalue _ h)⟩
    · split
      · next h => exact ⟨hlonger (hvalue _ h), hhigh⟩
      · split
        · next h => exact ⟨hlow, hlast (hvalue _ h)⟩
        · exact ⟨hlow, hhigh⟩

end Bounds

/-! ### One character -/

theorem tailBits_eq {b : UInt8} {n : Nat} (h : b.toNat = n + 128) : tailBits b = n := by
  unfold tailBits
  omega

section Bytes

variable {b c d e low high : UInt8} {rest : List UInt8}

theorem not_ascii (h : 0x80 ≤ b.toNat) : ¬ b < 0x80 := by
  simp only [UInt8.lt_iff_toNat_lt, UInt8.reduceToNat]
  omega

theorem not_inRange_of_lt (h : high.toNat < b.toNat) : ¬ (decide (low ≤ b) && decide (b ≤ high)) = true := by
  rw [inRange_iff]
  omega

theorem decodeHead_of_two (hlow : 0xc2 ≤ b.toNat) (hhigh : b.toNat ≤ 0xdf) (hc : isTail c = true) :
    decodeHead b (c :: rest) = (some (Char.ofNat ((b.toNat - 0xc0) * 64 + tailBits c)), 1) := by
  have hhead : (decide (0xc2 ≤ b) && decide (b ≤ 0xdf)) = true := inRange_iff.2 ⟨hlow, hhigh⟩
  unfold decodeHead
  rw [if_neg (not_ascii (by omega)), if_pos hhead]
  simp only [hc, if_true]

theorem decodeHead_of_three (hlow : 0xe0 ≤ b.toNat) (hhigh : b.toNat ≤ 0xef) (hc : isSecond b c = true)
    (hd : isTail d = true) : decodeHead b (c :: d :: rest)
      = (some (Char.ofNat ((b.toNat - 0xe0) * 4096 + tailBits c * 64 + tailBits d)), 2) := by
  have hhead : (decide (0xe0 ≤ b) && decide (b ≤ 0xef)) = true := inRange_iff.2 ⟨hlow, hhigh⟩
  unfold decodeHead
  rw [if_neg (not_ascii (by omega)), if_neg (not_inRange_of_lt (by simp only [UInt8.reduceToNat]; omega)),
    if_pos hhead]
  simp only [hc, hd, Bool.not_true, Bool.false_eq_true, if_false, if_true]

theorem decodeHead_of_four (hlow : 0xf0 ≤ b.toNat) (hhigh : b.toNat ≤ 0xf4) (hc : isSecond b c = true)
    (hd : isTail d = true) (he : isTail e = true) : decodeHead b (c :: d :: e :: rest)
      = (some (Char.ofNat ((b.toNat - 0xf0) * 262144 + tailBits c * 4096 + tailBits d * 64 + tailBits e)), 3) := by
  have hhead : (decide (0xf0 ≤ b) && decide (b ≤ 0xf4)) = true := inRange_iff.2 ⟨hlow, hhigh⟩
  unfold decodeHead
  rw [if_neg (not_ascii (by omega)), if_neg (not_inRange_of_lt (by simp only [UInt8.reduceToNat]; omega)),
    if_neg (not_inRange_of_lt (by simp only [UInt8.reduceToNat]; omega)), if_pos hhead]
  simp only [hc, hd, he, Bool.not_true, Bool.false_eq_true, if_false, if_true]

end Bytes

section Head

variable {v : Nat} {rest : List UInt8}

theorem decodeHead_one (h : v < 0x80) : decodeHead (.ofNat v) rest = (some (Char.ofNat v), 0) := by
  have hb : (UInt8.ofNat v).toNat = v := toNat_ofNat (by omega)
  have hlt : UInt8.ofNat v < 0x80 := by
    rw [UInt8.lt_iff_toNat_lt, hb]
    exact h
  unfold decodeHead
  rw [if_pos hlt, hb]

theorem decodeHead_two (hlow : 0x80 ≤ v) (hhigh : v < 0x800) :
    decodeHead (.ofNat (v / 64 % 32 + 192)) (.ofNat (v % 64 + 128) :: rest) = (some (Char.ofNat v), 1) := by
  have hb : (UInt8.ofNat (v / 64 % 32 + 192)).toNat = v / 64 + 192 := by
    rw [toNat_ofNat (by omega)]
    omega
  have hc : (UInt8.ofNat (v % 64 + 128)).toNat = v % 64 + 128 := toNat_ofNat (by omega)
  have htail : isTail (.ofNat (v % 64 + 128)) = true := by
    rw [isTail_iff]
    omega
  rw [decodeHead_of_two (by omega) (by omega) htail, hb, tailBits_eq hc]
  congr 3
  omega

theorem decodeHead_three (hlow : 0x800 ≤ v) (hhigh : v < 0x10000) (hsurrogate : v < 0xd800 ∨ 0xdfff < v) :
    decodeHead (.ofNat (v / 4096 % 16 + 224)) (.ofNat (v / 64 % 64 + 128) :: .ofNat (v % 64 + 128) :: rest)
      = (some (Char.ofNat v), 2) := by
  have hb : (UInt8.ofNat (v / 4096 % 16 + 224)).toNat = v / 4096 + 224 := by
    rw [toNat_ofNat (by omega)]
    omega
  have hc : (UInt8.ofNat (v / 64 % 64 + 128)).toNat = v / 64 % 64 + 128 := toNat_ofNat (by omega)
  have hd : (UInt8.ofNat (v % 64 + 128)).toNat = v % 64 + 128 := toNat_ofNat (by omega)
  have hsecond : isSecond (.ofNat (v / 4096 % 16 + 224)) (.ofNat (v / 64 % 64 + 128)) = true := by
    apply isSecond_of_bounds <;> omega
  have htail : isTail (.ofNat (v % 64 + 128)) = true := by
    rw [isTail_iff]
    omega
  rw [decodeHead_of_three (by omega) (by omega) hsecond htail, hb, tailBits_eq hc, tailBits_eq hd]
  congr 3
  omega

theorem decodeHead_four (hlow : 0x10000 ≤ v) (hhigh : v < 0x110000) :
    decodeHead (.ofNat (v / 262144 % 8 + 240))
        (.ofNat (v / 4096 % 64 + 128) :: .ofNat (v / 64 % 64 + 128) :: .ofNat (v % 64 + 128) :: rest)
      = (some (Char.ofNat v), 3) := by
  have hb : (UInt8.ofNat (v / 262144 % 8 + 240)).toNat = v / 262144 + 240 := by
    rw [toNat_ofNat (by omega)]
    omega
  have hc : (UInt8.ofNat (v / 4096 % 64 + 128)).toNat = v / 4096 % 64 + 128 := toNat_ofNat (by omega)
  have hd : (UInt8.ofNat (v / 64 % 64 + 128)).toNat = v / 64 % 64 + 128 := toNat_ofNat (by omega)
  have he : (UInt8.ofNat (v % 64 + 128)).toNat = v % 64 + 128 := toNat_ofNat (by omega)
  have hsecond : isSecond (.ofNat (v / 262144 % 8 + 240)) (.ofNat (v / 4096 % 64 + 128)) = true := by
    apply isSecond_of_bounds <;> omega
  have hthird : isTail (.ofNat (v / 64 % 64 + 128)) = true := by
    rw [isTail_iff]
    omega
  have htail : isTail (.ofNat (v % 64 + 128)) = true := by
    rw [isTail_iff]
    omega
  rw [decodeHead_of_four (by omega) (by omega) hsecond hthird htail, hb, tailBits_eq hc, tailBits_eq hd, tailBits_eq he]
  congr 3
  omega

end Head

/-- The first byte of a character and those that follow it give the character, whatever stands behind. -/
theorem decodeHead_encodeChar (c : Char) (rest : List UInt8) :
    ∃ b tail, String.utf8EncodeChar c = b :: tail ∧ decodeHead b (tail ++ rest) = (some c, tail.length) := by
  have hvalid : c.val.toNat < 0xd800 ∨ 0xdfff < c.val.toNat ∧ c.val.toNat < 0x110000 := c.valid
  have hc : Char.ofNat c.val.toNat = c := Char.ofNat_toNat c
  unfold String.utf8EncodeChar
  simp only
  by_cases hone : c.val.toNat ≤ 127
  · rw [if_pos hone]
    exact ⟨_, _, rfl, (decodeHead_one (by omega)).trans (by rw [hc]; rfl)⟩
  · rw [if_neg hone]
    by_cases htwo : c.val.toNat ≤ 2047
    · rw [if_pos htwo]
      exact ⟨_, _, rfl, (decodeHead_two (by omega) (by omega)).trans (by rw [hc]; rfl)⟩
    · rw [if_neg htwo]
      by_cases hthree : c.val.toNat ≤ 65535
      · rw [if_pos hthree]
        exact ⟨_, _, rfl, (decodeHead_three (by omega) (by omega) (by omega)).trans (by rw [hc]; rfl)⟩
      · rw [if_neg hthree]
        exact ⟨_, _, rfl, (decodeHead_four (by omega) (by omega)).trans (by rw [hc]; rfl)⟩

theorem toNat_of_mem_utf8EncodeChar {ch : Char} {b : UInt8} (h : b ∈ String.utf8EncodeChar ch) :
    b.toNat = ch.toNat ∨ 0x80 ≤ b.toNat := by
  unfold String.utf8EncodeChar at h
  simp only at h
  split at h
  · obtain rfl := List.mem_singleton.1 h
    exact Or.inl (toNat_ofNat (by omega))
  · right
    split at h
    · simp only [List.mem_cons, List.not_mem_nil, or_false] at h
      obtain rfl | rfl := h <;> rw [toNat_ofNat (by omega)] <;> omega
    · split at h
      · simp only [List.mem_cons, List.not_mem_nil, or_false] at h
        obtain rfl | rfl | rfl := h <;> rw [toNat_ofNat (by omega)] <;> omega
      · simp only [List.mem_cons, List.not_mem_nil, or_false] at h
        obtain rfl | rfl | rfl | rfl := h <;> rw [toNat_ofNat (by omega)] <;> omega

theorem encode_cons (c : Char) (cs : List Char) :
    ∃ b tail, encode (c :: cs) = b :: (tail ++ encode cs)
      ∧ decodeHead b (tail ++ encode cs) = (some c, tail.length) := by
  obtain ⟨b, tail, hbytes, hhead⟩ := decodeHead_encodeChar c (encode cs)
  refine ⟨b, tail, ?_, hhead⟩
  rw [encode, List.flatMap_cons, hbytes]
  rfl

theorem decode?_encode (cs : List Char) : decode? (encode cs) = some cs := by
  induction cs with
  | nil => rw [encode, List.flatMap_nil, decode?]
  | cons c cs ih =>
      obtain ⟨b, tail, hencode, hhead⟩ := encode_cons c cs
      rw [hencode, decode?, hhead]
      simp [ih]

theorem decodeLossy_encode (cs : List Char) : decodeLossy (encode cs) = cs := by
  induction cs with
  | nil => rw [encode, List.flatMap_nil, decodeLossy]
  | cons c cs ih =>
      obtain ⟨b, tail, hencode, hhead⟩ := encode_cons c cs
      rw [hencode, decodeLossy, hhead]
      simp [ih]

end ApiContracts.Text
