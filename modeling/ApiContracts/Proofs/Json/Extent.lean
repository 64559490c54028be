import ApiContracts.Proofs.Except
import ApiContracts.Proofs.Json.QuotedText
import Mathlib.Data.List.TakeWhile

/-!
# Where reading stops

A reader goes on from a place in the text that it was given: what is left is an end of what was there. Each
reader keeps this because it is put together from readers that do. Of an object more is known, since only a
closing brace ends its members: it stands between an opening brace and a closing one. So a whole text that is
read as an object has a brace at each end, apart from blanks.
-/

namespace ApiContracts.Json

open Text

section Places

variable {c : Cursor} {bytes : List UInt8}

/-- Whether a place is one in these bytes: what stands ahead is an end of them. -/
def Cursor.Within (c : Cursor) (bytes : List UInt8) : Prop := c.rest <:+ bytes

theorem Cursor.Within.next (h : c.Within bytes) : c.next.Within bytes := by
  rw [Within, rest_next]
  exact (List.tail_suffix _).trans h

theorem Cursor.Within.advance (h : c.Within bytes) (n : Nat) : (advance n c).Within bytes := by
  rw [Within, rest_advance]
  exact (List.drop_suffix _ _).trans h

theorem Cursor.Within.skipBlanks (h : c.Within bytes) : c.skipBlanks.Within bytes := by
  exact h.advance _

end Places

section Readers

variable {c : Cursor} {bytes : List UInt8} {negative down : Bool} {significand exponent fuel depth : Nat} {shift : Int}

def StaysWithin {α : Type} (bytes : List UInt8) (r : Read α) : Prop := Ensures r fun x => x.2.Within bytes

def ReadsPlain (bytes : List UInt8) (r : Read Value) : Prop :=
  Ensures r fun x => x.2.Within bytes ∧ ∀ members, x.1 ≠ .obj members

/-! ### Words and numbers -/

theorem readsPlain_readWord {v : Value} {word : List UInt8} (hv : ∀ members, v ≠ .obj members)
    (h : c.Within bytes) : ReadsPlain bytes (readWord v word c) := by
  induction word generalizing c with
  | nil => exact ensures_ok ⟨h, hv⟩
  | cons w word ih =>
      rw [readWord]
      split
      · exact ensures_error
      · split
        · exact ih h.next
        · exact ensures_error

theorem readsPlain_makeDouble (h : c.Within bytes) : ReadsPlain bytes (makeDouble negative significand shift c) := by
  unfold makeDouble
  split
  · exact ensures_ok ⟨h, by simp⟩
  · exact ensures_error

theorem readsPlain_readExponentDigits (h : c.Within bytes) :
    ReadsPlain bytes (readExponentDigits negative significand shift down exponent fuel c) := by
  fun_induction readExponentDigits negative significand shift down exponent fuel c with
  | case1 | case2 | case3 => exact readsPlain_makeDouble h
  | case4 exponent fuel c b rest hrest d hd hle ih => exact ih h.next
  | case5 => exact ensures_error
  | case6 => exact ensures_ok ⟨h.advance _, by simp⟩

theorem readsPlain_readExponent (h : c.Within bytes) :
    ReadsPlain bytes (readExponent negative significand shift c) := by
  unfold readExponent
  split
  next down d heq =>
  have hd : d.Within bytes := by
    split at heq <;> cases heq
    · exact h.next
    · exact h.next
    · exact h
  split
  · exact ensures_error
  · split
    · exact ensures_error
    · exact readsPlain_readExponentDigits hd.next

theorem readsPlain_finishDouble (h : c.Within bytes) :
    ReadsPlain bytes (finishDouble negative significand shift c) := by
  unfold finishDouble
  split
  · split
    · exact readsPlain_readExponent h.next
    · exact readsPlain_makeDouble h
  · exact readsPlain_makeDouble h

theorem readsPlain_readFraction (h : c.Within bytes) :
    ReadsPlain bytes (readFraction negative significand shift c) := by
  unfold readFraction
  dsimp only
  split
  · split <;> exact ensures_error
  · exact readsPlain_finishDouble (h.advance _)

theorem readsPlain_finishNumber {left : Nat} (h : c.Within bytes) :
    ReadsPlain bytes (finishNumber negative significand left c) := by
  have hwhole : ReadsPlain bytes (if left ≠ 0 then makeDouble negative significand left c
      else if !negative then .ok (.int significand, c)
      else if significand = 0 ∨ twoTo 63 < significand then .ok (.double (Decimal.Binary64.ofInt significand).neg, c)
      else .ok (.int (-(significand : Int)), c)) := by
    split
    · exact readsPlain_makeDouble h
    · split
      · exact ensures_ok ⟨h, by simp⟩
      · split <;> exact ensures_ok ⟨h, by simp⟩
  unfold finishNumber
  dsimp only
  split
  · split
    · exact readsPlain_readFraction h.next
    · split
      · exact readsPlain_readExponent h.next
      · exact hwhole
  · exact hwhole

theorem readsPlain_readNumber (h : c.Within bytes) : ReadsPlain bytes (readNumber negative c) := by
  unfold readNumber
  split
  · exact ensures_error
  · split
    · exact ensures_error
    · split
      · split
        · exact ensures_error
        · exact readsPlain_finishNumber h.next
      · exact readsPlain_finishNumber h.next
    · exact readsPlain_finishNumber (h.advance _)

/-! ### Strings -/

theorem staysWithin_readHex (h : c.Within bytes) : StaysWithin bytes (readHex c) := by
  unfold readHex
  split
  · dsimp only
    split
    · exact ensures_ok (h.advance _)
    · exact ensures_error
  · exact ensures_error

theorem within_readPairByte {b : UInt8} (h : c.Within bytes) : Ensures (readPairByte b c) fun d => d.Within bytes := by
  unfold readPairByte
  split
  · exact ensures_error
  · split
    · exact ensures_ok h.next
    · exact ensures_error

theorem staysWithin_readUnicode (h : c.Within bytes) : StaysWithin bytes (readUnicode c) := by
  refine ensures_bind (staysWithin_readHex h) ?_
  rintro ⟨high, c⟩ h
  dsimp only
  split
  · exact ensures_error
  · split
    · exact ensures_ok h
    · refine ensures_bind (within_readPairByte h) ?_
      intro c h
      refine ensures_bind (within_readPairByte h) ?_
      intro c h
      refine ensures_bind (staysWithin_readHex h) ?_
      rintro ⟨low, c⟩ h
      dsimp only
      split
      · exact ensures_error
      · exact ensures_ok h

theorem staysWithin_readEscape (h : c.Within bytes) : StaysWithin bytes (readEscape c) := by
  unfold readEscape
  split
  · exact ensures_error
  · dsimp only
    repeat' split
    all_goals first | exact ensures_ok h.next | exact staysWithin_readUnicode h.next | exact ensures_error

theorem staysWithin_readStringBytes {seen : List UInt8} (h : c.Within bytes) :
    StaysWithin bytes (readStringBytes fuel seen c) := by
  induction fuel generalizing c seen with
  | zero => exact ensures_error
  | succ fuel ih =>
      rw [readStringBytes]
      split
      · exact ensures_error
      · split
        · exact ensures_ok h.next
        · split
          · split
            · next ch behind hescape => exact ih (staysWithin_readEscape h.next _ hescape)
            · exact ensures_error
          · split
            · exact ensures_error
            · exact ih h.next

theorem staysWithin_readString (h : c.Within bytes) : StaysWithin bytes (readString c) := by
  refine ensures_bind (staysWithin_readStringBytes h) ?_
  rintro ⟨seen, c⟩ h
  dsimp only
  split
  · exact ensures_ok h
  · exact ensures_error

theorem staysWithin_readKey (h : c.Within bytes) : StaysWithin bytes (readKey c) := by
  refine ensures_bind (staysWithin_readString h) ?_
  rintro ⟨key, c⟩ h
  dsimp only
  split
  · exact ensures_error
  · split
    · exact ensures_ok h.skipBlanks.next
    · exact ensures_error

/-! ### Lists and objects -/

theorem staysWithin_nextItem {first : Bool} (h : c.Within bytes) : StaysWithin bytes (nextItem first c) := by
  unfold nextItem
  dsimp only
  split
  · exact ensures_error
  · split
    · exact ensures_ok h.skipBlanks.next
    · split
      · exact ensures_ok h.skipBlanks
      · split
        · split
          · exact ensures_error
          · split
            · exact ensures_error
            · exact ensures_ok h.skipBlanks.next.skipBlanks
        · exact ensures_error

/-- A place in these bytes, right behind a closing brace unless more is to come. -/
def AtMember (bytes : List UInt8) (x : Bool × Cursor) : Prop :=
  x.2.Within bytes ∧ (x.1 = false → 0x7d :: x.2.rest <:+ bytes)

theorem atMember_nextMember {first : Bool} (h : c.Within bytes) :
    Ensures (nextMember first c) (AtMember bytes) := by
  have hmore : ∀ d : Cursor, d.Within bytes → AtMember bytes (true, d) := fun d hd => ⟨hd, by simp⟩
  unfold nextMember
  dsimp only
  split
  · exact ensures_error
  · next b rest hrest =>
    split
    · next hbrace =>
        apply ensures_ok
        refine ⟨h.skipBlanks.next, fun _ => ?_⟩
        have hb : b = 0x7d := eq_of_beq hbrace
        rw [← hb, Cursor.rest_next_of_cons hrest, ← hrest]
        exact h.skipBlanks
    · split
      · split
        · exact ensures_ok (hmore _ h.skipBlanks.next)
        · exact ensures_error
      · split
        · split
          · exact ensures_error
          · split
            · exact ensures_ok (hmore _ h.skipBlanks.next.skipBlanks.next)
            · split <;> exact ensures_error
        · exact ensures_error

/-- What is read of a value: a place in these bytes, and for an object the braces around its members. -/
def Framed (bytes : List UInt8) (c : Cursor) (x : Value × Cursor) : Prop :=
  x.2.Within bytes
    ∧ ∀ members, x.1 = .obj members → ∃ rest, c.skipBlanks.rest = 0x7b :: rest ∧ 0x7d :: x.2.rest <:+ rest

theorem ReadsPlain.framed {r : Read Value} {c' : Cursor} (h : ReadsPlain bytes r) : Ensures r (Framed bytes c') := by
  intro x hx
  obtain ⟨hwithin, hplain⟩ := h x hx
  exact ⟨hwithin, fun members hobj => absurd hobj (hplain members)⟩

mutual

theorem framed_readAny (fuel depth : Nat) {c : Cursor} {bytes : List UInt8} (h : c.Within bytes) :
    Ensures (readAny fuel depth c) (Framed bytes c) := by
  match fuel with
  | 0 => exact ensures_error
  | fuel + 1 =>
      have hblanks := h.skipBlanks
      rw [readAny]
      split
      · exact ensures_error
      · next b rest hrest =>
        split
        · exact (readsPlain_readWord (by simp) hblanks.next).framed
        split
        · exact (readsPlain_readWord (by simp) hblanks.next).framed
        split
        · exact (readsPlain_readWord (by simp) hblanks.next).framed
        split
        · exact (readsPlain_readNumber hblanks.next).framed
        split
        · exact (readsPlain_readNumber hblanks).framed
        split
        · exact ensures_map (staysWithin_readString hblanks.next) fun x hx => ⟨hx, by simp⟩
        split
        · next hopen =>
          split
          · exact ensures_error
          · split
            · have hitems := staysWithin_readItems fuel (depth + 1) true hblanks.next
              exact ensures_map hitems fun x hx => ⟨hx, by simp⟩
            · next hlist =>
              have hb : b = 0x7b := by simpa [hlist] using hopen
              have hnext : c.skipBlanks.next.rest = rest := Cursor.rest_next_of_cons hrest
              have hbehind : c.skipBlanks.next.Within rest := hnext ▸ List.suffix_refl _
              have hin : rest <:+ bytes := hnext ▸ hblanks.next
              refine ensures_map (closed_readMembers fuel (depth + 1) true hbehind) ?_
              intro x hx
              refine ⟨((List.suffix_cons _ _).trans hx).trans hin, ?_⟩
              intro members _
              exact ⟨rest, hb ▸ hrest, hx⟩
        · exact ensures_error

theorem staysWithin_readItems (fuel depth : Nat) (first : Bool) {c : Cursor} {bytes : List UInt8} (h : c.Within bytes) :
    StaysWithin bytes (readItems fuel depth first c) := by
  match fuel with
  | 0 => exact ensures_error
  | fuel + 1 =>
      rw [readItems]
      refine ensures_bind (staysWithin_nextItem h) ?_
      rintro ⟨more, c⟩ h
      dsimp only
      split
      · refine ensures_bind (framed_readAny fuel depth h) ?_
        rintro ⟨item, c⟩ h
        refine ensures_bind (staysWithin_readItems fuel depth false h.1) ?_
        rintro ⟨items, c⟩ h
        exact ensures_ok h
      · exact ensures_ok h

theorem closed_readMembers (fuel depth : Nat) (first : Bool) {c : Cursor} {bytes : List UInt8} (h : c.Within bytes) :
    Ensures (readMembers fuel depth first c) fun x => 0x7d :: x.2.rest <:+ bytes := by
  match fuel with
  | 0 => exact ensures_error
  | fuel + 1 =>
      rw [readMembers]
      refine ensures_bind (atMember_nextMember h) ?_
      rintro ⟨more, c⟩ h
      dsimp only
      split
      · refine ensures_bind (staysWithin_readKey h.1) ?_
        rintro ⟨key, c⟩ h
        refine ensures_bind (framed_readAny fuel depth h) ?_
        rintro ⟨value, c⟩ h
        refine ensures_bind (closed_readMembers fuel depth false h.1) ?_
        rintro ⟨members, c⟩ h
        exact ensures_ok h
      · next hlast => exact ensures_ok (h.2 (by simpa using hlast))

end

end Readers

/-! ### Whole texts -/

def AllBlank (bytes : List UInt8) : Prop := ∀ b ∈ bytes, Cursor.isJsonBlank b = true

theorem exists_blanks (c : Cursor) : ∃ blanks, c.rest = blanks ++ c.skipBlanks.rest ∧ AllBlank blanks := by
  have hcut : c.rest = c.rest.takeWhile Cursor.isJsonBlank ++ c.rest.dropWhile Cursor.isJsonBlank :=
    List.takeWhile_append_dropWhile.symm
  refine ⟨c.rest.takeWhile Cursor.isJsonBlank, ?_, fun b hb => List.mem_takeWhile_imp hb⟩
  rw [Cursor.skipBlanks, Cursor.rest_behind hcut]
  exact hcut

theorem allBlank_of_readEnd {c : Cursor} (h : readEnd c = .ok ()) : AllBlank c.rest := by
  obtain ⟨blanks, hrest, hblanks⟩ := exists_blanks c
  unfold readEnd at h
  dsimp only at h
  split at h
  · next hend => rwa [hrest, hend, List.append_nil]
  · cases h

/-- A text that is read as an object has a brace at each end, with nothing but blanks outside. -/
theorem bytesOf_of_obj {text : String} {members : List (String × Value)}
    (h : Value.ofString text = .ok (.obj members)) : ∃ before inner after,
      bytesOf text = before ++ 0x7b :: (inner ++ 0x7d :: after) ∧ AllBlank before ∧ AllBlank after := by
  obtain ⟨⟨v, c⟩, hread, h⟩ := bind_eq_ok.1 h
  obtain ⟨⟨⟩, hend, h⟩ := bind_eq_ok.1 h
  have hobj : ∃ members', v = .obj members' := by
    cases v with
    | obj members' => exact ⟨members', rfl⟩
    | _ => cases h
  obtain ⟨members', rfl⟩ := hobj
  have hstart : (Cursor.start (bytesOf text)).Within (bytesOf text) := List.suffix_refl _
  obtain ⟨-, hframed⟩ := framed_readAny _ _ hstart _ hread
  obtain ⟨rest, hopen, inner, hclose⟩ := hframed members' rfl
  obtain ⟨before, hbefore, hblank⟩ := exists_blanks (Cursor.start (bytesOf text))
  refine ⟨before, inner, c.rest, ?_, hblank, allBlank_of_readEnd hend⟩
  rw [hclose, ← hopen]
  exact hbefore

/-- So its first byte is the opening brace or a blank, and its last byte the closing one or a blank. -/
theorem ends_of_obj {text : String} {members : List (String × Value)} (h : Value.ofString text = .ok (.obj members)) :
    (∀ b rest, bytesOf text = b :: rest → b = 0x7b ∨ Cursor.isJsonBlank b = true)
      ∧ ∀ b front, bytesOf text = front ++ [b] → b = 0x7d ∨ Cursor.isJsonBlank b = true := by
  obtain ⟨before, inner, after, hbytes, hbefore, hafter⟩ := bytesOf_of_obj h
  constructor
  · intro b rest hb
    rw [hbytes] at hb
    cases before with
    | nil => exact Or.inl (List.cons.inj hb).1.symm
    | cons blank before =>
        rw [← (List.cons.inj hb).1]
        exact Or.inr (hbefore blank List.mem_cons_self)
  · intro b front hb
    rw [hbytes] at hb
    rcases List.eq_nil_or_concat' after with rfl | ⟨init, blank, rfl⟩
    · have hsplit : (before ++ 0x7b :: inner) ++ [0x7d] = front ++ [b] := by simpa using hb
      exact Or.inl (List.singleton_inj.1 (List.append_inj_right' hsplit rfl)).symm
    · have hsplit : (before ++ 0x7b :: (inner ++ 0x7d :: init)) ++ [blank] = front ++ [b] := by simpa using hb
      rw [← List.singleton_inj.1 (List.append_inj_right' hsplit rfl)]
      exact Or.inr (hafter blank (by simp))

end ApiContracts.Json
