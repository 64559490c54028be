import ApiContracts.Text.Numeral
import ApiContracts.Proofs.Text.Blank
import Mathlib.Algebra.Group.Int.Defs

/-!
# Reading decimal numerals

A decimal numeral is one digit or more, and denotes what the library reads its digits as. An integer that
is written out is read back as itself if it fits, and not at all otherwise: nothing wraps around.
-/

namespace ApiContracts.Text

theorem isDigit_iff {c : Char} : c.isDigit = true ↔ 48 ≤ c.toNat ∧ c.toNat ≤ 57 := by
  simp only [Char.isDigit, Bool.and_eq_true, decide_eq_true_eq]
  exact Iff.rfl

theorem digitValue_ten (c : Char) : digitValue 10 c = if c.isDigit then some (c.toNat - 48) else none := by
  by_cases h : 48 ≤ c.toNat ∧ c.toNat ≤ 57
  · have hlt : c.toNat - 48 < 10 := by omega
    rw [if_pos (isDigit_iff.2 h)]
    simp only [digitValue, if_pos h, if_pos hlt]
  · rw [if_neg fun hc => h (isDigit_iff.1 hc)]
    simp only [digitValue, if_neg h]
    split
    · rw [if_neg (by omega)]
    · split
      · rw [if_neg (by omega)]
      · rw [if_neg (by omega)]

theorem digitsFrom_ten {cs : List Char} {acc n : Nat} :
    digitsFrom 10 acc cs = some n ↔ (∀ c ∈ cs, c.isDigit = true) ∧ Nat.ofDigitChars 10 cs acc = n := by
  induction cs generalizing acc with
  | nil => simp [digitsFrom]
  | cons c cs ih =>
      rw [digitsFrom, digitValue_ten, Nat.ofDigitChars_cons, List.forall_mem_cons]
      by_cases hc : c.isDigit = true
      · have hzero : '0'.toNat = 48 := rfl
        rw [if_pos hc, Option.bind_some, ih, and_iff_right hc, hzero, Nat.mul_comm acc 10]
      · rw [if_neg hc]
        simp [hc]

theorem natural_ten {cs : List Char} {n : Nat} :
    natural 10 cs = some n
      ↔ cs ≠ [] ∧ (∀ c ∈ cs, c.isDigit = true) ∧ Nat.ofDigitChars 10 cs 0 = n := by
  cases cs with
  | nil => simp [natural]
  | cons c cs => rw [natural, digitsFrom_ten, and_iff_right (List.cons_ne_nil c cs)]

theorem natural_repr (n : Nat) : natural 10 n.repr.toList = some n := by
  rw [Nat.repr_eq_ofList_toDigits, String.toList_ofList, natural_ten]
  refine ⟨Nat.toDigits_ne_nil, ?_, Nat.ofDigitChars_ten_toDigits⟩
  intro c hc
  exact Nat.isDigit_of_mem_toDigits (by decide) (by decide) hc

theorem isDigit_of_mem_repr {n : Nat} {c : Char} (h : c ∈ n.repr.toList) : c.isDigit = true := by
  exact (natural_ten.1 (natural_repr n)).2.1 c h

theorem bounded_le {base most n : Nat} {cs : List Char} (h : bounded base most cs = some n) : n ≤ most := by
  unfold bounded at h
  obtain ⟨m, -, hm⟩ := Option.bind_eq_some_iff.1 h
  split at hm
  · next hle => exact Option.some.inj hm ▸ hle
  · cases hm

theorem bounded_of_ne_plus {base most : Nat} {c : Char} {cs : List Char} (hplus : c ≠ '+') :
    bounded base most (c :: cs) = (natural base (c :: cs)).bind fun n => if n ≤ most then some n else none := by
  unfold bounded
  split
  · next rest h => exact absurd (List.cons.inj h).1 hplus
  · rfl

theorem signed64_minus (ds : List Char) :
    signed64 ('-' :: ds)
      = (natural 10 ds).bind fun m => if isSigned64 (-(m : Int)) then some (-(m : Int)) else none := by
  rfl

theorem signed64_digit {c : Char} {cs : List Char} (hc : c.isDigit = true) :
    signed64 (c :: cs)
      = (natural 10 (c :: cs)).bind fun m => if isSigned64 (m : Int) then some (m : Int) else none := by
  have hminus : c ≠ '-' := by
    rintro rfl
    revert hc
    decide
  have hplus : c ≠ '+' := by
    rintro rfl
    revert hc
    decide
  rw [signed64]
  · rfl
  · intro rest heq
    exact hminus (List.cons.inj heq).1
  · intro rest heq
    exact hplus (List.cons.inj heq).1

/-- An integer in decimals reads as itself within its bounds, and has no reading beyond them. -/
theorem signed64_toString (n : Int) :
    signed64 (toString n).toList = if isSigned64 n then some n else none := by
  rw [Int.toString_eq_repr, Int.repr_eq_if]
  by_cases hn : 0 ≤ n
  · obtain ⟨c, cs, hcs⟩ := List.exists_cons_of_ne_nil (natural_ten.1 (natural_repr n.toNat)).1
    have hc : c.isDigit = true := isDigit_of_mem_repr (hcs ▸ List.mem_cons_self)
    rw [if_pos hn, hcs, signed64_digit hc, ← hcs, natural_repr, Option.bind_some, Int.toNat_of_nonneg hn]
  · have hvalue : -((-n).toNat : Int) = n := by omega
    have htext : ("-" ++ (-n).toNat.repr).toList = '-' :: (-n).toNat.repr.toList := by
      simp [String.toList_append]
    rw [if_neg hn, htext, signed64_minus, natural_repr, Option.bind_some, hvalue]

theorem isBlank_of_isDigit {c : Char} (h : c.isDigit = true) : isBlank c = false := by
  obtain ⟨hlow, hhigh⟩ := isDigit_iff.1 h
  simp only [isBlank, Bool.or_eq_false_iff, Bool.and_eq_false_iff, decide_eq_false_iff_not, beq_eq_false_iff_ne]
  omega

theorem trim_toString (n : Int) : trim (toString n).toList = (toString n).toList := by
  refine trim_of_not_blank ?_
  intro c hc
  rw [Int.toString_eq_repr, Int.repr_eq_if] at hc
  split at hc
  · exact isBlank_of_isDigit (isDigit_of_mem_repr hc)
  · rw [String.toList_append, List.mem_append] at hc
    rcases hc with hc | hc
    · obtain rfl : c = '-' := by simpa using hc
      decide
    · exact isBlank_of_isDigit (isDigit_of_mem_repr hc)

/-! ### The texts of an integer -/

structure Digits (ds : List Char) : Prop where
  ne_nil : ds ≠ []
  isDigit : ∀ c ∈ ds, c.isDigit = true

/-- What an integer is written as, with a sign or without: digits, zeros in front or not. -/
inductive Numeral : List Char → Int → Prop where
  | unsigned {ds : List Char} (h : Digits ds) : Numeral ds (Nat.ofDigitChars 10 ds 0)
  | plus {ds : List Char} (h : Digits ds) : Numeral ('+' :: ds) (Nat.ofDigitChars 10 ds 0)
  | minus {ds : List Char} (h : Digits ds) : Numeral ('-' :: ds) (-(Nat.ofDigitChars 10 ds 0))

theorem isSigned64_iff {n : Int} : isSigned64 n = true ↔ -2 ^ 63 ≤ n ∧ n < 2 ^ 63 := by
  have hbound : (twoTo 63 : Int) = 2 ^ 63 := rfl
  rw [isSigned64, hbound, Bool.and_eq_true, decide_eq_true_eq, decide_eq_true_eq]

theorem bounded_reading_iff {ds : List Char} {n : Int} (sign : Nat → Int) :
    ((natural 10 ds).bind fun m => if isSigned64 (sign m) then some (sign m) else none) = some n
      ↔ (Digits ds ∧ sign (Nat.ofDigitChars 10 ds 0) = n) ∧ isSigned64 n = true := by
  simp only [Option.bind_eq_some_iff, Option.ite_none_right_eq_some, Option.some.injEq]
  constructor
  · rintro ⟨m, hm, hfits, rfl⟩
    obtain ⟨hne, hall, rfl⟩ := natural_ten.1 hm
    exact ⟨⟨⟨hne, hall⟩, rfl⟩, hfits⟩
  · rintro ⟨⟨hds, rfl⟩, hfits⟩
    exact ⟨_, natural_ten.2 ⟨hds.ne_nil, hds.isDigit, rfl⟩, hfits, rfl⟩

theorem Digits.isDigit_head {c : Char} {ds : List Char} (h : Digits (c :: ds)) : c.isDigit = true := by
  exact h.isDigit c List.mem_cons_self

theorem numeral_minus {ds : List Char} {n : Int} :
    Numeral ('-' :: ds) n ↔ Digits ds ∧ -(Nat.ofDigitChars 10 ds 0 : Int) = n := by
  constructor
  · rintro (h | _ | h)
    · exact absurd h.isDigit_head (by decide)
    · exact ⟨h, rfl⟩
  · rintro ⟨h, rfl⟩
    exact .minus h

theorem numeral_plus {ds : List Char} {n : Int} :
    Numeral ('+' :: ds) n ↔ Digits ds ∧ (Nat.ofDigitChars 10 ds 0 : Int) = n := by
  constructor
  · rintro (h | h | _)
    · exact absurd h.isDigit_head (by decide)
    · exact ⟨h, rfl⟩
  · rintro ⟨h, rfl⟩
    exact .plus h

theorem numeral_unsigned {cs : List Char} {n : Int} (hminus : ∀ ds, cs ≠ '-' :: ds) (hplus : ∀ ds, cs ≠ '+' :: ds) :
    Numeral cs n ↔ Digits cs ∧ (Nat.ofDigitChars 10 cs 0 : Int) = n := by
  constructor
  · rintro (h | h | h)
    · exact ⟨h, rfl⟩
    · exact absurd rfl (hplus _)
    · exact absurd rfl (hminus _)
  · rintro ⟨h, rfl⟩
    exact .unsigned h

/-- An integer is read off exactly the numerals that denote one of 64 bits with a sign. -/
theorem signed64_eq_some {cs : List Char} {n : Int} :
    signed64 cs = some n ↔ Numeral cs n ∧ -2 ^ 63 ≤ n ∧ n < 2 ^ 63 := by
  rw [← isSigned64_iff]
  unfold signed64
  split
  · rw [numeral_minus]
    exact bounded_reading_iff fun m => -(m : Int)
  · rw [numeral_plus]
    exact bounded_reading_iff fun m => (m : Int)
  · next hminus hplus =>
      rw [numeral_unsigned hminus hplus]
      exact bounded_reading_iff fun m => (m : Int)

end ApiContracts.Text
