import ApiContracts.Proofs.Text.Numeral
import ApiContracts.Proofs.Text.Pieces
import ApiContracts.Proofs.Text.Scan
import ApiContracts.Service.Failure

/-!
# Codes in the messages of failures

A message that starts with three digits and a colon, blanks between them aside, carries a code. The digits
are those of ASCII and the colon is the first of the message; what stands behind it is the text, with
whatever colons of its own.

A code may as well be read in two scans, a pattern that finds three decimal digits of any script in front of a
colon, and a cut at the first colon (`scannedSentinel?`). The two agree on where the text begins, as nothing in
front of the digits or behind them is a colon, and digits of other scripts are refused when they are read as a
number.
-/

namespace ApiContracts

open Text

/-- Whether a message carries this code, and this text behind it. -/
inductive Sentinel (message : String) : Nat → String → Prop where
  | mk {before between rest : List Char} {a b c : Char}
      (hshape : message.toList = before ++ a :: b :: c :: (between ++ ':' :: rest))
      (hbefore : ∀ x ∈ before, isBlank x = true) (hbetween : ∀ x ∈ between, isBlank x = true)
      (hdigits : ∀ x ∈ [a, b, c], x.isDigit = true) :
      Sentinel message (Nat.ofDigitChars 10 [a, b, c] 0) (String.ofList (trim rest))

theorem sentinel_of_eq_some {message text : String} {code : Nat} (h : sentinel? message = some (code, text)) :
    Sentinel message code text := by
  unfold sentinel? at h
  split at h
  · next a b c rest hstart =>
      split at h
      · next _ text' hcode hcolon =>
          cases h
          obtain ⟨-, hdigits, rfl⟩ := natural_ten.1 hcode
          have hshape : message.toList
              = message.toList.takeWhile isBlank ++ a :: b :: c :: (rest.takeWhile isBlank ++ ':' :: text') := by
            rw [← hcolon, trimStart, List.takeWhile_append_dropWhile, ← hstart, trimStart,
              List.takeWhile_append_dropWhile]
          exact .mk hshape (fun _ => List.mem_takeWhile_imp) (fun _ => List.mem_takeWhile_imp) hdigits
      · cases h
  · cases h

/-- Nothing in front of the digits, and between them and the colon, could be taken for either. -/
theorem Sentinel.eq_some {message text : String} {code : Nat} (h : Sentinel message code text) :
    sentinel? message = some (code, text) := by
  obtain ⟨hshape, hbefore, hbetween, hdigits⟩ := h
  next before between rest a b c =>
  have ha : isBlank a = false := isBlank_of_isDigit (hdigits a List.mem_cons_self)
  have hcolon : isBlank ':' = false := by decide
  have hcode : natural 10 [a, b, c] = some (Nat.ofDigitChars 10 [a, b, c] 0) :=
    natural_ten.2 ⟨List.cons_ne_nil _ _, hdigits, rfl⟩
  unfold sentinel?
  rw [hshape, trimStart_append hbefore ha]
  simp only [hcode, trimStart_append hbetween hcolon]

theorem sentinel_iff {message text : String} {code : Nat} :
    sentinel? message = some (code, text) ↔ Sentinel message code text := by
  exact ⟨sentinel_of_eq_some, Sentinel.eq_some⟩

/-! ### Reading in two scans -/

/-- What is known of the decimal digits of a pattern: those of ASCII are among them, and no blank or sign is. -/
structure IsDecimalClass (digit : Char → Bool) : Prop where
  ascii : ∀ c, c.isDigit = true → digit c = true
  not_blank : ∀ c, digit c = true → isBlank c = false
  not_plus : digit '+' = false

/-- Three digits of a class and a colon, with blanks in front and between. -/
def codePattern (digit : Char → Bool) : List Part :=
  [.many isBlank, .one digit, .one digit, .one digit, .many isBlank, .one (· == ':')]

def codeDigits? (digit : Char → Bool) (message : String) : Option (List Char) :=
  (scan (codePattern digit) message.toList).map fun words => ((words.drop 1).take 3).flatten

/-- The code and the text of a message: the pattern finds the digits, of whatever script, which are then read as a
number of sixteen bits, and the text is what stands behind the first colon. -/
def scannedSentinel? (digit : Char → Bool) (message : String) : Option (Nat × String) := do
  let digits ← codeDigits? digit message
  let code ← bounded 10 65535 digits
  let (_, text) ← cutText ':' message
  return (code, trimmed text)

/-- Whether a message is three characters of a class, a colon and a rest, blanks around the three aside. -/
structure Shaped (digit : Char → Bool) (message : String) (a b c : Char) (rest : List Char) : Prop where
  parts : ∃ before between, message.toList = before ++ a :: b :: c :: (between ++ ':' :: rest)
    ∧ (∀ x ∈ before, isBlank x = true) ∧ ∀ x ∈ between, isBlank x = true
  digits : ∀ x ∈ [a, b, c], digit x = true

variable {digit : Char → Bool} {message : String} {rest : List Char} {a b c : Char}

theorem sentinel_iff_shaped {text : String} {code : Nat} :
    Sentinel message code text ↔ ∃ a b c rest, Shaped Char.isDigit message a b c rest
      ∧ code = Nat.ofDigitChars 10 [a, b, c] 0 ∧ text = String.ofList (trim rest) := by
  constructor
  · intro h
    obtain ⟨hshape, hbefore, hbetween, hdigits⟩ := h
    exact ⟨_, _, _, _, ⟨⟨_, _, hshape, hbefore, hbetween⟩, hdigits⟩, rfl, rfl⟩
  · intro h
    obtain ⟨a, b, c, rest, ⟨⟨_, _, hshape, hbefore, hbetween⟩, hdigits⟩, rfl, rfl⟩ := h
    exact .mk hshape hbefore hbetween hdigits

theorem Shaped.of_isDigit (h : Shaped Char.isDigit message a b c rest) (hdigit : IsDecimalClass digit) :
    Shaped digit message a b c rest :=
  ⟨h.parts, fun x hx => hdigit.ascii x (h.digits x hx)⟩

/-- The pattern finds three digits where a message has the shape, and no others. -/
theorem codeDigits_eq_some (hdigit : IsDecimalClass digit) {digits : List Char} :
    codeDigits? digit message = some digits
      ↔ ∃ a b c rest, digits = [a, b, c] ∧ Shaped digit message a b c rest := by
  rw [codeDigits?, Option.map_eq_some_iff]
  constructor
  · intro h
    obtain ⟨words, hscan, rfl⟩ := h
    obtain ⟨htakes, rest, hmessage⟩ := scan_sound hscan
    simp only [codePattern, List.forall₂_cons_left_iff, List.forall₂_nil_left_iff] at htakes
    obtain ⟨before, _, hbefore, ⟨_, _, ⟨a, ha, rfl⟩, ⟨_, _, ⟨b, hb, rfl⟩, ⟨_, _, ⟨c, hc, rfl⟩,
      ⟨between, _, hbetween, ⟨_, _, ⟨colon, hcolon, rfl⟩, rfl, rfl⟩, rfl⟩, rfl⟩, rfl⟩, rfl⟩, rfl⟩ := htakes
    obtain rfl : colon = ':' := by simpa using hcolon
    refine ⟨a, b, c, rest, rfl, ⟨⟨before, between, ?_, hbefore, hbetween⟩, by simp [ha, hb, hc]⟩⟩
    rw [hmessage]
    simp
  · intro h
    obtain ⟨a, b, c, rest, rfl, ⟨⟨before, between, hshape, hbefore, hbetween⟩, hdigits⟩⟩ := h
    have hblank : isBlank a = false := hdigit.not_blank a (hdigits a (by simp))
    have hcolon : isBlank ':' = false := by decide
    refine ⟨[before, [a], [b], [c], between, [':']], ?_, rfl⟩
    rw [hshape]
    apply scan_many hbefore hblank
    apply scan_one (hdigits a (by simp))
    apply scan_one (hdigits b (by simp))
    apply scan_one (hdigits c (by simp))
    apply scan_many hbetween hcolon
    exact scan_one rfl rfl

theorem Shaped.unique {a' b' c' : Char} {rest' : List Char} (hdigit : IsDecimalClass digit)
    (h : Shaped digit message a b c rest) (h' : Shaped digit message a' b' c' rest') :
    [a, b, c] = [a', b', c'] := by
  have hdigits := (codeDigits_eq_some hdigit).2 ⟨a, b, c, rest, rfl, h⟩
  rw [(codeDigits_eq_some hdigit).2 ⟨a', b', c', rest', rfl, h'⟩, Option.some.injEq] at hdigits
  exact hdigits.symm

theorem bounded_three (hplus : a ≠ '+') : bounded 10 65535 [a, b, c] = natural 10 [a, b, c] := by
  rw [bounded_of_ne_plus hplus]
  cases h : natural 10 [a, b, c] with
  | none => rfl
  | some n =>
      have hfits : n ≤ 65535 := by
        obtain ⟨-, hdigits, rfl⟩ := natural_ten.1 h
        have ha := isDigit_iff.1 (hdigits a (by simp))
        have hb := isDigit_iff.1 (hdigits b (by simp))
        have hc := isDigit_iff.1 (hdigits c (by simp))
        have hzero : '0'.toNat = 48 := rfl
        simp only [Nat.ofDigitChars_cons, Nat.ofDigitChars_nil, hzero]
        omega
      rw [Option.bind_some, if_pos hfits]

theorem Shaped.cutText (h : Shaped Char.isDigit message a b c rest) :
    ∃ front, cutText ':' message = some (front, String.ofList rest) := by
  obtain ⟨⟨before, between, hshape, hbefore, hbetween⟩, hdigits⟩ := h
  have hblank : isBlank ':' = false := by decide
  have hdigit : ':'.isDigit = false := by decide
  have hcolon : ':' ∉ before ++ ([a, b, c] ++ between) := by
    intro hmem
    rcases List.mem_append.1 hmem with hmem | hmem
    · simpa [hblank] using hbefore ':' hmem
    · rcases List.mem_append.1 hmem with hmem | hmem
      · simpa [hdigit] using hdigits ':' hmem
      · simpa [hblank] using hbetween ':' hmem
  have hparts : message.toList = (before ++ ([a, b, c] ++ between)) ++ ':' :: rest := by
    rw [hshape]
    simp
  exact ⟨_, by rw [Text.cutText, hparts, cut_append hcolon]; rfl⟩

/-- Both scans together read the codes of messages, and nothing else. -/
theorem scannedSentinel_iff (hdigit : IsDecimalClass digit) {text : String} {code : Nat} :
    scannedSentinel? digit message = some (code, text) ↔ Sentinel message code text := by
  have hplus {a : Char} (ha : digit a = true) : a ≠ '+' := by
    intro heq
    rw [heq, hdigit.not_plus] at ha
    cases ha
  simp only [scannedSentinel?, Option.bind_eq_bind, Option.bind_eq_some_iff]
  rw [sentinel_iff_shaped]
  constructor
  · intro h
    obtain ⟨digits, hdigits, code', hcode, ⟨front, behind⟩, hcut, heq⟩ := h
    obtain ⟨a, b, c, rest, rfl, hshaped⟩ := (codeDigits_eq_some hdigit).1 hdigits
    rw [bounded_three (hplus (hshaped.digits a (by simp))), natural_ten] at hcode
    obtain ⟨-, hascii, rfl⟩ := hcode
    have hshaped' : Shaped Char.isDigit message a b c rest := ⟨hshaped.parts, hascii⟩
    obtain ⟨front', hcut'⟩ := hshaped'.cutText
    rw [hcut', Option.some.injEq, Prod.mk.injEq] at hcut
    obtain ⟨-, rfl⟩ := hcut
    cases heq
    exact ⟨a, b, c, rest, hshaped', rfl, by rw [trimmed, String.toList_ofList]⟩
  · intro h
    obtain ⟨a, b, c, rest, hshaped, rfl, rfl⟩ := h
    have hclass : Shaped digit message a b c rest := hshaped.of_isDigit hdigit
    obtain ⟨front, hcut⟩ := hshaped.cutText
    refine ⟨[a, b, c], (codeDigits_eq_some hdigit).2 ⟨a, b, c, rest, rfl, hclass⟩,
      Nat.ofDigitChars 10 [a, b, c] 0, ?_, _, hcut, ?_⟩
    · rw [bounded_three (hplus (hclass.digits a (by simp))), natural_ten]
      exact ⟨List.cons_ne_nil _ _, hshaped.digits, rfl⟩
    · rw [trimmed, String.toList_ofList]
      rfl

theorem Shaped.isSome_sentinel_iff (hdigit : IsDecimalClass digit) (h : Shaped digit message a b c rest) :
    (sentinel? message).isSome = true ↔ ∀ x ∈ [a, b, c], x.isDigit = true := by
  constructor
  · intro hsome
    obtain ⟨⟨code, text⟩, hread⟩ := Option.isSome_iff_exists.1 hsome
    obtain ⟨a', b', c', rest', hshaped, -, -⟩ := sentinel_iff_shaped.1 (sentinel_iff.1 hread)
    rw [h.unique hdigit (hshaped.of_isDigit hdigit)]
    exact hshaped.digits
  · intro hascii
    have hread := sentinel_iff.2 (sentinel_iff_shaped.2 ⟨a, b, c, rest, ⟨h.parts, hascii⟩, rfl, rfl⟩)
    rw [hread]
    rfl

theorem shaped_text (text : String) (h : ∀ x ∈ [a, b, c], digit x = true) :
    Shaped digit (String.ofList [a, b, c] ++ ": " ++ text) a b c (' ' :: text.toList) := by
  refine ⟨⟨[], [], ?_, by simp, by simp⟩, h⟩
  rw [String.toList_append, String.toList_append, String.toList_ofList]
  rfl

/-- A message carries a code exactly when it has the shape of one, whatever class of decimal digits the pattern
goes by, and the two scans agree on where the code ends and the text begins. Digits that are not those of ASCII
carry no code, and the text may have colons of its own. -/
theorem sentinel_read_exactly (hdigit : IsDecimalClass digit) (message : String) :
    (∀ code text, sentinel? message = some (code, text) ↔ Sentinel message code text)
      ∧ (sentinel? message = none ↔ ∀ code text, ¬ Sentinel message code text)
      ∧ scannedSentinel? digit message = sentinel? message
      ∧ (∀ a b c rest, Shaped digit message a b c rest →
          ((sentinel? message).isSome = true ↔ ∀ x ∈ [a, b, c], x.isDigit = true))
      ∧ ∀ a b c text, (∀ x ∈ [a, b, c], x.isDigit = true) →
          sentinel? (String.ofList [a, b, c] ++ ": " ++ text)
            = some (Nat.ofDigitChars 10 [a, b, c] 0, trimmed text) := by
  refine ⟨fun _ _ => sentinel_iff, ?_, ?_, fun a b c rest hshaped => hshaped.isSome_sentinel_iff hdigit, ?_⟩
  · rw [← Option.not_isSome_iff_eq_none, Option.isSome_iff_exists, not_exists, Prod.forall]
    simp only [sentinel_iff]
  · ext ⟨code, text⟩
    exact (scannedSentinel_iff hdigit).trans sentinel_iff.symm
  · intro a b c text hdigits
    have hspace : isBlank ' ' = true := by decide
    have htrim : trim (' ' :: text.toList) = trim text.toList := by
      rw [trim, trimStart, List.dropWhile_cons_of_pos hspace]
      rfl
    rw [sentinel_iff, sentinel_iff_shaped]
    exact ⟨a, b, c, _, shaped_text text hdigits, rfl, by rw [htrim, trimmed]⟩

def scriptDigit (c : Char) : Bool :=
  [0x30, 0x660, 0x6f0, 0x966, 0xff10].any fun first => first ≤ c.toNat && c.toNat < first + 10

theorem isDecimalClass_scriptDigit : IsDecimalClass scriptDigit where
  ascii c hc := by
    have hbounds := isDigit_iff.1 hc
    simp only [scriptDigit, List.any_cons, Bool.or_eq_true, Bool.and_eq_true, decide_eq_true_eq]
    omega
  not_blank c hc := by
    simp only [scriptDigit, List.any_cons, List.any_nil, Bool.or_eq_true, Bool.and_eq_true, decide_eq_true_eq,
      Bool.false_eq_true, or_false] at hc
    simp only [isBlank, Bool.or_eq_false_iff, Bool.and_eq_false_iff, decide_eq_false_iff_not, beq_eq_false_iff_ne]
    omega
  not_plus := by decide

/-- A message with further colons, and one whose digits are Arabic. -/
theorem conflict_read_exactly :
    IsDecimalClass scriptDigit
      ∧ scannedSentinel? scriptDigit "\u2003 409 : conflict: name " = some (409, "conflict: name")
      ∧ codeDigits? scriptDigit "\u0664\u0660\u0669: conflict" = some ['\u0664', '\u0660', '\u0669']
      ∧ sentinel? "\u0664\u0660\u0669: conflict" = none
      ∧ sentinel? (String.ofList ['4', '0', '9'] ++ ": " ++ "conflict: name ") = some (409, "conflict: name") := by
  obtain ⟨-, -, hscans, -, hcolons⟩ :=
    sentinel_read_exactly isDecimalClass_scriptDigit "\u2003 409 : conflict: name "
  obtain ⟨-, -, -, hshaped, -⟩ :=
    sentinel_read_exactly isDecimalClass_scriptDigit
      (String.ofList ['\u0664', '\u0660', '\u0669'] ++ ": " ++ "conflict")
  have hread : sentinel? "\u2003 409 : conflict: name " = some (409, "conflict: name") := by decide +kernel
  have hArabic : ['\u0664', '\u0660', '\u0669'].all scriptDigit = true := by decide
  have hasciiIff := hshaped _ _ _ _ (shaped_text "conflict" (List.all_eq_true.1 hArabic))
  have hWestern : ['4', '0', '9'].all Char.isDigit = true := by decide
  refine ⟨isDecimalClass_scriptDigit, hscans.trans hread, by decide +kernel, ?_, ?_⟩
  · rw [← Option.not_isSome_iff_eq_none]
    intro hsome
    have hascii : '\u0664'.isDigit = true := hasciiIff.1 hsome _ List.mem_cons_self
    revert hascii
    decide
  · exact (hcolons '4' '0' '9' "conflict: name " (List.all_eq_true.1 hWestern)).trans (by decide +kernel)

end ApiContracts
