import ApiContracts.Text.Quoted

/-!
# String literals of the emitted language

`literal?` is the lexer of the language that is emitted, so that what a compiler makes of a quoted text is not
judged by a reader made for it. The language takes more in a literal than `quote` ever writes: a byte by two
digits, an escaped apostrophe, underscores in a number, and a line that ends in a backslash and goes on at the next
text. It also takes less than one might write, since a number has at most six digits and a return stands in no
literal unescaped.

A literal gives back the text it was quoted from, and its reader stops behind the closing quote, whatever follows.
A quote or a backslash of the text itself is always escaped, so what stands there as it is starts no escape and
ends nothing; and a number in braces has no digit behind it that could be taken for one of its own.
-/

namespace ApiContracts.Text

/-! ### The lexer -/

/-- The characters that a letter behind a backslash stands for, each with its letter. -/
def shortEscapes : List (Char × Char) :=
  [('0', '\x00'), ('t', '\t'), ('r', '\r'), ('n', '\n'), ('\\', '\\'), ('"', '"')]

/-- The code point in braces after a backslash and the letter u, and what follows the closing brace: one digit to
six, with underscores behind any of them. -/
def codePoint? (digits acc : Nat) : List Char → Option (Nat × List Char)
  | [] => none
  | c :: cs =>
    if c = '\x7d' then if 0 < digits then some (acc, cs) else none
    else if c = '_' then if 0 < digits then codePoint? digits acc cs else none
    else if digits < 6 then (digitValue 16 c).bind fun d => codePoint? (digits + 1) (acc * 16 + d) cs
    else none

/-- What is written behind a backslash, and what follows: a character, or nothing if the line ends there. -/
def escaped? : List Char → Option (List Char × List Char)
  | [] => none
  | '\n' :: cs => some ([], cs.dropWhile (· ∈ [' ', '\t', '\n', '\r']))
  | 'x' :: high :: low :: cs =>
    (digitValue 8 high).bind fun h => (digitValue 16 low).map fun l => ([Char.ofNat (h * 16 + l)], cs)
  | 'u' :: '\x7b' :: cs =>
    (codePoint? 0 0 cs).bind fun (n, rest) => if n.isValidChar then some ([Char.ofNat n], rest) else none
  | letter :: cs => ((('\x27', '\x27') :: shortEscapes).lookup letter).map fun c => ([c], cs)

theorem codePoint?_length {digits acc n : Nat} {cs rest : List Char} (h : codePoint? digits acc cs = some (n, rest)) :
    rest.length < cs.length := by
  induction cs generalizing digits acc with
  | nil => cases h
  | cons c cs ih =>
      rw [codePoint?] at h
      split at h
      · split at h
        · cases h
          exact Nat.lt_succ_self _
        · cases h
      · split at h
        · split at h
          · exact Nat.lt_succ_of_lt (ih h)
          · cases h
        · split at h
          · obtain ⟨d, -, h⟩ := Option.bind_eq_some_iff.1 h
            exact Nat.lt_succ_of_lt (ih h)
          · cases h

theorem escaped?_length {cs text rest : List Char} (h : escaped? cs = some (text, rest)) :
    rest.length < cs.length := by
  rw [escaped?.eq_def] at h
  split at h
  · cases h
  · next cs =>
      cases h
      exact Nat.lt_succ_of_le (List.dropWhile_suffix _).length_le
  · obtain ⟨high, -, h⟩ := Option.bind_eq_some_iff.1 h
    obtain ⟨low, -, h⟩ := Option.map_eq_some_iff.1 h
    cases h
    simp only [List.length_cons]
    omega
  · obtain ⟨⟨n, more⟩, hpoint, h⟩ := Option.bind_eq_some_iff.1 h
    have hlength := codePoint?_length hpoint
    simp only at h
    split at h
    · cases h
      simp only [List.length_cons]
      omega
    · cases h
  · obtain ⟨c, -, h⟩ := Option.map_eq_some_iff.1 h
    cases h
    exact Nat.lt_succ_self _

/-- The value of a literal from behind its opening quote, and what follows its closing quote. -/
def literalFrom : List Char → Option (List Char × List Char)
  | [] => none
  | c :: cs =>
    if c = '"' then some ([], cs)
    else if c = '\r' then none
    else if c = '\\' then
      match h : escaped? cs with
      | none => none
      | some (text, more) =>
        have := escaped?_length h
        (literalFrom more).map fun (value, rest) => (text ++ value, rest)
    else (literalFrom cs).map fun (value, rest) => (c :: value, rest)
termination_by cs => cs.length
decreasing_by all_goals simp only [List.length_cons]; omega

/-- One literal at the head of a text: its value, and what follows it. -/
def literal? : List Char → Option (List Char × List Char)
  | '"' :: cs => literalFrom cs
  | _ => none

/-- The first literal of a line: what stands before it, its value, and what follows it. -/
def firstLiteral? (line : String) : Option (String × String × String) :=
  (literal? (line.toList.dropWhile (· != '"'))).map fun (value, rest) =>
    (String.ofList (line.toList.takeWhile (· != '"')), String.ofList value, String.ofList rest)

/-- A literal with every form of escape. -/
example : firstLiteral? "x(\"\\x41\\'\\u\x7b30_1\x7d\\\n  \\0\", 1)" = some ("x(", "A'\u0301\x00", ", 1)") := by
  decide +kernel

/-! ### Reading an escaped character -/

theorem digitValue_digitChar {d : Nat} (h : d < 16) : digitValue 16 d.digitChar = some d ∧ d.digitChar ≠ '\x7d' := by
  have hall : ∀ d < 16, digitValue 16 d.digitChar = some d ∧ d.digitChar ≠ '\x7d' := by decide +kernel
  exact hall d h

theorem hexDigits_of_lt {n : Nat} (h : n < 16) : hexDigits n = [n.digitChar] := by
  exact Nat.toDigits_of_lt_base h

theorem hexDigits_of_le {n : Nat} (h : 16 ≤ n) : hexDigits n = hexDigits (n / 16) ++ [(n % 16).digitChar] := by
  exact Nat.toDigits_of_base_le (by decide) h

theorem escapeChar_cases (c : Char) :
    (∃ letter, (letter, c) ∈ shortEscapes ∧ escapeChar c = ['\\', letter]) ∨ escapeChar c = byNumber c
      ∨ escapeChar c = [c] ∧ c ≠ '"' ∧ c ≠ '\\' := by
  by_cases h : ∃ letter, (letter, c) ∈ shortEscapes
  · obtain ⟨letter, hletter⟩ := h
    have hshort : ∀ e ∈ shortEscapes, escapeChar e.2 = ['\\', e.1] := by decide
    exact Or.inl ⟨letter, hletter, hshort _ hletter⟩
  · have hall : ∀ e ∈ shortEscapes, c ≠ e.2 := by
      rintro e he rfl
      exact h ⟨e.1, he⟩
    simp only [shortEscapes, List.forall_mem_cons] at hall
    obtain ⟨hzero, htab, hreturn, hline, hslash, hquote, -⟩ := hall
    rw [escapeChar, if_neg hzero, if_neg htab, if_neg hreturn, if_neg hline, if_neg hslash, if_neg hquote]
    split
    · exact Or.inr (Or.inl rfl)
    · split
      · exact Or.inr (Or.inr ⟨rfl, hquote, hslash⟩)
      · exact Or.inr (Or.inl rfl)

theorem codePoint?_digit {digits acc d : Nat} {cs : List Char} (hdigits : digits < 6) (hd : d < 16) :
    codePoint? digits acc (d.digitChar :: cs) = codePoint? (digits + 1) (acc * 16 + d) cs := by
  obtain ⟨hvalue, hbrace⟩ := digitValue_digitChar hd
  have hunderscore : d.digitChar ≠ '_' := by
    intro heq
    rw [heq] at hvalue
    cases hvalue
  rw [codePoint?, if_neg hbrace, if_neg hunderscore, if_pos hdigits, hvalue, Option.bind_some]

theorem codePoint?_hexDigits {n : Nat} (h : (hexDigits n).length ≤ 6) (cs : List Char) :
    codePoint? 0 0 (hexDigits n ++ cs) = codePoint? (hexDigits n).length n cs := by
  induction n using Nat.strongRecOn generalizing cs with
  | ind n ih =>
      by_cases hn : n < 16
      · rw [hexDigits_of_lt hn, List.singleton_append, codePoint?_digit (by decide) hn]
        simp only [Nat.zero_mul, Nat.zero_add, List.length_singleton]
      · have hlast := hexDigits_of_le (n := n) (by omega)
        have hlength : (hexDigits n).length = (hexDigits (n / 16)).length + 1 := by
          rw [hlast, List.length_append, List.length_singleton]
        have hfirst := ih (n / 16) (by omega) (by omega) ((n % 16).digitChar :: cs)
        rw [hlength, hlast, List.append_assoc, List.singleton_append, hfirst,
          codePoint?_digit (by omega) (by omega), Nat.div_add_mod']

theorem length_hexDigits_le (c : Char) : (hexDigits c.toNat).length ≤ 6 := by
  have hvalid : c.toNat.isValidChar := c.valid
  have hlt : c.toNat < 16 ^ 6 := by
    rw [Nat.isValidChar] at hvalid
    omega
  exact (Nat.length_toDigits_le_iff (by decide) (by decide)).2 hlt

theorem escaped?_byNumber (c : Char) (rest : List Char) :
    escaped? ('u' :: '\x7b' :: (hexDigits c.toNat ++ '\x7d' :: rest)) = some ([c], rest) := by
  have hsome : 0 < (hexDigits c.toNat).length := Nat.length_toDigits_pos
  have hpoint : codePoint? 0 0 (hexDigits c.toNat ++ '\x7d' :: rest) = some (c.toNat, rest) := by
    rw [codePoint?_hexDigits (length_hexDigits_le c), codePoint?, if_pos rfl, if_pos hsome]
  have hvalid : c.toNat.isValidChar := c.valid
  rw [escaped?, hpoint, Option.bind_some]
  simp only [if_pos hvalid, Char.ofNat_toNat]

theorem escaped?_short {letter c : Char} (h : (letter, c) ∈ shortEscapes) (rest : List Char) :
    escaped? (letter :: rest) = some ([c], rest) := by
  simp only [shortEscapes, List.mem_cons, Prod.mk.injEq, List.not_mem_nil, or_false] at h
  obtain ⟨rfl, rfl⟩ | ⟨rfl, rfl⟩ | ⟨rfl, rfl⟩ | ⟨rfl, rfl⟩ | ⟨rfl, rfl⟩ | ⟨rfl, rfl⟩ := h <;> rfl

theorem literalFrom_escaped {cs text more : List Char} (h : escaped? cs = some (text, more)) :
    literalFrom ('\\' :: cs) = (literalFrom more).map fun (value, rest) => (text ++ value, rest) := by
  rw [literalFrom, if_neg (by decide), if_neg (by decide), if_pos rfl]
  split
  · next hnone => rw [hnone] at h; cases h
  · next text' more' hsome =>
      rw [hsome] at h
      cases h
      rfl

theorem literalFrom_of_ne {c : Char} (hquote : c ≠ '"') (hreturn : c ≠ '\r') (hslash : c ≠ '\\') (cs : List Char) :
    literalFrom (c :: cs) = (literalFrom cs).map fun (value, rest) => (c :: value, rest) := by
  rw [literalFrom, if_neg hquote, if_neg hreturn, if_neg hslash]

theorem literalFrom_escapeChar (c : Char) (rest : List Char) :
    literalFrom (escapeChar c ++ rest) = (literalFrom rest).map fun (value, after) => (c :: value, after) := by
  rcases escapeChar_cases c with ⟨letter, hletter, hescape⟩ | hescape | ⟨hescape, hquote, hslash⟩
  · rw [hescape]
    exact literalFrom_escaped (escaped?_short hletter rest)
  · have hnumber : byNumber c ++ rest = '\\' :: 'u' :: '\x7b' :: (hexDigits c.toNat ++ '\x7d' :: rest) := by
      simp [byNumber]
    rw [hescape, hnumber]
    exact literalFrom_escaped (escaped?_byNumber c rest)
  · have hreturn : c ≠ '\r' := by
      rintro rfl
      cases hescape
    rw [hescape]
    exact literalFrom_of_ne hquote hreturn hslash rest

theorem literalFrom_escape (cs rest : List Char) : literalFrom (escape cs ++ '"' :: rest) = some (cs, rest) := by
  induction cs with
  | nil => rw [escape, List.flatMap_nil, List.nil_append, literalFrom, if_pos rfl]
  | cons c cs ih =>
      have hescape : escape (c :: cs) = escapeChar c ++ escape cs := List.flatMap_cons
      rw [hescape, List.append_assoc, literalFrom_escapeChar, ih, Option.map_some]

/-! ### Reading a quoted text -/

theorem toList_quote (s : String) : (quote s).toList = '"' :: (escape s.toList ++ ['"']) := by
  simp [quote]

/-- A quoted text is one literal of the language, and its value is the text. -/
theorem literal?_quote (s : String) (rest : List Char) :
    literal? ((quote s).toList ++ rest) = some (s.toList, rest) := by
  have hquote : (quote s).toList ++ rest = '"' :: (escape s.toList ++ '"' :: rest) := by
    simp [toList_quote]
  rw [hquote, literal?, literalFrom_escape]

theorem firstLiteral?_quote {before : String} (h : '"' ∉ before.toList) (s after : String) :
    firstLiteral? (before ++ quote s ++ after) = some (before, s, after) := by
  have hline : (before ++ quote s ++ after).toList = before.toList ++ ((quote s).toList ++ after.toList) := by
    rw [String.toList_append, String.toList_append, List.append_assoc]
  have hskip : ∀ c ∈ before.toList, (c != '"') = true := by
    intro c hc
    rw [bne_iff_ne]
    rintro rfl
    exact h hc
  have hdrop : (before ++ quote s ++ after).toList.dropWhile (· != '"') = (quote s).toList ++ after.toList := by
    rw [hline, List.dropWhile_append_of_pos hskip, toList_quote]
    rfl
  have htake : (before ++ quote s ++ after).toList.takeWhile (· != '"') = before.toList := by
    rw [hline, List.takeWhile_append_of_pos hskip, toList_quote]
    exact List.append_nil _
  rw [firstLiteral?, hdrop, htake, literal?_quote, Option.map_some]
  simp only [String.ofList_toList]

theorem newline_not_mem_hexDigits (n : Nat) : '\n' ∉ hexDigits n := by
  induction n using Nat.strongRecOn with
  | ind n ih =>
      have hdigit : ∀ d < 16, '\n' ∉ [d.digitChar] := by decide
      by_cases hn : n < 16
      · rw [hexDigits_of_lt hn]
        exact hdigit n hn
      · rw [hexDigits_of_le (by omega), List.mem_append, not_or]
        exact ⟨ih (n / 16) (by omega), hdigit (n % 16) (by omega)⟩

theorem newline_not_mem_escapeChar (c : Char) : '\n' ∉ escapeChar c := by
  rcases escapeChar_cases c with ⟨letter, hletter, hescape⟩ | hescape | ⟨hescape, -, -⟩
  · have hletters : ∀ e ∈ shortEscapes, '\n' ∉ ['\\', e.1] := by decide
    rw [hescape]
    exact hletters _ hletter
  · rw [hescape, byNumber]
    simp [newline_not_mem_hexDigits]
  · rw [hescape, List.mem_singleton]
    rintro rfl
    cases hescape

theorem newline_not_mem_quote (s : String) : '\n' ∉ (quote s).toList := by
  have hescape : '\n' ∉ escape s.toList := by
    rw [escape, List.mem_flatMap]
    rintro ⟨c, -, hc⟩
    exact newline_not_mem_escapeChar c hc
  simp [toList_quote, hescape]

end ApiContracts.Text
