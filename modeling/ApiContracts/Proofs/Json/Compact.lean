import ApiContracts.Proofs.Json.QuotedText

/-!
# Reading back compact texts

The compact text of a value that holds no numbers reads as that value, as long as its brackets stay within the
depth a reader goes to. The reader recurses on a bound; twice the length of the text is enough for it, since
an item costs one step for itself and one for the list it stands in, and takes two bytes at least, its own and
the one behind it.
-/

namespace ApiContracts.Json

open Text

/-- A value without numbers in which `n` brackets at most are open at once. -/
inductive Value.Numberless : Nat → Value → Prop where
  | null {n : Nat} : Numberless n .null
  | bool {n : Nat} {b : Bool} : Numberless n (.bool b)
  | str {n : Nat} {s : String} : Numberless n (.str s)
  | arr {n : Nat} {items : List Value} (h : ∀ v ∈ items, Numberless n v) : Numberless (n + 1) (.arr items)
  | obj {n : Nat} {members : List (String × Value)} (h : ∀ m ∈ members, Numberless n m.2) :
      Numberless (n + 1) (.obj members)

/-! ### The bytes of a compact text -/

def compactBytes (v : Value) : List UInt8 := bytesOf v.compact

def memberBytes (m : String × Value) : List UInt8 := bytesOf (stringText m.1) ++ 0x3a :: compactBytes m.2

def separator (first : Bool) : List UInt8 := if first then [] else [0x2c]

/-- Parts with commas between them, and one in front if a part went before. -/
def separated : Bool → List (List UInt8) → List UInt8
  | _, [] => []
  | first, part :: parts => separator first ++ (part ++ separated false parts)

theorem bytesOf_intercalate (parts : List String) :
    bytesOf (",".intercalate parts) = separated true (parts.map bytesOf) := by
  have hrest : ∀ part parts, bytesOf (",".intercalate (part :: parts))
      = bytesOf part ++ separated false (parts.map bytesOf) := by
    intro part parts
    induction parts generalizing part with
    | nil => rw [String.intercalate_singleton, List.map_nil, separated, List.append_nil]
    | cons next parts ih =>
        have hcomma : bytesOf "," = separator false := by decide +kernel
        rw [String.intercalate_cons_of_ne_nil (List.cons_ne_nil next parts), bytesOf_append, bytesOf_append, ih,
          hcomma, List.map_cons, separated, List.append_assoc]
  cases parts with
  | nil => decide +kernel
  | cons part parts => exact hrest part parts

theorem compactItems_eq_map (items : List Value) : compactItems items = items.map Value.compact := by
  induction items with
  | nil => rfl
  | cons v items ih => rw [compactItems, ih, List.map_cons]

theorem compactMembers_eq_map (members : List (String × Value)) :
    compactMembers members = members.map fun m => stringText m.1 ++ ":" ++ m.2.compact := by
  induction members with
  | nil => rfl
  | cons m members ih => rw [compactMembers, ih, List.map_cons]

theorem compactBytes_str (s : String) : compactBytes (.str s) = bytesOf (stringText s) := by
  rw [compactBytes, Value.compact]

theorem compactBytes_arr (items : List Value) :
    compactBytes (.arr items) = 0x5b :: (separated true (items.map compactBytes) ++ [0x5d]) := by
  have hopen : bytesOf "[" = [0x5b] := by decide +kernel
  have hclose : bytesOf "]" = [0x5d] := by decide +kernel
  rw [compactBytes, Value.compact, bytesOf_append, bytesOf_append, hopen, hclose, bytesOf_intercalate,
    compactItems_eq_map, List.map_map]
  rfl

theorem compactBytes_obj (members : List (String × Value)) :
    compactBytes (.obj members) = 0x7b :: (separated true (members.map memberBytes) ++ [0x7d]) := by
  have hopen : bytesOf "\x7b" = [0x7b] := by decide +kernel
  have hclose : bytesOf "\x7d" = [0x7d] := by decide +kernel
  have hcolon : bytesOf ":" = [0x3a] := by decide +kernel
  have hmember : (bytesOf ∘ fun m : String × Value => stringText m.1 ++ ":" ++ m.2.compact) = memberBytes := by
    funext m
    rw [Function.comp_apply, bytesOf_append, bytesOf_append, hcolon, List.append_assoc]
    rfl
  rw [compactBytes, Value.compact, bytesOf_append, bytesOf_append, hopen, hclose, bytesOf_intercalate,
    compactMembers_eq_map, List.map_map, hmember]
  rfl

def StartsValue (b : UInt8) : Prop := Cursor.isJsonBlank b = false ∧ b ≠ 0x5d

theorem exists_compactBytes_cons {n : Nat} {v : Value} (hv : v.Numberless n) :
    ∃ b bytes, compactBytes v = b :: bytes ∧ StartsValue b := by
  cases hv with
  | null => exact ⟨0x6e, bytesOf "ull", by decide +kernel, rfl, by decide⟩
  | bool =>
      rename_i b
      cases b with
      | false => exact ⟨0x66, bytesOf "alse", by decide +kernel, rfl, by decide⟩
      | true => exact ⟨0x74, bytesOf "rue", by decide +kernel, rfl, by decide⟩
  | str => exact ⟨0x22, _, (compactBytes_str _).trans (bytesOf_stringText _), rfl, by decide⟩
  | arr => exact ⟨0x5b, _, compactBytes_arr _, rfl, by decide⟩
  | obj => exact ⟨0x7b, _, compactBytes_obj _, rfl, by decide⟩

/-! ### Parts of lists and objects -/

section Parts

variable {c : Cursor} {rest : List UInt8} {first : Bool}

theorem readWord_of_append {v : Value} {bytes : List UInt8} (h : c.rest = bytes ++ rest) :
    readWord v bytes c = .ok (v, c.advance bytes.length) := by
  induction bytes generalizing c with
  | nil => rfl
  | cons b bytes ih =>
      rw [readWord, h]
      simp only [List.cons_append, beq_self_eq_true, if_true]
      rw [ih (Cursor.rest_next_of_cons h)]
      rfl

theorem nextItem_close (h : c.rest = 0x5d :: rest) : nextItem first c = .ok (false, c.next) := by
  rw [nextItem, Cursor.skipBlanks_of_cons h rfl]
  simp only [h]
  rfl

theorem nextItem_item {b : UInt8} (h : c.rest = separator first ++ b :: rest) (hb : StartsValue b) :
    nextItem first c = .ok (true, c.advance (separator first).length) := by
  cases first with
  | true =>
      rw [nextItem, Cursor.skipBlanks_of_cons h hb.1]
      simp only [h, separator, if_true, List.nil_append, beq_eq_false_iff_ne.2 hb.2, Bool.false_eq_true, if_false]
      rfl
  | false =>
      have hbehind : c.next.rest = b :: rest := Cursor.rest_next_of_cons h
      rw [nextItem, Cursor.skipBlanks_of_cons h rfl]
      simp only [h, separator, Bool.false_eq_true, if_false, List.cons_append, List.nil_append]
      rw [Cursor.skipBlanks_of_cons hbehind hb.1]
      simp only [hbehind, beq_eq_false_iff_ne.2 hb.2]
      rfl

theorem nextMember_close (h : c.rest = 0x7d :: rest) : nextMember first c = .ok (false, c.next) := by
  rw [nextMember, Cursor.skipBlanks_of_cons h rfl]
  simp only [h]
  rfl

theorem nextMember_member (h : c.rest = separator first ++ 0x22 :: rest) :
    nextMember first c = .ok (true, (c.advance (separator first).length).next) := by
  cases first with
  | true =>
      rw [nextMember, Cursor.skipBlanks_of_cons h rfl]
      simp only [h]
      rfl
  | false =>
      have hbehind : c.next.rest = 0x22 :: rest := Cursor.rest_next_of_cons h
      rw [nextMember, Cursor.skipBlanks_of_cons h rfl]
      simp only [h, separator, Bool.false_eq_true, if_false, List.cons_append, List.nil_append]
      rw [Cursor.skipBlanks_of_cons hbehind rfl]
      simp only [hbehind]
      rfl

theorem readKey_stringText {key : String} (h : c.rest = bytesOf (stringText key) ++ 0x3a :: rest) :
    readKey c.next = .ok (key, c.advance ((bytesOf (stringText key)).length + 1)) := by
  have hbehind : (c.advance (bytesOf (stringText key)).length).rest = 0x3a :: rest := Cursor.rest_behind h
  rw [readKey, readString_stringText h]
  simp only [bind, Except.bind]
  rw [Cursor.skipBlanks_of_cons hbehind rfl]
  simp only [hbehind]
  rw [← Cursor.advance_advance]
  rfl

end Parts

/-! ### Whole values -/

/-- Whether a reader inside `depth` brackets gives back a value from its compact text. -/
def ReadsBack (depth : Nat) (v : Value) : Prop :=
  ∀ (fuel : Nat) (c : Cursor) (rest : List UInt8), c.rest = compactBytes v ++ rest →
    2 * (compactBytes v).length ≤ fuel → readAny fuel depth c = .ok (v, c.advance (compactBytes v).length)

section Values

variable {n depth fuel : Nat} {c : Cursor} {rest : List UInt8}

theorem readItems_compact {items : List Value} {first : Bool} (hitems : ∀ v ∈ items, v.Numberless n)
    (hread : ∀ v ∈ items, ReadsBack depth v)
    (h : c.rest = separated first (items.map compactBytes) ++ 0x5d :: rest)
    (hfuel : 2 * (separated first (items.map compactBytes)).length + 1 ≤ fuel) :
    readItems fuel depth first c
      = .ok (items, c.advance ((separated first (items.map compactBytes)).length + 1)) := by
  induction items generalizing fuel c first with
  | nil =>
      cases fuel with
      | zero => exact absurd hfuel (by omega)
      | succ fuel =>
          rw [readItems, nextItem_close h]
          rfl
  | cons v items ih =>
      rw [List.forall_mem_cons] at hitems hread
      obtain ⟨b, bytes, hbytes, hb⟩ := exists_compactBytes_cons hitems.1
      have hpos : 0 < (compactBytes v).length := by
        rw [hbytes, List.length_cons]
        exact Nat.succ_pos _
      rw [List.map_cons, separated, List.append_assoc, List.append_assoc] at h
      rw [List.map_cons, separated, List.length_append, List.length_append] at hfuel ⊢
      have hitem := Cursor.rest_behind h
      have hbehind := Cursor.rest_behind hitem
      cases fuel with
      | zero => exact absurd hfuel (by omega)
      | succ fuel =>
          rw [hbytes, List.cons_append] at h
          rw [readItems, nextItem_item h hb]
          simp only [bind, Except.bind, if_true]
          rw [hread.1 fuel _ _ hitem (by omega)]
          simp only
          rw [ih hitems.2 hread.2 hbehind (by omega), Cursor.advance_advance, Cursor.advance_advance, Nat.add_assoc,
            Nat.add_assoc]
          rfl

theorem readMembers_compact {members : List (String × Value)} {first : Bool}
    (hread : ∀ m ∈ members, ReadsBack depth m.2)
    (h : c.rest = separated first (members.map memberBytes) ++ 0x7d :: rest)
    (hfuel : 2 * (separated first (members.map memberBytes)).length + 1 ≤ fuel) :
    readMembers fuel depth first c
      = .ok (members, c.advance ((separated first (members.map memberBytes)).length + 1)) := by
  induction members generalizing fuel c first with
  | nil =>
      cases fuel with
      | zero => exact absurd hfuel (by omega)
      | succ fuel =>
          rw [readMembers, nextMember_close h]
          rfl
  | cons m members ih =>
      rw [List.forall_mem_cons] at hread
      have hlength : (memberBytes m).length
          = (bytesOf (stringText m.1)).length + 1 + (compactBytes m.2).length := by
        rw [memberBytes, List.length_append, List.length_cons]
        omega
      rw [List.map_cons, separated, List.append_assoc, List.append_assoc] at h
      rw [List.map_cons, separated, List.length_append, List.length_append, hlength] at hfuel ⊢
      have hquote : c.rest = separator first ++ 0x22 :: (encode (m.1.toList.flatMap escapeJsonChar) ++ [0x22]
          ++ 0x3a :: compactBytes m.2 ++ (separated false (members.map memberBytes) ++ 0x7d :: rest)) := by
        rw [h, memberBytes, bytesOf_stringText]
        rfl
      have hmember := Cursor.rest_behind h
      rw [memberBytes, List.append_assoc, List.cons_append] at hmember
      have hvalue := Cursor.rest_next_of_cons (Cursor.rest_behind hmember)
      rw [Cursor.next_eq_advance, Cursor.advance_advance] at hvalue
      have hbehind := Cursor.rest_behind hvalue
      cases fuel with
      | zero => exact absurd hfuel (by omega)
      | succ fuel =>
          rw [readMembers, nextMember_member hquote]
          simp only [bind, Except.bind, if_true]
          rw [readKey_stringText hmember]
          simp only
          rw [hread.1 fuel _ _ hvalue (by omega)]
          simp only
          rw [ih hread.2 hbehind (by omega), Cursor.advance_advance, Cursor.advance_advance, Cursor.advance_advance]
          simp only [Nat.add_assoc]
          rfl

theorem readsBack_of_succ {v : Value} (hv : v.Numberless n)
    (hread : ∀ (fuel : Nat) (c : Cursor) (rest : List UInt8), c.rest = compactBytes v ++ rest →
      2 * (compactBytes v).length ≤ fuel + 1 →
        readAny (fuel + 1) depth c = .ok (v, c.advance (compactBytes v).length)) : ReadsBack depth v := by
  intro fuel c rest h hfuel
  obtain ⟨b, bytes, hbytes, -⟩ := exists_compactBytes_cons hv
  cases fuel with
  | zero =>
      rw [hbytes, List.length_cons] at hfuel
      omega
  | succ fuel => exact hread fuel c rest h hfuel

theorem readsBack_word {v : Value} {b : UInt8} {word : List UInt8} (hv : v.Numberless n)
    (hbytes : compactBytes v = b :: word)
    (hread : ∀ (fuel : Nat) (c : Cursor) (rest : List UInt8), c.rest = b :: rest →
      readAny (fuel + 1) depth c = readWord v word c.next) : ReadsBack depth v := by
  refine readsBack_of_succ hv ?_
  intro fuel c rest h _
  rw [hbytes, List.cons_append] at h
  rw [hread fuel c _ h, readWord_of_append (Cursor.rest_next_of_cons h), hbytes]
  rfl

theorem readAny_arr (h : c.rest = 0x5b :: rest) (hdepth : depth + 1 < maxDepth) :
    readAny (fuel + 1) depth c
      = (readItems fuel (depth + 1) true c.next).map fun (items, behind) => (.arr items, behind) := by
  rw [readAny, Cursor.skipBlanks_of_cons h rfl]
  simp only [h]
  show (if maxDepth ≤ depth + 1 then _ else _) = _
  rw [if_neg (Nat.not_le.2 hdepth)]
  rfl

theorem readAny_obj (h : c.rest = 0x7b :: rest) (hdepth : depth + 1 < maxDepth) :
    readAny (fuel + 1) depth c
      = (readMembers fuel (depth + 1) true c.next).map fun (members, behind) => (.obj members, behind) := by
  rw [readAny, Cursor.skipBlanks_of_cons h rfl]
  simp only [h]
  show (if maxDepth ≤ depth + 1 then _ else _) = _
  rw [if_neg (Nat.not_le.2 hdepth)]
  rfl

/-- The compact text of a value reads as the value, wherever it stands within the depth of a reader. -/
theorem readsBack {v : Value} (hv : v.Numberless n) (hdepth : depth + n < maxDepth) : ReadsBack depth v := by
  induction hv generalizing depth with
  | null =>
      refine readsBack_word (n := 0) .null (show _ = 0x6e :: bytesOf "ull" by decide +kernel) ?_
      intro fuel c rest h
      rw [readAny, Cursor.skipBlanks_of_cons h rfl]
      simp only [h]
      rfl
  | bool =>
      rename_i n b
      cases b with
      | false =>
          refine readsBack_word (n := 0) .bool (show _ = 0x66 :: bytesOf "alse" by decide +kernel) ?_
          intro fuel c rest h
          rw [readAny, Cursor.skipBlanks_of_cons h rfl]
          simp only [h]
          rfl
      | true =>
          refine readsBack_word (n := 0) .bool (show _ = 0x74 :: bytesOf "rue" by decide +kernel) ?_
          intro fuel c rest h
          rw [readAny, Cursor.skipBlanks_of_cons h rfl]
          simp only [h]
          rfl
  | str =>
      rename_i n s
      refine readsBack_of_succ (n := 0) .str ?_
      intro fuel c rest h _
      rw [compactBytes_str] at h ⊢
      have hquote := h
      rw [bytesOf_stringText, List.cons_append] at hquote
      rw [readAny, Cursor.skipBlanks_of_cons hquote rfl]
      simp only [hquote]
      show (readString c.next).map _ = _
      rw [readString_stringText h]
      rfl
  | arr hitems ih =>
      rename_i n items
      refine readsBack_of_succ (.arr hitems) ?_
      intro fuel c rest h hfuel
      rw [compactBytes_arr, List.length_cons, List.length_append, List.length_singleton] at hfuel ⊢
      rw [compactBytes_arr, List.cons_append, List.append_assoc] at h
      rw [readAny_arr h (by omega), readItems_compact hitems (fun v hv => ih v hv (by omega))
        (Cursor.rest_next_of_cons h) (by omega)]
      rfl
  | obj hmembers ih =>
      rename_i n members
      refine readsBack_of_succ (.obj hmembers) ?_
      intro fuel c rest h hfuel
      rw [compactBytes_obj, List.length_cons, List.length_append, List.length_singleton] at hfuel ⊢
      rw [compactBytes_obj, List.cons_append, List.append_assoc] at h
      rw [readAny_obj h (by omega), readMembers_compact (fun m hm => ih m hm (by omega))
        (Cursor.rest_next_of_cons h) (by omega)]
      rfl

theorem readValue_compact {v : Value} (hv : v.Numberless n) (hn : n < maxDepth) :
    ∃ c, readValue (.ofString v.compact) = .ok (v, c) ∧ readEnd c = .ok () := by
  have hrest : (Cursor.ofString v.compact).rest = compactBytes v ++ [] := (List.append_nil _).symm
  have hfuel : 2 * (compactBytes v).length ≤ 2 * (Cursor.ofString v.compact).rest.length + 2 := by
    rw [hrest, List.append_nil]
    omega
  refine ⟨_, readsBack hv (by omega) _ _ [] hrest hfuel, ?_⟩
  have hend := Cursor.rest_behind hrest
  rw [readEnd, Cursor.skipBlanks_of_nil hend]
  simp only [hend]

end Values

end ApiContracts.Json
