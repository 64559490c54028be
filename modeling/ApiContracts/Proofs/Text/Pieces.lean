import ApiContracts.Text.Pieces

/-!
# Cutting texts that were put together

A separator between two parts is where they are cut again, if the first part holds none itself.
-/

namespace ApiContracts.Text

variable {sep : Char} {as bs : List Char}

theorem cut_append_left (h : sep ∉ as) :
    cut sep (as ++ bs) = (cut sep bs).map fun (before, after) => (as ++ before, after) := by
  induction as with
  | nil => simp
  | cons a as ih =>
      rw [List.mem_cons, not_or] at h
      have hne : ¬ a = sep := fun heq => h.1 heq.symm
      rw [List.cons_append, cut, if_neg hne, ih h.2, Option.map_map]
      rfl

theorem cut_append (h : sep ∉ as) : cut sep (as ++ sep :: bs) = some (as, bs) := by
  rw [cut_append_left h, cut, if_pos rfl, Option.map_some]
  simp only [List.append_nil]

theorem cut_eq_none (h : sep ∉ as) : cut sep as = none := by
  rw [← List.append_nil as, cut_append_left h, cut, Option.map_none]

theorem cut_eq_some {before after : List Char} :
    cut sep as = some (before, after) ↔ as = before ++ sep :: after ∧ sep ∉ before := by
  constructor
  · intro h
    induction as generalizing before with
    | nil => cases h
    | cons a as ih =>
        rw [cut] at h
        split at h
        · next heq =>
            cases h
            exact ⟨by rw [heq, List.nil_append], by simp⟩
        · next hne =>
            obtain ⟨⟨before', after'⟩, hcut, heq⟩ := Option.map_eq_some_iff.1 h
            cases heq
            obtain ⟨rfl, hnot⟩ := ih hcut
            refine ⟨rfl, ?_⟩
            rw [List.mem_cons, not_or]
            exact ⟨fun heq => hne heq.symm, hnot⟩
  · rintro ⟨rfl, h⟩
    exact cut_append h

theorem cut_eq_none_iff : cut sep as = none ↔ sep ∉ as := by
  constructor
  · intro h hmem
    obtain ⟨before, after, rfl, hnot⟩ := List.eq_append_cons_of_mem hmem
    rw [cut_append hnot] at h
    cases h
  · exact cut_eq_none

theorem cut_append_right (h : sep ∉ bs) :
    cut sep (as ++ bs) = (cut sep as).map fun (before, after) => (before, after ++ bs) := by
  induction as with
  | nil => rw [List.nil_append, cut_eq_none h, cut, Option.map_none]
  | cons a as ih =>
      rw [List.cons_append, cut, cut]
      split
      · rfl
      · rw [ih, Option.map_map, Option.map_map]
        rfl

theorem afterStart_append (start rest : List Char) : afterStart start (start ++ rest) = some rest := by
  induction start with
  | nil => rfl
  | cons p ps ih => rw [List.cons_append, afterStart, if_pos rfl, ih]

theorem eq_append_of_afterStart {start cs rest : List Char} (h : afterStart start cs = some rest) :
    cs = start ++ rest := by
  induction start generalizing cs with
  | nil => exact Option.some.inj h
  | cons p ps ih =>
      cases cs with
      | nil => cases h
      | cons c cs =>
          rw [afterStart] at h
          split at h
          · next heq => rw [heq, ih h, List.cons_append]
          · cases h

theorem afterStart_append_eq_none {start front rest : List Char} (h : afterStart start front = none)
    (h' : afterStart front start = none) : afterStart start (front ++ rest) = none := by
  induction start generalizing front with
  | nil => cases h
  | cons p ps ih =>
      cases front with
      | nil => cases h'
      | cons c cs =>
          rw [afterStart] at h h'
          rw [List.cons_append, afterStart]
          split
          · next heq =>
              rw [if_pos heq] at h
              rw [if_pos heq.symm] at h'
              exact ih h h'
          · rfl

theorem isSome_afterStart_iff {start cs : List Char} : (afterStart start cs).isSome = true ↔ start <+: cs := by
  rw [Option.isSome_iff_exists]
  constructor
  · rintro ⟨rest, hrest⟩
    exact ⟨rest, (eq_append_of_afterStart hrest).symm⟩
  · rintro ⟨rest, rfl⟩
    exact ⟨rest, afterStart_append start rest⟩

theorem holds_iff {part cs : List Char} : holds part cs = true ↔ part <:+: cs := by
  induction cs with
  | nil => rw [holds, List.isEmpty_iff, List.infix_nil]
  | cons c cs ih => rw [holds, Bool.or_eq_true, isSome_afterStart_iff, ih, List.infix_cons_iff]

theorem pieces_append_cons (as bs : List Char) :
    pieces sep (as ++ sep :: bs) = pieces sep as ++ pieces sep bs := by
  induction as with
  | nil => simp [pieces]
  | cons a as ih =>
      rw [List.cons_append, pieces, pieces, ih]
      split
      · rfl
      · cases hpieces : pieces sep as with
        | nil => exact absurd hpieces (pieces_ne_nil sep as)
        | cons first others => rfl

theorem pieces_of_not_mem (h : sep ∉ as) : pieces sep as = [as] := by
  induction as with
  | nil => rfl
  | cons a as ih =>
      rw [List.mem_cons, not_or] at h
      have hne : ¬ a = sep := fun heq => h.1 heq.symm
      rw [pieces, if_neg hne, ih h.2]

theorem pieces_append (h : sep ∉ as) : pieces sep (as ++ sep :: bs) = as :: pieces sep bs := by
  rw [pieces_append_cons, pieces_of_not_mem h, List.singleton_append]

theorem tail_pieces (cs : List Char) :
    (pieces sep cs).tail = ((cut sep cs).map fun (_, after) => pieces sep after).getD [] := by
  induction cs with
  | nil => rfl
  | cons c cs ih =>
      rw [pieces, cut]
      split
      · rfl
      · cases hpieces : pieces sep cs with
        | nil => exact absurd hpieces (pieces_ne_nil sep cs)
        | cons first others =>
            rw [hpieces, List.tail_cons] at ih
            rw [List.tail_cons, ih, Option.map_map]
            rfl

theorem length_pieces (cs : List Char) : (pieces sep cs).length = cs.count sep + 1 := by
  induction cs with
  | nil => rfl
  | cons c cs ih =>
      rw [pieces, List.count_cons]
      split
      · next hc => rw [List.length_cons, ih, if_pos (beq_iff_eq.2 hc)]
      · next hc =>
          rw [if_neg (by simpa using hc), Nat.add_zero]
          cases hpieces : pieces sep cs with
          | nil => exact absurd hpieces (pieces_ne_nil sep cs)
          | cons first others => rwa [hpieces] at ih

theorem not_mem_of_mem_pieces {cs piece : List Char} (h : piece ∈ pieces sep cs) : sep ∉ piece := by
  induction cs generalizing piece with
  | nil =>
      rw [pieces, List.mem_singleton] at h
      simp [h]
  | cons c cs ih =>
      rw [pieces] at h
      split at h
      · rcases List.mem_cons.1 h with rfl | h
        · simp
        · exact ih h
      · next hne =>
          split at h
          · next hnil => exact absurd hnil (pieces_ne_nil sep cs)
          · next first others hpieces =>
              rcases List.mem_cons.1 h with rfl | h
              · have hfirst : sep ∉ first := ih (by rw [hpieces]; exact List.mem_cons_self)
                rw [List.mem_cons, not_or]
                exact ⟨fun heq => hne heq.symm, hfirst⟩
              · exact ih (by rw [hpieces]; exact List.mem_cons_of_mem _ h)

/-! ### Pieces and joints -/

theorem splitText_of_not_mem {s : String} (h : sep ∉ s.toList) : splitText sep s = [s] := by
  rw [splitText, pieces_of_not_mem h, List.map_singleton, String.ofList_toList]

theorem pieces_eq_splitOn (cs : List Char) : pieces sep cs = cs.splitOn sep := by
  induction cs with
  | nil => rfl
  | cons c cs ih =>
      rw [pieces, ih, List.splitOn_cons_eq_if_modifyHead]
      by_cases hc : c = sep
      · rw [if_pos hc, if_pos (beq_iff_eq.2 hc)]
      · rw [if_neg hc, if_neg (by simpa using hc)]
        cases hrest : cs.splitOn sep with
        | nil => exact absurd hrest (List.splitOn_ne_nil sep cs)
        | cons first others => rfl

theorem pieces_inj : pieces sep as = pieces sep bs ↔ as = bs := by
  constructor
  · intro h
    have hback (cs : List Char) : [sep].intercalate (pieces sep cs) = cs := by
      rw [pieces_eq_splitOn, List.intercalate_splitOn]
    rw [← hback as, h, hback]
  · exact congrArg (pieces sep)

theorem splitText_ne_nil (s : String) : splitText sep s ≠ [] := by
  simp [splitText, pieces_ne_nil]

theorem splitText_inj {s t : String} : splitText sep s = splitText sep t ↔ s = t := by
  rw [splitText, splitText, List.map_inj_right fun _ _ => String.ofList_inj.1, pieces_inj, String.toList_inj]

/-- Texts that are joined by a separator which none of them holds are cut apart again. -/
theorem splitText_intercalate {joint : String} (hjoint : joint.toList = [sep]) {texts : List String}
    (hne : texts ≠ []) (h : ∀ t ∈ texts, sep ∉ t.toList) : splitText sep (joint.intercalate texts) = texts := by
  have hlists : ∀ cs ∈ texts.map String.toList, sep ∉ cs := List.forall_mem_map.2 h
  have hback : String.ofList ∘ String.toList = id := funext fun t => String.ofList_toList
  rw [splitText, String.toList_intercalate, hjoint, pieces_eq_splitOn,
    List.splitOn_intercalate sep hlists (by simpa using hne), List.map_map, hback, List.map_id]

/-! ### Pieces that are not empty -/

theorem exists_mem_pieces {cs : List Char} {c : Char} (h : c ∈ cs) (hc : c ≠ sep) :
    ∃ piece ∈ pieces sep cs, c ∈ piece := by
  induction cs with
  | nil => simp at h
  | cons d cs ih =>
      rw [pieces]
      split
      · next hd =>
          have hmem : c ∈ cs := (List.mem_cons.1 h).resolve_left fun heq => hc (heq.trans hd)
          obtain ⟨piece, hpiece, hin⟩ := ih hmem
          exact ⟨piece, List.mem_cons_of_mem _ hpiece, hin⟩
      · split
        · next hnil => exact absurd hnil (pieces_ne_nil sep cs)
        · next first others hpieces =>
            rcases List.mem_cons.1 h with rfl | h
            · exact ⟨c :: first, List.mem_cons_self, List.mem_cons_self⟩
            · obtain ⟨piece, hpiece, hin⟩ := ih h
              rw [hpieces] at hpiece
              rcases List.mem_cons.1 hpiece with rfl | hpiece
              · exact ⟨d :: piece, List.mem_cons_self, List.mem_cons_of_mem _ hin⟩
              · exact ⟨piece, List.mem_cons_of_mem _ hpiece, hin⟩

/-- A text that holds a separator, but not at its ends, is cut into two pieces or more that are not empty. -/
theorem two_le_length_filter_splitText {s : String} (hmem : sep ∈ s.toList) (hstart : ∀ rest, s.toList ≠ sep :: rest)
    (hend : ∀ rest, s.toList ≠ rest ++ [sep]) : 2 ≤ ((splitText sep s).filter (!·.isEmpty)).length := by
  obtain ⟨as, bs, hcut, has⟩ := List.eq_append_cons_of_mem hmem
  have hfirst : as ≠ [] := by
    rintro rfl
    exact hstart bs hcut
  have hsecond : bs ≠ [] := by
    rintro rfl
    exact hend as hcut
  have hlast : bs.getLast hsecond ≠ sep := by
    intro heq
    apply hend (as ++ sep :: bs.dropLast)
    rw [hcut, List.append_assoc, List.cons_append, ← heq, List.dropLast_concat_getLast]
  obtain ⟨piece, hpiece, hin⟩ := exists_mem_pieces (List.getLast_mem hsecond) hlast
  have hlater : 0 < (((pieces sep bs).map String.ofList).filter (!·.isEmpty)).length := by
    apply List.length_pos_of_mem (a := String.ofList piece)
    rw [List.mem_filter]
    exact ⟨List.mem_map_of_mem hpiece, by simpa using List.ne_nil_of_mem hin⟩
  have hkept : (!(String.ofList as).isEmpty) = true := by simpa using hfirst
  rw [splitText, hcut, pieces_append has, List.map_cons, List.filter_cons, if_pos hkept, List.length_cons]
  omega

end ApiContracts.Text
