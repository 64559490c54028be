import ApiContracts.Text.Blank
import Mathlib.Data.List.DropRight

/-!
# Trimming

What is left of characters that are put together, and that the two ends are trimmed independently. Trimming finds
the one part of a text that has blank characters around it and none at its own ends (`Stripped`).
-/

namespace ApiContracts.Text

theorem trimEnd_eq_rdropWhile {cs : List Char} : trimEnd cs = cs.rdropWhile isBlank := by
  rfl

theorem trimStart_append {as bs : List Char} {c : Char} (has : ∀ a ∈ as, isBlank a = true)
    (hc : isBlank c = false) : trimStart (as ++ c :: bs) = c :: bs := by
  rw [trimStart, List.dropWhile_append_of_pos has, List.dropWhile_cons, if_neg (by simp [hc])]

theorem trimEnd_append {as bs : List Char} :
    trimEnd (as ++ bs) = if trimEnd bs = [] then trimEnd as else as ++ trimEnd bs := by
  simp only [trimEnd, List.reverse_append, List.dropWhile_append, List.isEmpty_iff,
    List.reverse_eq_nil_iff]
  split
  · rfl
  · rw [List.reverse_append, List.reverse_reverse]

theorem trimEnd_cons {c : Char} {cs : List Char} :
    trimEnd (c :: cs) = if trimEnd cs = [] ∧ isBlank c = true then [] else c :: trimEnd cs := by
  rw [← List.singleton_append, trimEnd_append]
  cases hblank : isBlank c with
  | true => simp [trimEnd, hblank]
  | false =>
      have hone : trimEnd [c] = [c] := by simp [trimEnd, hblank]
      split
      · next hnil => simp [hone, hnil]
      · simp

theorem trimStart_trimEnd {cs : List Char} : trimStart (trimEnd cs) = trimEnd (trimStart cs) := by
  induction cs with
  | nil => rfl
  | cons c cs ih =>
      unfold trimStart at ih ⊢
      rw [trimEnd_cons, List.dropWhile_cons]
      cases hblank : isBlank c with
      | true =>
          by_cases hnil : trimEnd cs = []
          · rw [hnil] at ih
            simpa [hnil] using ih
          · simpa [hnil, hblank] using ih
      | false => simp [hblank, trimEnd_cons]

theorem trim_trimEnd {cs : List Char} : trim (trimEnd cs) = trim cs := by
  rw [trim, trim, trimStart_trimEnd, trimEnd_eq_rdropWhile, trimEnd_eq_rdropWhile,
    List.rdropWhile_idempotent]

theorem trimEnd_of_not_blank {cs : List Char} (h : ∀ c ∈ cs, isBlank c = false) :
    trimEnd cs = cs := by
  rw [trimEnd_eq_rdropWhile, List.rdropWhile_eq_self_iff]
  intro hne
  simp [h _ (List.getLast_mem hne)]

theorem trim_of_not_blank {cs : List Char} (h : ∀ c ∈ cs, isBlank c = false) : trim cs = cs := by
  have hstart : trimStart cs = cs := by
    cases cs with
    | nil => rfl
    | cons c cs => simp [trimStart, h c List.mem_cons_self]
  rw [trim, hstart, trimEnd_of_not_blank h]

theorem trim_append {word cs : List Char} (hne : word ≠ []) (hword : ∀ c ∈ word, isBlank c = false) :
    trim (word ++ cs) = word ++ trimEnd cs := by
  obtain ⟨c, rest, rfl⟩ := List.exists_cons_of_ne_nil hne
  have hc : isBlank c = false := hword c List.mem_cons_self
  rw [trim, trimStart, List.cons_append, List.dropWhile_cons, if_neg (by simp [hc]),
    ← List.cons_append, trimEnd_append]
  split
  · next hnil => rw [trimEnd_of_not_blank hword, hnil, List.append_nil]
  · rfl

/-! ### What trimming finds -/

/-- Whether characters are others without the blank ones at both ends. -/
structure Stripped (cs core : List Char) : Prop where
  around : ∃ front back, cs = front ++ core ++ back ∧ (∀ c ∈ front, isBlank c = true) ∧ ∀ c ∈ back, isBlank c = true
  head : ∀ c ∈ core.head?, isBlank c = false
  last : ∀ c ∈ core.getLast?, isBlank c = false

theorem trimEnd_of_last {core : List Char} (h : ∀ c ∈ core.getLast?, isBlank c = false) : trimEnd core = core := by
  rw [trimEnd_eq_rdropWhile, List.rdropWhile_eq_self_iff]
  intro hne
  simp [h _ (List.getLast?_eq_getLast_of_ne_nil hne)]

theorem trimEnd_append_of_blank {core back : List Char} (h : ∀ c ∈ back, isBlank c = true) :
    trimEnd (core ++ back) = trimEnd core := by
  have hback : trimEnd back = [] := by
    rw [trimEnd_eq_rdropWhile, List.rdropWhile_eq_nil_iff]
    exact h
  rw [trimEnd_append, if_pos hback]

theorem stripped_trim (cs : List Char) : Stripped cs (trim cs) := by
  refine ⟨⟨cs.takeWhile isBlank, (trimStart cs).rtakeWhile isBlank, ?_, ?_, ?_⟩, ?_, ?_⟩
  · rw [List.append_assoc, trim, trimEnd_eq_rdropWhile, List.rdropWhile_append_rtakeWhile]
    exact List.takeWhile_append_dropWhile.symm
  · exact fun c hc => List.mem_takeWhile_imp hc
  · exact fun c hc => List.mem_rtakeWhile_imp hc
  · intro c hc
    have hfirst := List.head?_dropWhile_not isBlank (trimEnd cs)
    rw [trim, ← trimStart_trimEnd, trimStart, Option.mem_def] at hc
    rwa [hc] at hfirst
  · intro c hc
    obtain ⟨hne, rfl⟩ := List.mem_getLast?_eq_getLast hc
    exact Bool.eq_false_iff.2 (List.rdropWhile_last_not isBlank (trimStart cs) hne)

theorem trim_eq_iff {cs core : List Char} : trim cs = core ↔ Stripped cs core := by
  constructor
  · rintro rfl
    exact stripped_trim cs
  · rintro ⟨⟨front, back, rfl, hfront, hback⟩, hhead, hlast⟩
    cases core with
    | nil =>
        have hblank : ∀ c ∈ front ++ back, isBlank c = true := List.forall_mem_append.2 ⟨hfront, hback⟩
        rw [List.append_nil, trim, trimStart, List.dropWhile_eq_nil_iff.2 hblank]
        rfl
    | cons c rest =>
        have hc : isBlank c = false := hhead c rfl
        rw [trim, List.append_assoc, List.cons_append, trimStart_append hfront hc, ← List.cons_append,
          trimEnd_append_of_blank hback, trimEnd_of_last hlast]

end ApiContracts.Text
