import Mathlib.Data.List.Forall2

/-!
# Scanning by classes of characters

A text is scanned from its start by a sequence of parts: one character of a class, or as many of a class as
there are. A part that repeats takes all it can and gives back one by one where the parts behind it fail, so a
scan that succeeds answers with one of the ways to cut a beginning of the text (`scan_sound`), and where
nothing that is given back could help it is the way without giving back (`scan_many`).
-/

namespace ApiContracts.Text

inductive Part where
  | one (p : Char → Bool)
  | many (p : Char → Bool)

/-- Whether a part may take these characters. -/
def Part.Takes : Part → List Char → Prop
  | .one p, w => ∃ c, p c = true ∧ w = [c]
  | .many p, w => ∀ c ∈ w, p c = true

section Repeated

variable {α : Type}

/-- The most characters of a class behind which the rest can be scanned. -/
def repeated (p : Char → Bool) (next : List Char → Option α) : List Char → Option (List Char × α)
  | [] => (next []).map fun a => ([], a)
  | c :: cs =>
    let more := if p c then (repeated p next cs).map fun (w, a) => (c :: w, a) else none
    more.or ((next (c :: cs)).map fun a => ([], a))

theorem repeated_sound {p : Char → Bool} {next : List Char → Option α} {cs w : List Char} {a : α}
    (h : repeated p next cs = some (w, a)) :
    (∀ c ∈ w, p c = true) ∧ ∃ rest, cs = w ++ rest ∧ next rest = some a := by
  have hnone {cs w : List Char} (h : (next cs).map (fun a => (([] : List Char), a)) = some (w, a)) :
      (∀ c ∈ w, p c = true) ∧ ∃ rest, cs = w ++ rest ∧ next rest = some a := by
    obtain ⟨a', ha, heq⟩ := Option.map_eq_some_iff.1 h
    cases heq
    exact ⟨by simp, cs, rfl, ha⟩
  induction cs generalizing w with
  | nil => exact hnone h
  | cons c cs ih =>
      rw [repeated, Option.or_eq_some_iff] at h
      rcases h with h | ⟨-, h⟩
      · by_cases hc : p c = true
        · rw [if_pos hc, Option.map_eq_some_iff] at h
          obtain ⟨⟨w', a'⟩, hrest, heq⟩ := h
          cases heq
          obtain ⟨hw, rest, rfl, hnext⟩ := ih hrest
          exact ⟨List.forall_mem_cons.2 ⟨hc, hw⟩, rest, rfl, hnext⟩
        · rw [if_neg hc] at h
          cases h
      · exact hnone h

/-- A class takes all its characters up to one that it lacks, if the rest can be scanned there. -/
theorem repeated_append {p : Char → Bool} {next : List Char → Option α} {w cs : List Char} {c : Char} {a : α}
    (hw : ∀ x ∈ w, p x = true) (hc : p c = false) (h : next (c :: cs) = some a) :
    repeated p next (w ++ c :: cs) = some (w, a) := by
  induction w with
  | nil => simp [repeated, hc, h]
  | cons x w ih =>
      rw [List.forall_mem_cons] at hw
      rw [List.cons_append, repeated, if_pos hw.1, ih hw.2]
      rfl

end Repeated

def scan : List Part → List Char → Option (List (List Char))
  | [], _ => some []
  | .one _ :: _, [] => none
  | .one p :: parts, c :: cs => if p c then (scan parts cs).map ([c] :: ·) else none
  | .many p :: parts, cs => (repeated p (scan parts) cs).map fun (w, ws) => w :: ws

theorem scan_sound {parts : List Part} {cs : List Char} {ws : List (List Char)} (h : scan parts cs = some ws) :
    List.Forall₂ Part.Takes parts ws ∧ ∃ rest, cs = ws.flatten ++ rest := by
  induction parts generalizing cs ws with
  | nil =>
      cases h
      exact ⟨.nil, cs, rfl⟩
  | cons part parts ih =>
      cases part with
      | one p =>
          cases cs with
          | nil => cases h
          | cons c cs =>
              by_cases hc : p c = true
              · rw [scan, if_pos hc, Option.map_eq_some_iff] at h
                obtain ⟨ws', hws, rfl⟩ := h
                obtain ⟨htakes, rest, rfl⟩ := ih hws
                exact ⟨.cons ⟨c, hc, rfl⟩ htakes, rest, rfl⟩
              · rw [scan, if_neg hc] at h
                cases h
      | many p =>
          rw [scan, Option.map_eq_some_iff] at h
          obtain ⟨⟨w, ws'⟩, hrepeated, rfl⟩ := h
          obtain ⟨hw, behind, rfl, hws⟩ := repeated_sound hrepeated
          obtain ⟨htakes, rest, rfl⟩ := ih hws
          exact ⟨.cons hw htakes, rest, by rw [List.flatten_cons, List.append_assoc]⟩

theorem scan_one {p : Char → Bool} {parts : List Part} {c : Char} {cs : List Char} {ws : List (List Char)}
    (hc : p c = true) (h : scan parts cs = some ws) : scan (.one p :: parts) (c :: cs) = some ([c] :: ws) := by
  rw [scan, if_pos hc, h, Option.map_some]

theorem scan_many {p : Char → Bool} {parts : List Part} {w cs : List Char} {c : Char} {ws : List (List Char)}
    (hw : ∀ x ∈ w, p x = true) (hc : p c = false) (h : scan parts (c :: cs) = some ws) :
    scan (.many p :: parts) (w ++ c :: cs) = some (w :: ws) := by
  rw [scan, repeated_append hw hc h, Option.map_some]

end ApiContracts.Text
