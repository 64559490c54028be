import ApiContracts.Service.Response
import Mathlib.Data.List.Induction
import Mathlib.Data.List.Nodup

/-!
# Header lines by name

A line of a response counts for its name, the text before its colon in small letters. A line is added where no
other has its name, so lines are never dropped, and where no two had one name, no two come to have one. Several
lines that are added one after another are so many questions for the names that are there by then; as these are
the names at the start and those of the lines before, added or not, it can be told of each line by itself
whether it comes in (`newLines`).
-/

namespace ApiContracts

open Text

def lineName (line : String) : String := lower (headerName line)

theorem sameLetters_headerName {line name : String} :
    sameLetters (headerName line) name = true ↔ lineName line = lower name := by
  rw [sameLetters, beq_iff_eq, lineName]

namespace Response

def names (r : Response) : List String := r.headers.map lineName

def Distinct (r : Response) : Prop := r.names.Nodup

/-- The response with several header lines, each where none of its name is there yet. -/
def pushHeaders (r : Response) (lines : List String) : Response := lines.foldl pushHeader r

variable {r r' : Response} {line name : String} {lines : List String}

theorem names_congr (h : r.headers = r'.headers) : r.names = r'.names := by
  rw [names, h, names]

theorem distinct_of_headers_nil (h : r.headers = []) : r.Distinct := by
  rw [Distinct, names, h]
  exact List.nodup_nil

theorem headers_pushHeader_congr (h : r.headers = r'.headers) :
    (r.pushHeader line).headers = (r'.pushHeader line).headers := by
  unfold pushHeader
  rw [h]
  split
  · exact h
  · rfl

theorem headers_pushHeaders_congr (h : r.headers = r'.headers) :
    (r.pushHeaders lines).headers = (r'.pushHeaders lines).headers := by
  induction lines generalizing r r' with
  | nil => exact h
  | cons line lines ih => exact ih (headers_pushHeader_congr h)

@[simp] theorem pushHeaders_nil (r : Response) : r.pushHeaders [] = r := by
  rfl

@[simp] theorem pushHeaders_cons (r : Response) (line : String) (lines : List String) :
    r.pushHeaders (line :: lines) = (r.pushHeader line).pushHeaders lines := by
  rfl

theorem pushHeaders_append (r : Response) (lines later : List String) :
    r.pushHeaders (lines ++ later) = (r.pushHeaders lines).pushHeaders later := by
  rw [pushHeaders, List.foldl_append]
  rfl

theorem pushHeader_eq (r : Response) (line : String) :
    r.pushHeader line = if lineName line ∈ r.names then r else { r with headers := r.headers ++ [line] } := by
  have hany : (r.headers.any fun h => sameLetters (headerName h) (headerName line)) = true
      ↔ lineName line ∈ r.names := by
    simp [names, sameLetters_headerName, lineName]
  rw [pushHeader]
  exact if_congr hany rfl rfl

theorem names_pushHeader :
    (r.pushHeader line).names = if lineName line ∈ r.names then r.names else r.names ++ [lineName line] := by
  rw [pushHeader_eq]
  split
  · rfl
  · simp [names]

theorem mem_names_pushHeader : name ∈ (r.pushHeader line).names ↔ name ∈ r.names ∨ name = lineName line := by
  rw [names_pushHeader]
  split
  · next hmem =>
      refine ⟨Or.inl, ?_⟩
      intro h
      exact h.elim id fun heq => heq ▸ hmem
  · simp

theorem Distinct.pushHeader (h : r.Distinct) : (r.pushHeader line).Distinct := by
  rw [Distinct, names_pushHeader]
  split
  · exact h
  · next hmem =>
      apply List.Nodup.append h (List.nodup_singleton _)
      simpa using hmem

theorem mem_names_pushHeaders :
    name ∈ (r.pushHeaders lines).names ↔ name ∈ r.names ∨ name ∈ lines.map lineName := by
  induction lines generalizing r with
  | nil => simp
  | cons line lines ih => rw [pushHeaders_cons, ih, mem_names_pushHeader, List.map_cons, List.mem_cons, or_assoc]

theorem Distinct.pushHeaders (h : r.Distinct) : (r.pushHeaders lines).Distinct := by
  induction lines generalizing r with
  | nil => exact h
  | cons line lines ih => exact ih h.pushHeader

theorem Distinct.length_filter (h : r.Distinct) (hmem : lower name ∈ r.names) :
    (r.headers.filter fun line => sameLetters (headerName line) name).length = 1 := by
  have hcount : (r.headers.filter fun line => sameLetters (headerName line) name).length
      = r.names.count (lower name) := by
    rw [← List.countP_eq_length_filter, names, List.count_eq_countP, List.countP_map]
    rfl
  rw [hcount]
  exact List.count_eq_one_of_mem h hmem

/-! ### What several lines come to -/

/-- The lines whose name is neither taken nor that of a line before them, in order. -/
def newLines (taken lines : List String) : List String :=
  (lines.zipIdx.filter fun e => lineName e.1 ∉ taken ∧ lineName e.1 ∉ (lines.take e.2).map lineName).map Prod.fst

theorem newLines_concat (taken lines : List String) (line : String) :
    newLines taken (lines ++ [line])
      = newLines taken lines
        ++ if lineName line ∈ taken ∨ lineName line ∈ lines.map lineName then [] else [line] := by
  have hbefore : ∀ e ∈ lines.zipIdx, (lines ++ [line]).take e.2 = lines.take e.2 := by
    intro e he
    exact List.take_append_of_le_length (Nat.le_of_lt (List.mem_zipIdx' he).1)
  have hothers : (lines.zipIdx.filter fun e =>
        lineName e.1 ∉ taken ∧ lineName e.1 ∉ ((lines ++ [line]).take e.2).map lineName)
      = lines.zipIdx.filter fun e => lineName e.1 ∉ taken ∧ lineName e.1 ∉ (lines.take e.2).map lineName := by
    apply List.filter_congr
    intro e he
    rw [hbefore e he]
  rw [newLines, List.zipIdx_append, List.filter_append, hothers, List.map_append, newLines]
  congr 1
  simp only [List.zipIdx_singleton, Nat.zero_add, List.filter_cons, List.filter_nil, List.take_left]
  split
  · next h =>
      rw [decide_eq_true_eq, ← not_or] at h
      rw [if_neg h, List.map_singleton]
  · next h =>
      rw [decide_eq_true_eq, ← not_or, not_not] at h
      rw [if_pos h, List.map_nil]

theorem pushHeaders_eq (r : Response) (lines : List String) :
    r.pushHeaders lines = { r with headers := r.headers ++ newLines r.names lines } := by
  induction lines using List.reverseRecOn with
  | nil => simp [newLines]
  | append_singleton lines line ih =>
      rw [pushHeaders_append, pushHeaders_cons, pushHeaders_nil, pushHeader_eq, newLines_concat]
      simp only [mem_names_pushHeaders]
      split
      · rw [ih, List.append_nil]
      · rw [ih, List.append_assoc]

/-- Lines of names that are there add nothing. -/
theorem pushHeaders_of_mem_names (h : ∀ line ∈ lines, lineName line ∈ r.names) : r.pushHeaders lines = r := by
  induction lines with
  | nil => rfl
  | cons line lines ih =>
      rw [List.forall_mem_cons] at h
      rw [pushHeaders_cons, pushHeader_eq, if_pos h.1, ih h.2]

theorem distinct_pushHeaders_iff : (r.pushHeaders lines).Distinct ↔ r.Distinct := by
  constructor
  · intro h
    rw [pushHeaders_eq, Distinct, names, List.map_append] at h
    exact h.of_append_left
  · exact Distinct.pushHeaders

/-- Lines that are added one after another stand behind those that were there, of each new name the first one and
nothing of the other names. So no line is changed or dropped, the names are distinct exactly if they were at the
start, and the same lines added once more change nothing. -/
theorem first_line_of_name_stays (r : Response) (lines : List String) :
    r.pushHeaders lines = { r with headers := r.headers ++ newLines r.names lines }
      ∧ ((r.pushHeaders lines).Distinct ↔ r.Distinct)
      ∧ (r.pushHeaders lines).pushHeaders lines = r.pushHeaders lines := by
  refine ⟨pushHeaders_eq r lines, distinct_pushHeaders_iff, ?_⟩
  apply pushHeaders_of_mem_names
  intro line hline
  exact mem_names_pushHeaders.2 (Or.inr (List.mem_map_of_mem hline))

/-- Letter case does not tell names apart, a blank before the colon does, and a line needs no colon. -/
example : ((Response.empty 204).pushHeaders ["Vary: a", "X-Mark", "vary : b", "x-mark: 2", "VARY:c"]).headers
    = ["Vary: a", "X-Mark", "vary : b"] := by
  decide +kernel

end Response

end ApiContracts
