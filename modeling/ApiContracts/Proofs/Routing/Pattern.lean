import ApiContracts.Routing.Tree
import Mathlib.Data.List.Forall2

/-!
# What a pattern matches

The segments of a pattern against those of a request, read from the texts themselves: a segment
written `:name` or `{name}` admits every segment of a request, and every other one admits only itself.
`Route.Matches` says this of a whole path, and `matches_iff` ties it to the classified segments that
the route tree stores. `Precedes` is the one reason a search has to prefer a pattern to another,
whatever the order in which the two were added.
-/

namespace ApiContracts.Routing

namespace Segment

/-- Whether the text of a segment is a parameter of this name. -/
def Names (text name : String) : Prop := text = ":" ++ name ∨ text = "\x7b" ++ name ++ "\x7d"

/-- Whether a segment of a pattern, by its text, admits a segment of a request. -/
def Admits (text s : String) : Prop := (∃ name, Names text name) ∨ text = s

theorem names_iff_toList {text name : String} :
    Names text name ↔ text.toList = ':' :: name.toList
      ∨ text.toList = '\x7b' :: (name.toList ++ ['\x7d']) := by
  simp [Names, ← String.toList_inj]

theorem ofText_eq_param {text name : String} : ofText text = .param name ↔ Names text name := by
  rw [names_iff_toList, ofText]
  split
  · next inner h => simp [h, ← String.toList_inj]
  · next inner h =>
      split
      · next hlast =>
          obtain ⟨init, rfl⟩ := List.getLast?_eq_some_iff.1 hlast
          simp [h, ← String.toList_inj]
      · next hlast =>
          simp only [h, reduceCtorEq, List.cons.injEq, true_and, false_iff, not_or]
          exact ⟨by simp, fun hinner => hlast (by simp [hinner])⟩
  · next hcolon hbrace =>
      simp only [reduceCtorEq, false_iff, not_or]
      exact ⟨fun h => hcolon _ h, fun h => hbrace _ h⟩

theorem ofText_eq_static {text s : String} (h : ofText text = .static s) : text = s := by
  simp only [ofText] at h
  split at h
  · simp at h
  · split at h
    · simp at h
    · simpa using h
  · simpa using h

theorem takes_ofText {text s : String} : (ofText text).takes s = true ↔ Admits text s := by
  cases h : ofText text with
  | param name =>
      have hnames : Names text name := ofText_eq_param.1 h
      simp only [takes, true_iff]
      exact Or.inl ⟨name, hnames⟩
  | static t =>
      have hnone : ¬ ∃ name, Names text name := by
        rintro ⟨name, hname⟩
        rw [ofText_eq_param.2 hname] at h
        simp at h
      rw [Admits, or_iff_right hnone, takes, beq_iff_eq, ofText_eq_static h]

end Segment

/-- Whether a path matches the pattern of a route, segment by segment. -/
def Route.Matches (r : Route) (path : String) : Prop :=
  List.Forall₂ Segment.Admits (segments r.path) (segments path)

@[simp] theorem fits_nil_left {ss : List String} : fits [] ss = true ↔ ss = [] := by
  cases ss <;> simp [fits]

@[simp] theorem fits_nil_right {ps : List Segment} : fits ps [] = true ↔ ps = [] := by
  cases ps <;> simp [fits]

@[simp] theorem fits_cons {p : Segment} {ps : List Segment} {s : String} {ss : List String} :
    fits (p :: ps) (s :: ss) = true ↔ p.takes s = true ∧ fits ps ss = true := by
  simp [fits]

theorem fits_map_ofText {texts ss : List String} :
    fits (texts.map Segment.ofText) ss = true ↔ List.Forall₂ Segment.Admits texts ss := by
  induction texts generalizing ss with
  | nil => simp [List.forall₂_nil_left_iff]
  | cons text texts ih =>
      cases ss with
      | nil => simp
      | cons s ss => simp [Segment.takes_ofText, ih]

theorem matches_iff {r : Route} {path : String} :
    r.Matches path ↔ fits r.pattern (segments path) = true := by
  rw [Route.Matches, Route.pattern, pattern, fits_map_ofText]

@[simp] theorem bindings_nil (ss : List String) : bindings [] ss = [] := by
  simp [bindings]

@[simp] theorem bindings_cons (p : Segment) (ps : List Segment) (s : String) (ss : List String) :
    bindings (p :: ps) (s :: ss) = p.binding s ++ bindings ps ss := by
  simp [bindings]

/-- Where the two patterns first differ, the first has a static segment and the second a parameter. -/
inductive Precedes : List Segment → List Segment → Prop
  | here {t name : String} {ps qs : List Segment} : Precedes (.static t :: ps) (.param name :: qs)
  | under {p : Segment} {ps qs : List Segment} : Precedes ps qs → Precedes (p :: ps) (p :: qs)

theorem Route.eq_of_endpoint {r r' : Route} (hmethod : r.method = r'.method)
    (hkey : r.endpoint = r'.endpoint) : r = r' := by
  have hpath : r.path = r'.path := by
    simpa [Route.endpoint, hmethod] using hkey
  cases r
  cases r'
  simp_all

end ApiContracts.Routing
