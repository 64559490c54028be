import ApiContracts.FileTree.Basic
import ApiContracts.Proofs.Text.Pieces
import Mathlib.Data.List.Infix

/-!
# Where paths lead

A path is walked step by step from the root or from the working directory: a single dot stays, two dots go up,
and whatever is written behind the root goes down. That is a matter of the text alone; a system that follows a
path asks of every name on the way what is there, but when it arrives it is nowhere else. Two paths written one
behind the other are walked one after the other. A walk leaves the place where it started when it has gone up
more often than down, and then it depends no longer on where that was.
-/

namespace ApiContracts

open Text

namespace Path

/-- Where steps lead from the names of a directory. Above the root there is nothing. -/
def walk : List String → List String → List String
  | place, [] => place
  | place, step :: rest =>
    if step = "." then walk place rest
    else if step = ".." then walk place.dropLast rest
    else walk (place ++ [step]) rest

def names (path : String) : List String := (splitText '/' path).filter (!·.isEmpty)

/-- The place of a path, by the names from the root. -/
def place (working : List String) (path : String) : List String :=
  walk (if isAbsolute path then [] else working) (names path)

/-- Whether a path leads to a directory or somewhere in it. -/
def Inside (working : List String) (directory path : String) : Prop :=
  place working directory <+: place working path

instance (working : List String) (directory path : String) : Decidable (Inside working directory path) :=
  inferInstanceAs (Decidable (_ <+: _))

/-! ### Walks -/

theorem walk_append (start : List String) (ahead steps : List String) :
    walk start (ahead ++ steps) = walk (walk start ahead) steps := by
  induction ahead generalizing start with
  | nil => rfl
  | cons step rest ih =>
      rw [List.cons_append, walk, walk]
      split
      · exact ih _
      · split
        · exact ih _
        · exact ih _

theorem walk_name {start : List String} {name : String} (hdot : name ≠ ".") (hup : name ≠ "..") :
    walk start [name] = start ++ [name] := by
  rw [walk, if_neg hdot, if_neg hup, walk]

/-- How often steps go down. -/
def descents (steps : List String) : Nat := steps.countP fun step => step != "." && step != ".."

/-- Whether steps lead out of a place from so far below it: some beginning of them goes up more often than it
goes down. -/
def ClimbsFrom (depth : Nat) (steps : List String) : Prop :=
  ∃ ahead ∈ steps.inits, depth + descents ahead < ahead.count ".."

instance (depth : Nat) (steps : List String) : Decidable (ClimbsFrom depth steps) :=
  inferInstanceAs (Decidable (∃ ahead ∈ _, _))

theorem not_climbsFrom_nil {depth : Nat} : ¬ ClimbsFrom depth [] := by
  rintro ⟨ahead, hahead, hclimbs⟩
  rw [List.mem_inits, List.prefix_nil] at hahead
  subst hahead
  exact absurd hclimbs (Nat.not_lt_zero _)

theorem climbsFrom_cons {depth : Nat} {step : String} {rest : List String} :
    ClimbsFrom depth (step :: rest)
      ↔ ∃ ahead ∈ rest.inits, depth + descents (step :: ahead) < (step :: ahead).count ".." := by
  have hnil : ¬ depth + descents [] < List.count ".." [] := Nat.not_lt_zero _
  simp only [ClimbsFrom, List.inits_cons, List.mem_cons, List.mem_map, exists_eq_or_imp, hnil, false_or,
    exists_exists_and_eq_and]

theorem climbsFrom_stay {depth : Nat} {rest : List String} :
    ClimbsFrom depth ("." :: rest) ↔ ClimbsFrom depth rest := by
  have hcount : ∀ ahead : List String, List.count ".." ("." :: ahead) = ahead.count ".." :=
    fun ahead => List.count_cons_of_ne (by decide)
  rw [climbsFrom_cons]
  simp only [hcount]
  rfl

theorem climbsFrom_up {depth : Nat} {rest : List String} :
    ClimbsFrom (depth + 1) (".." :: rest) ↔ ClimbsFrom depth rest := by
  have hcount : ∀ ahead : List String, List.count ".." (".." :: ahead) = ahead.count ".." + 1 :=
    fun ahead => List.count_cons_self
  have hdescents : ∀ ahead, descents (".." :: ahead) = descents ahead := fun ahead => rfl
  rw [climbsFrom_cons]
  refine exists_congr fun ahead => and_congr_right fun _ => ?_
  rw [hcount, hdescents]
  omega

theorem climbsFrom_zero_up {rest : List String} : ClimbsFrom 0 (".." :: rest) := by
  rw [climbsFrom_cons]
  refine ⟨[], ?_, by decide⟩
  rw [List.mem_inits]
  exact List.nil_prefix

theorem climbsFrom_down {depth : Nat} {step : String} {rest : List String} (hdot : step ≠ ".")
    (hup : step ≠ "..") : ClimbsFrom depth (step :: rest) ↔ ClimbsFrom (depth + 1) rest := by
  have hcount : ∀ ahead : List String, List.count ".." (step :: ahead) = ahead.count ".." :=
    fun ahead => List.count_cons_of_ne hup
  have hdescents : ∀ ahead, descents (step :: ahead) = descents ahead + 1 := by
    intro ahead
    rw [descents, List.countP_cons_of_pos (by simp [hdot, hup]), descents]
  rw [climbsFrom_cons]
  refine exists_congr fun ahead => and_congr_right fun _ => ?_
  rw [hcount, hdescents]
  omega

/-- Steps that do not lead out of a place lead to somewhere in it. -/
theorem prefix_walk {start inner steps : List String} (h : ¬ ClimbsFrom inner.length steps) :
    start <+: walk (start ++ inner) steps := by
  induction steps generalizing inner with
  | nil => exact List.prefix_append start inner
  | cons step rest ih =>
      rw [walk]
      split
      · next hdot =>
          subst hdot
          rw [climbsFrom_stay] at h
          exact ih h
      · next hdot =>
          split
          · next hup =>
              subst hup
              rcases List.eq_nil_or_concat inner with rfl | ⟨inner', name, rfl⟩
              · exact absurd climbsFrom_zero_up h
              · rw [List.concat_eq_append, List.length_append, List.length_singleton, climbsFrom_up] at h
                rw [List.concat_eq_append, ← List.append_assoc, List.dropLast_concat]
                exact ih h
          · next hup =>
              rw [climbsFrom_down hdot hup] at h
              rw [List.append_assoc]
              refine ih ?_
              rwa [List.length_append, List.length_singleton]

/-- Once steps have led out of a place, they lead where they would have led from any other one. -/
theorem walk_eq_of_climbs {a b : String} {inner steps : List String} (h : ClimbsFrom inner.length steps) :
    walk (a :: inner) steps = walk (b :: inner) steps := by
  induction steps generalizing inner with
  | nil => exact absurd h not_climbsFrom_nil
  | cons step rest ih =>
      rw [walk, walk]
      split
      · next hdot =>
          subst hdot
          exact ih (climbsFrom_stay.1 h)
      · next hdot =>
          split
          · next hup =>
              subst hup
              rcases List.eq_nil_or_concat inner with rfl | ⟨inner', name, rfl⟩
              · rfl
              · rw [List.concat_eq_append, List.length_append, List.length_singleton, climbsFrom_up] at h
                rw [List.concat_eq_append, ← List.cons_append, ← List.cons_append, List.dropLast_concat,
                  List.dropLast_concat]
                exact ih h
          · next hup =>
              rw [climbsFrom_down hdot hup] at h
              rw [List.cons_append, List.cons_append]
              refine ih ?_
              rwa [List.length_append, List.length_singleton]

theorem head_unique {a b : String} {place : List String} (ha : [a] <+: place) (hb : [b] <+: place) : a = b := by
  have heq : [a] = [b] := (List.prefix_of_prefix_length_le ha hb (le_refl 1)).eq_of_length rfl
  exact List.head_eq_of_cons_eq heq

/-- Steps lead from every place to somewhere in it exactly when they do not lead out. -/
theorem prefix_walk_iff {steps : List String} :
    (∀ start, start <+: walk start steps) ↔ ¬ ClimbsFrom 0 steps := by
  constructor
  · intro h hclimbs
    have hsame : walk ["b"] steps = walk ["a"] steps := @walk_eq_of_climbs "b" "a" [] steps hclimbs
    have ha : ["a"] <+: walk ["a"] steps := h ["a"]
    have hb : ["b"] <+: walk ["a"] steps := hsame ▸ h ["b"]
    exact absurd (head_unique ha hb) (by decide)
  · intro h start
    have hprefix : start <+: walk (start ++ []) steps := prefix_walk h
    rwa [List.append_nil] at hprefix

/-! ### Paths one behind the other -/

theorem names_slash (a b : String) : names (a ++ "/" ++ b) = names a ++ names b := by
  have htext : (a ++ "/" ++ b).toList = a.toList ++ '/' :: b.toList := by
    simp [String.toList_append]
  rw [names, names, names, splitText, htext, pieces_append_cons, List.map_append, List.filter_append]
  rfl

theorem isAbsolute_append {a b : String} (h : a ≠ "") : isAbsolute (a ++ b) = isAbsolute a := by
  have hne : a.toList ≠ [] := by
    intro hnil
    exact h (String.toList_eq_nil_iff.1 hnil)
  rw [isAbsolute, isAbsolute, String.toList_append, List.head?_append_of_ne_nil _ hne]

theorem names_append_of_slash {a b : String} (h : a.toList.getLast? = some '/') :
    names (a ++ b) = names a ++ names b := by
  obtain ⟨as, has⟩ := List.getLast?_eq_some_iff.1 h
  have ha : a = String.ofList as ++ "/" ++ "" := by
    rw [← String.toList_inj, has]
    simp [String.toList_append]
  have hempty : names "" = [] := by decide
  have hnames : names a = names (String.ofList as) := by
    rw [ha, names_slash, hempty, List.append_nil]
  rw [hnames, ← names_slash, ha, String.append_empty]

theorem place_join (working : List String) (base path : String) :
    place working (join base path)
      = walk (if isAbsolute path then [] else place working base) (names path) := by
  rw [join]
  split
  · next habsolute => rw [place, if_pos habsolute]
  · next habsolute =>
      by_cases hempty : base = ""
      · subst hempty
        have hplace : place working "" = working := rfl
        rw [if_pos (by rfl), hplace, String.empty_append, place, if_neg habsolute]
      · have hnames : names (if base.isEmpty || base.toList.getLast? == some '/' then base ++ path
            else base ++ "/" ++ path) = names base ++ names path := by
          split
          · next hslash =>
              have hlast : base.toList.getLast? = some '/' := by simpa [hempty] using hslash
              exact names_append_of_slash hlast
          · exact names_slash base path
        have habsolute' : isAbsolute (if base.isEmpty || base.toList.getLast? == some '/' then base ++ path
            else base ++ "/" ++ path) = isAbsolute base := by
          split
          · exact isAbsolute_append hempty
          · rw [String.append_assoc]
            exact isAbsolute_append hempty
        rw [place, habsolute', hnames, walk_append, place]

/-! ### What a system does with a path -/

theorem walk_steps (start : List String) (path : String) : walk start (Disk.steps path) = walk start (names path) := by
  rw [Disk.steps, names, walk_append]
  split
  · rfl
  · rfl

end Path

namespace Disk

theorem eq_walk_of_follow {root : FileTree} {start steps names : List String}
    (h : follow root start steps = .ok names) : names = Path.walk start steps := by
  induction steps generalizing start with
  | nil =>
      cases h
      rfl
  | cons step rest ih =>
      rw [follow] at h
      rw [Path.walk]
      split
      · next hdot =>
          rw [if_pos hdot] at h
          exact ih h
      · next hdot =>
          rw [if_neg hdot] at h
          split
          · next hup =>
              rw [if_pos hup] at h
              exact ih h
          · next hup =>
              rw [if_neg hup] at h
              split at h
              · cases h
              · dsimp only at h
                split at h
                · cases h
                  rfl
                · exact ih h
                · cases h
                · cases h

/-- What a system reaches by a path is the place of the path. -/
theorem eq_place_of_resolve {d : Disk} {path : String} {names : List String} (h : d.resolve path = .ok names) :
    names = Path.place d.working path := by
  rw [resolve] at h
  split at h
  · cases h
  · split at h
    · cases h
    · split at h
      · cases h
      · rw [Path.place, ← Path.walk_steps]
        exact eq_walk_of_follow h

end Disk

end ApiContracts
