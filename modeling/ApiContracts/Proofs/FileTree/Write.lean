import ApiContracts.Proofs.Except
import ApiContracts.Proofs.FileTree.Path
import ApiContracts.Proofs.Table

/-!
# What writing leaves alone

A node is put at its names and nowhere else: a file that does not stand there or below is as before, and so is
a directory, since a file is never put in the place of one. A directory is only made where nothing is, so that no
file is lost to it at all. So whatever a system does to a disk changes it at the places of the files that are
written only, and the files outside a directory are kept as long as all these lie in it.
-/

namespace ApiContracts

namespace FileTree

theorem lookup_put {name : String} {node : FileTree} {entries : List (String × FileTree)} {n : String} :
    (put name node entries).lookup n = if n = name then some node else entries.lookup n := by
  induction entries with
  | nil => rw [put, lookup_cons_ite]
  | cons e rest ih =>
      obtain ⟨n', t⟩ := e
      rw [put]
      split
      · next heq =>
          rw [heq]
          exact lookup_cons_replaced
      · next hne => exact lookup_cons_changed hne ih

variable {node : FileTree} {name content : String} {names place : List String}

theorem at?_append (t : FileTree) (names below : List String) :
    t.at? (names ++ below) = (t.at? names).bind (at? below) := by
  induction names generalizing t with
  | nil => rfl
  | cons name rest ih =>
      cases t with
      | file text => rfl
      | directory entries =>
          rw [List.cons_append, at?, at?]
          cases entries.lookup name with
          | none => rfl
          | some t => exact ih t

theorem at?_cons_eq_some {t node : FileTree} {name : String} {rest : List String}
    (h : t.at? (name :: rest) = some node) :
    ∃ entries inner, t = directory entries ∧ entries.lookup name = some inner ∧ inner.at? rest = some node := by
  cases t with
  | file text => cases h
  | directory entries =>
      rw [at?, Option.bind_eq_some_iff] at h
      obtain ⟨inner, hlookup, hinner⟩ := h
      exact ⟨entries, inner, rfl, hlookup, hinner⟩

def HasFile (t : FileTree) (place : List String) (content : String) : Prop := t.at? place = some (.file content)

theorem not_hasFile_empty : ¬ HasFile empty place content := by
  intro h
  cases place with
  | nil => cases h
  | cons name rest => cases h

theorem hasFile_directory_cons {entries : List (String × FileTree)} :
    HasFile (directory entries) (name :: place) content
      ↔ HasFile ((entries.lookup name).getD empty) place content := by
  rw [HasFile, at?]
  cases entries.lookup name with
  | none => exact iff_of_false (fun h => by cases h) not_hasFile_empty
  | some t => rfl

/-- A node that holds, from its names on, the files that stood there changes no file at all. -/
theorem hasFile_set {t : FileTree}
    (h : ∀ below, place = names ++ below → (HasFile node below content ↔ HasFile t place content)) :
    HasFile (t.set names node) place content ↔ HasFile t place content := by
  induction names generalizing t place with
  | nil =>
      rw [set]
      exact h place rfl
  | cons name rest ih =>
      cases t with
      | file text => rfl
      | directory entries =>
          rw [set]
          cases place with
          | nil => exact iff_of_false (fun hfile => by cases hfile) (fun hfile => by cases hfile)
          | cons name' place =>
              rw [hasFile_directory_cons, hasFile_directory_cons, lookup_put]
              split
              · next hname =>
                  subst hname
                  refine ih ?_
                  rintro below rfl
                  rw [h below rfl, hasFile_directory_cons]
              · rfl

theorem not_hasFile_append {t : FileTree} (h : t.at? names = none) (below : List String) :
    ¬ HasFile t (names ++ below) content := by
  rw [HasFile, at?_append, h]
  exact fun hfile => by cases hfile

theorem hasFile_set_empty {t : FileTree} (h : t.at? names = none) :
    HasFile (t.set names .empty) place content ↔ HasFile t place content := by
  refine hasFile_set ?_
  rintro below rfl
  exact iff_of_false not_hasFile_empty (not_hasFile_append h below)

/-! ### Directories -/

def IsDirectory (t : FileTree) (place : List String) : Prop := ∃ entries, t.at? place = some (.directory entries)

theorem not_isDirectory_of_none {t : FileTree} (h : t.at? place = none) : ¬ t.IsDirectory place := by
  rintro ⟨entries, hentries⟩
  rw [h] at hentries
  cases hentries

theorem IsDirectory.above {t : FileTree} (h : t.IsDirectory place) (hleads : names <+: place) :
    t.IsDirectory names := by
  obtain ⟨below, rfl⟩ := hleads
  obtain ⟨entries, hentries⟩ := h
  rw [at?_append, Option.bind_eq_some_iff] at hentries
  obtain ⟨inner, hinner, hbelow⟩ := hentries
  cases inner with
  | directory entries => exact ⟨entries, hinner⟩
  | file text =>
      cases below with
      | nil => cases hbelow
      | cons name rest => cases hbelow

theorem isDirectory_set {t : FileTree} (houtside : ¬ names <+: place) (h : t.IsDirectory place) :
    (t.set names node).IsDirectory place := by
  induction names generalizing t place with
  | nil => exact absurd List.nil_prefix houtside
  | cons name rest ih =>
      cases t with
      | file text => exact h
      | directory entries =>
          cases place with
          | nil => exact ⟨_, rfl⟩
          | cons name' place =>
              obtain ⟨found, hfound⟩ := h
              obtain ⟨_, inner, heq, hlookup, hinner⟩ := at?_cons_eq_some hfound
              cases heq
              rw [IsDirectory, set, at?, lookup_put]
              split
              · next hname =>
                  subst hname
                  have hrest : ¬ rest <+: place := by
                    rwa [List.cons_prefix_cons, and_iff_right rfl] at houtside
                  rw [hlookup]
                  exact ih hrest ⟨found, hinner⟩
              · exact ⟨found, hfound⟩

theorem not_hasFile_file_of_ne_nil {text : String} (h : place ≠ []) : ¬ HasFile (file text) place content := by
  intro hfile
  cases place with
  | nil => exact h rfl
  | cons name rest => cases hfile

theorem not_hasFile_append_of_ne_nil {t : FileTree} {below : List String} (h : ¬ t.IsDirectory names)
    (hbelow : below ≠ []) : ¬ HasFile t (names ++ below) content := by
  rw [HasFile, at?_append, Option.bind_eq_some_iff]
  rintro ⟨inner, hinner, hfile⟩
  cases inner with
  | directory entries => exact h ⟨entries, hinner⟩
  | file text => exact not_hasFile_file_of_ne_nil hbelow hfile

/-! ### What was put is there -/

theorem put_lookup {entries : List (String × FileTree)} (h : entries.lookup name = some node) :
    put name node entries = entries := by
  induction entries with
  | nil => cases h
  | cons e rest ih =>
      obtain ⟨n, t⟩ := e
      rw [lookup_cons_ite] at h
      rw [put]
      by_cases hname : n = name
      · subst hname
        rw [if_pos rfl, Option.some_inj] at h
        rw [if_pos rfl, h]
      · rw [if_neg (Ne.symm hname)] at h
        rw [if_neg hname, ih h]

theorem set_at? {t : FileTree} (h : t.at? names = some node) : t.set names node = t := by
  induction names generalizing t with
  | nil =>
      cases h
      rfl
  | cons name rest ih =>
      obtain ⟨entries, inner, rfl, hlookup, hinner⟩ := at?_cons_eq_some h
      rw [set, hlookup, Option.getD_some, ih hinner, put_lookup hlookup]

end FileTree

namespace Disk

/-- Whether a disk is another one with other files at some places at most, and with more directories. -/
structure ChangesOnly (places : List (List String)) (d d' : Disk) : Prop where
  working : d'.working = d.working
  directories : ∀ place, d.root.IsDirectory place → d'.root.IsDirectory place
  files : ∀ place content, place ∉ places → (d'.root.HasFile place content ↔ d.root.HasFile place content)

/-- Whether two disks hold the same files outside a directory, seen from one working directory. -/
structure Keeps (directory : List String) (d d' : Disk) : Prop where
  working : d'.working = d.working
  files : ∀ place content, ¬ directory <+: place → (d'.root.HasFile place content ↔ d.root.HasFile place content)

variable {places : List (List String)} {d d' : Disk} {path content : String}

theorem ChangesOnly.refl (places : List (List String)) (d : Disk) : ChangesOnly places d d := by
  exact ⟨rfl, fun _ h => h, fun _ _ _ => Iff.rfl⟩

theorem ChangesOnly.trans {d'' : Disk} (h : ChangesOnly places d d') (h' : ChangesOnly places d' d'') :
    ChangesOnly places d d'' := by
  refine ⟨h'.working.trans h.working, fun place hplace => h'.directories place (h.directories place hplace), ?_⟩
  intro place content hplace
  rw [h'.files place content hplace, h.files place content hplace]

theorem ChangesOnly.mono {more : List (List String)} (h : ChangesOnly places d d') (hmore : places ⊆ more) :
    ChangesOnly more d d' := by
  refine ⟨h.working, h.directories, ?_⟩
  intro place content hplace
  exact h.files place content fun hmem => hplace (hmore hmem)

theorem ChangesOnly.keeps {directory : List String} (h : ChangesOnly places d d')
    (hinside : ∀ place ∈ places, directory <+: place) : Keeps directory d d' := by
  refine ⟨h.working, ?_⟩
  intro place content hplace
  exact h.files place content fun hmem => hplace (hinside place hmem)

theorem write_eq_ok :
    d.write path content = .ok d'
      ↔ ∃ names, d.resolve path = .ok names ∧ ¬ d.root.IsDirectory names
        ∧ { d with root := d.root.set names (.file content) } = d' := by
  rw [write, bind_eq_ok]
  refine exists_congr fun names => and_congr_right fun _ => ?_
  split
  · next entries hentries => exact iff_of_false (fun h => by cases h) (fun h => h.1 ⟨entries, hentries⟩)
  · next hother =>
      have hno : ¬ d.root.IsDirectory names := by
        rintro ⟨entries, hentries⟩
        exact hother entries hentries
      rw [and_iff_right hno]
      exact ⟨fun h => Except.ok.inj h, congrArg Except.ok⟩

theorem makeDirectory_eq_ok :
    d.makeDirectory path = .ok d'
      ↔ ∃ names, d.resolve path = .ok names ∧ d.root.at? names = none
        ∧ { d with root := d.root.set names .empty } = d' := by
  rw [makeDirectory, bind_eq_ok]
  refine exists_congr fun names => and_congr_right fun _ => ?_
  split
  · next node hnode => simp [hnode, throw, throwThe, MonadExceptOf.throw]
  · next hfree => simp [hfree, pure, Except.pure]

theorem changesOnly_write (h : d.write path content = .ok d') :
    ChangesOnly [Path.place d.working path] d d' := by
  obtain ⟨names, hnames, hno, rfl⟩ := write_eq_ok.1 h
  rw [← eq_place_of_resolve hnames]
  refine ⟨rfl, ?_, ?_⟩
  · intro place hplace
    refine FileTree.isDirectory_set ?_ hplace
    exact fun hleads => hno (hplace.above hleads)
  · intro place content hplace
    rw [List.mem_singleton] at hplace
    apply FileTree.hasFile_set
    rintro below rfl
    have hbelow : below ≠ [] := by
      rintro rfl
      exact hplace (List.append_nil names)
    exact iff_of_false (FileTree.not_hasFile_file_of_ne_nil hbelow)
      (FileTree.not_hasFile_append_of_ne_nil hno hbelow)

theorem changesOnly_makeDirectory (h : d.makeDirectory path = .ok d') : ChangesOnly [] d d' := by
  obtain ⟨names, hnames, hfree, rfl⟩ := makeDirectory_eq_ok.1 h
  refine ⟨rfl, ?_, fun _ _ _ => FileTree.hasFile_set_empty hfree⟩
  intro place hplace
  refine FileTree.isDirectory_set ?_ hplace
  exact fun hleads => FileTree.not_isDirectory_of_none hfree (hplace.above hleads)

theorem changesOnly_ensureDirectory (h : d.ensureDirectory path = .ok d') : ChangesOnly [] d d' := by
  rw [ensureDirectory] at h
  split at h
  · next made hmade =>
      cases h
      exact changesOnly_makeDirectory hmade
  · split at h
    · cases h
      exact ChangesOnly.refl [] d
    · cases h

theorem changesOnly_makeDirectoriesUpTo {fuel : Nat} (h : makeDirectoriesUpTo fuel d path = .ok d') :
    ChangesOnly [] d d' := by
  induction fuel generalizing d d' path with
  | zero =>
      cases h
      exact ChangesOnly.refl [] d
  | succ fuel ih =>
      rw [makeDirectoriesUpTo] at h
      split at h
      · cases h
        exact ChangesOnly.refl [] d
      · split at h
        · obtain ⟨made, hmade, h⟩ := bind_eq_ok.1 h
          exact (ih hmade).trans (changesOnly_ensureDirectory h)
        · exact changesOnly_ensureDirectory h

end Disk

end ApiContracts
