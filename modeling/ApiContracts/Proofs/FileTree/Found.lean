import ApiContracts.Proofs.FileTree.Write

/-!
# What writing leaves to be found

A path that leads somewhere leads there still when there are more directories, so a file that is not written
anew is read as before. What was written is read back, and a directory that was asked for is there, provided the
working directory is one: a path starts there or at the root and asks of every name but the last whether it is a
directory, so that the last name is put where its directory stands. Then to write a file as it is, or to make a
directory that is there, changes nothing.
-/

namespace ApiContracts

open Text

namespace Disk

variable {root root' : FileTree} {start steps names : List String} {step : String}

/-! ### Following steps -/

theorem follow_name_eq_ok (hdot : step ≠ ".") (hup : step ≠ "..") :
    follow root start (step :: steps) = .ok names
      ↔ (bytesOf step).length ≤ maxName ∧ (steps ≠ [] → root.IsDirectory (start ++ [step]))
        ∧ follow root (start ++ [step]) steps = .ok names := by
  rw [follow, if_neg hdot, if_neg hup]
  by_cases hlong : maxName < (bytesOf step).length
  · rw [if_pos hlong]
    exact iff_of_false (fun h => by cases h) (fun h => absurd h.1 (Nat.not_le_of_lt hlong))
  · rw [if_neg hlong, and_iff_right (Nat.le_of_not_lt hlong)]
    cases steps with
    | nil => simp [follow]
    | cons next rest =>
        cases hnode : root.at? (start ++ [step]) with
        | none => simp [FileTree.IsDirectory, hnode]
        | some node => cases node <;> simp [FileTree.IsDirectory, hnode]

theorem follow_of_directories (hmore : ∀ place, root.IsDirectory place → root'.IsDirectory place)
    (h : follow root start steps = .ok names) : follow root' start steps = .ok names := by
  induction steps generalizing start with
  | nil => exact h
  | cons step rest ih =>
      by_cases hdot : step = "."
      · rw [follow, if_pos hdot] at h ⊢
        exact ih h
      · by_cases hup : step = ".."
        · rw [follow, if_neg hdot, if_pos hup] at h ⊢
          exact ih h
        · rw [follow_name_eq_ok hdot hup] at h ⊢
          obtain ⟨hshort, hdirectory, hrest⟩ := h
          exact ⟨hshort, fun hne => hmore _ (hdirectory hne), ih hrest⟩

variable {d d' : Disk} {path content : String} {places : List (List String)}

theorem resolve_eq_ok :
    d.resolve path = .ok names
      ↔ (path ≠ "" ∧ '\x00' ∉ path.toList ∧ (bytesOf path).length ≤ maxPath)
        ∧ follow d.root (if Path.isAbsolute path then [] else d.working) (Disk.steps path) = .ok names := by
  rw [resolve]
  by_cases hempty : path = ""
  · simp [hempty]
  · by_cases hzero : '\x00' ∈ path.toList
    · simp [hempty, hzero]
    · by_cases hlong : maxPath < (bytesOf path).length
      · simp [hempty, hzero, hlong, Nat.not_le_of_lt hlong]
      · simp [hempty, hzero, hlong, Nat.le_of_not_lt hlong]

theorem ChangesOnly.resolve (h : ChangesOnly places d d') (hresolve : d.resolve path = .ok names) :
    d'.resolve path = .ok names := by
  rw [resolve_eq_ok] at hresolve ⊢
  rw [h.working]
  exact ⟨hresolve.1, follow_of_directories h.directories hresolve.2⟩

theorem isDirectory_iff :
    d.isDirectory path = true ↔ ∃ names, d.resolve path = .ok names ∧ d.root.IsDirectory names := by
  rw [isDirectory]
  cases d.resolve path with
  | error fault => simp
  | ok names =>
      simp only [Except.ok.injEq, exists_eq_left', FileTree.IsDirectory]
      cases d.root.at? names with
      | none => simp
      | some node => cases node <;> simp [FileTree.isDirectory]

theorem read_eq_ok :
    d.read path = .ok content ↔ ∃ names, d.resolve path = .ok names ∧ d.root.HasFile names content := by
  rw [read, bind_eq_ok]
  refine exists_congr fun names => and_congr_right fun _ => ?_
  rw [FileTree.HasFile]
  split
  · next found hfound => simp [hfound, pure, Except.pure]
  · next entries hentries => simp [hentries, throw, throwThe, MonadExceptOf.throw]
  · next hnone => simp [hnone, throw, throwThe, MonadExceptOf.throw]

theorem ChangesOnly.isDirectory (h : ChangesOnly places d d') (hpath : d.isDirectory path = true) :
    d'.isDirectory path = true := by
  obtain ⟨names, hnames, hdirectory⟩ := isDirectory_iff.1 hpath
  exact isDirectory_iff.2 ⟨names, h.resolve hnames, h.directories names hdirectory⟩

theorem ChangesOnly.read (h : ChangesOnly places d d') (hplace : Path.place d.working path ∉ places)
    (hread : d.read path = .ok content) : d'.read path = .ok content := by
  obtain ⟨names, hnames, hfile⟩ := read_eq_ok.1 hread
  rw [← eq_place_of_resolve hnames] at hplace
  exact read_eq_ok.2 ⟨names, h.resolve hnames, (h.files names content hplace).2 hfile⟩

/-! ### Writing and reading -/

/-- Whether a directory need not be made. -/
def HasDirectory (d : Disk) (path : String) : Prop := path = "" ∨ d.isDirectory path = true

theorem write_of_read (h : d.read path = .ok content) : d.write path content = .ok d := by
  obtain ⟨names, hnames, hfile⟩ := read_eq_ok.1 h
  have hno : ¬ d.root.IsDirectory names := by
    rintro ⟨entries, hentries⟩
    rw [FileTree.HasFile, hentries] at hfile
    cases hfile
  have hset : d.root.set names (.file content) = d.root := FileTree.set_at? hfile
  exact write_eq_ok.2 ⟨names, hnames, hno, by rw [hset]⟩

theorem makeDirectories_of_hasDirectory (h : d.HasDirectory path) : d.makeDirectories path = .ok d := by
  rw [makeDirectories, makeDirectoriesUpTo]
  rcases h with rfl | h
  · rfl
  · obtain ⟨names, hnames, entries, hentries⟩ := isDirectory_iff.1 h
    have hne : path ≠ "" := (resolve_eq_ok.1 hnames).1.1
    have hmake : d.makeDirectory path = .error .alreadyThere := by
      simp only [makeDirectory, hnames, bind, Except.bind, hentries]
      rfl
    have hensure : d.ensureDirectory path = .ok d := by
      rw [ensureDirectory, hmake]
      simp only [h, if_true]
    rw [if_neg (by simpa using hne), hensure]

end Disk

end ApiContracts
