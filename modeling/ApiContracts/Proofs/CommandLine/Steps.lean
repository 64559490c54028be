import ApiContracts.CommandLine.Run
import ApiContracts.Proofs.FileTree.Found

/-!
# Taking steps

Each step changes a disk only at the place of the file that it writes, and once it is taken there is nothing left
of it to do, for a file that holds its content and for a directory that is there. A later step does not undo that
as long as it writes somewhere else. So when all steps were taken and no two of them write at one place, all of
them are done on the disk that they lead to, and there they can be taken again without a change.
-/

namespace ApiContracts.CommandLine

namespace Step

def take (d : Disk) : Step → Except Failure Disk
  | say _ => .ok d
  | makeDirectories path => (d.makeDirectories path).mapError (.noDirectory path)
  | write path content => (d.write path content).mapError (.notWritten path)

def line? : Step → Option String
  | say line => some line
  | makeDirectories _ => none
  | write _ _ => none

def place? (working : List String) : Step → Option (List String)
  | say _ => none
  | makeDirectories _ => none
  | write path _ => some (Path.place working path)

def Done (d : Disk) : Step → Prop
  | say _ => True
  | makeDirectories path => d.HasDirectory path
  | write path content => d.read path = .ok content

variable {step : Step} {d d' : Disk}

theorem changesOnly_take (h : step.take d = .ok d') : Disk.ChangesOnly (step.place? d.working).toList d d' := by
  cases step with
  | say line =>
      cases h
      exact Disk.ChangesOnly.refl [] d
  | makeDirectories path => exact Disk.changesOnly_makeDirectoriesUpTo (mapError_eq_ok.1 h)
  | write path content => exact Disk.changesOnly_write (mapError_eq_ok.1 h)

theorem Done.kept {places : List (List String)} (h : step.Done d) (hchanges : Disk.ChangesOnly places d d')
    (hplace : ∀ place ∈ step.place? d.working, place ∉ places) : step.Done d' := by
  cases step with
  | say line => trivial
  | makeDirectories path => exact h.imp_right hchanges.isDirectory
  | write path content => exact hchanges.read (hplace _ rfl) h

theorem Done.take (h : step.Done d) : step.take d = .ok d := by
  cases step with
  | say line => rfl
  | makeDirectories path => exact mapError_eq_ok.2 (Disk.makeDirectories_of_hasDirectory h)
  | write path content => exact mapError_eq_ok.2 (Disk.write_of_read h)

end Step

variable {d : Disk} {steps rest : List Step} {step : Step}

def writtenPlaces (working : List String) (steps : List Step) : List (List String) :=
  steps.filterMap (·.place? working)

theorem writtenPlaces_cons (working : List String) (step : Step) (rest : List Step) :
    writtenPlaces working (step :: rest) = (step.place? working).toList ++ writtenPlaces working rest := by
  rw [writtenPlaces, List.filterMap_cons]
  cases step.place? working <;> rfl

theorem mem_writtenPlaces {working place : List String} :
    place ∈ writtenPlaces working steps
      ↔ ∃ path content, .write path content ∈ steps ∧ Path.place working path = place := by
  rw [writtenPlaces, List.mem_filterMap]
  constructor
  · rintro ⟨step, hstep, hplace⟩
    cases step with
    | say line => cases hplace
    | makeDirectories path => cases hplace
    | write path content => exact ⟨path, content, hstep, Option.some_inj.1 hplace⟩
  · rintro ⟨path, content, hmem, rfl⟩
    exact ⟨.write path content, hmem, rfl⟩

theorem takeSteps_cons_of_ok {d' : Disk} (h : step.take d = .ok d') :
    takeSteps d (step :: rest)
      = { takeSteps d' rest with lines := step.line?.toList ++ (takeSteps d' rest).lines } := by
  cases step with
  | say line =>
      cases h
      rfl
  | makeDirectories path =>
      rw [takeSteps, mapError_eq_ok.1 h]
      rfl
  | write path content =>
      rw [takeSteps, mapError_eq_ok.1 h]
      rfl

theorem takeSteps_cons_of_error {failure : Failure} (h : step.take d = .error failure) :
    takeSteps d (step :: rest) = { disk := d, failure := some failure } := by
  cases step with
  | say line => cases h
  | makeDirectories path =>
      obtain ⟨fault, hfault, rfl⟩ := mapError_eq_error.1 h
      rw [takeSteps, hfault]
  | write path content =>
      obtain ⟨fault, hfault, rfl⟩ := mapError_eq_error.1 h
      rw [takeSteps, hfault]

theorem changesOnly_takeSteps (d : Disk) (steps : List Step) :
    Disk.ChangesOnly (writtenPlaces d.working steps) d (takeSteps d steps).disk := by
  induction steps generalizing d with
  | nil => exact Disk.ChangesOnly.refl [] d
  | cons step rest ih =>
      rw [writtenPlaces_cons]
      cases htake : step.take d with
      | error failure =>
          rw [takeSteps_cons_of_error htake]
          exact Disk.ChangesOnly.refl _ d
      | ok d' =>
          have hstep := Step.changesOnly_take htake
          have hrest : Disk.ChangesOnly (writtenPlaces d.working rest) d' (takeSteps d' rest).disk :=
            hstep.working ▸ ih d'
          rw [takeSteps_cons_of_ok htake]
          exact (hstep.mono (List.subset_append_left _ _)).trans (hrest.mono (List.subset_append_right _ _))

end ApiContracts.CommandLine
