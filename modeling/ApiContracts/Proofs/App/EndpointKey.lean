import ApiContracts.App.EndpointKey
import ApiContracts.Proofs.Text.Blank
import ApiContracts.Proofs.Text.Pieces

/-!
# Reading the key of an endpoint

A key is trimmed, cut at its first space, and its path is trimmed once more. Of a key that was written as
`METHOD path` this leaves the verb and the path without the blank characters at its ends. So there is one
way to fail, a path that does not start with a slash behind its blank characters (`Rooted`), and one way to
come out as another key, a path with blank characters at its ends (`Bare` is a path without).
-/

namespace ApiContracts

open Text

/-- Whether a path starts with a slash, blank characters aside. -/
def Rooted (path : String) : Prop := (trim path.toList).head? = some '/'

instance (path : String) : Decidable (Rooted path) := inferInstanceAs (Decidable (_ = _))

/-- Whether a path has no blank characters at its ends. -/
def Bare (path : String) : Prop := trimmed path = path

instance (path : String) : Decidable (Bare path) := inferInstanceAs (Decidable (_ = _))

theorem Verb.wireName_word (v : Verb) :
    v.wireName.toList ≠ [] ∧ ∀ c ∈ v.wireName.toList, isBlank c = false := by
  have hall : v.wireName.toList.all (fun c => !isBlank c) = true := by cases v <;> decide +kernel
  refine ⟨by cases v <;> decide, ?_⟩
  intro c hc
  simpa using List.all_eq_true.1 hall c hc

theorem Verb.not_mem_wireName (v : Verb) : ' ' ∉ v.wireName.toList := by
  intro h
  have hblank := v.wireName_word.2 ' ' h
  revert hblank
  decide

theorem Verb.wireName_inj {v v' : Verb} : v.wireName = v'.wireName ↔ v = v' := by
  cases v <;> cases v' <;> decide

namespace EndpointKey

variable {v : Verb} {path : String}

/-- A key tells its verb and its path. -/
theorem key_inj {v' : Verb} {path' : String} :
    v.wireName ++ " " ++ path = v'.wireName ++ " " ++ path' ↔ v = v' ∧ path = path' := by
  constructor
  · intro h
    have hcut := congrArg (fun key : String => cut ' ' key.toList) h
    simp only [String.toList_append, List.append_assoc] at hcut
    have hspace : " ".toList = [' '] := by rfl
    rw [hspace, List.singleton_append, List.singleton_append, cut_append v.not_mem_wireName,
      cut_append v'.not_mem_wireName, Option.some.injEq, Prod.mk.injEq, String.toList_inj,
      String.toList_inj, Verb.wireName_inj] at hcut
    exact hcut
  · rintro ⟨rfl, rfl⟩
    rfl

theorem cutText_key :
    cutText ' ' (trimmed (v.wireName ++ " " ++ path))
      = if trimEnd path.toList = [] then none
        else some (v.wireName, String.ofList (trimEnd path.toList)) := by
  have hspace : isBlank ' ' = true := by decide
  have hkey : trim (v.wireName ++ " " ++ path).toList
      = v.wireName.toList ++ trimEnd (' ' :: path.toList) := by
    rw [String.toList_append, String.toList_append, List.append_assoc]
    exact trim_append v.wireName_word.1 v.wireName_word.2
  rw [cutText, trimmed, String.toList_ofList, hkey, trimEnd_cons]
  split
  · next h => rw [List.append_nil, cut_eq_none v.not_mem_wireName, if_pos h.1, Option.map_none]
  · next h =>
      have hpath : trimEnd path.toList ≠ [] := fun hnil => h ⟨hnil, hspace⟩
      rw [cut_append v.not_mem_wireName, if_neg hpath, Option.map_some]
      simp only [String.ofList_toList]

theorem ofText_key :
    ofText (v.wireName ++ " " ++ path)
      = if Rooted path then .ok ⟨v, trimmed path⟩
        else .error (.malformedEndpoint (v.wireName ++ " " ++ path)) := by
  rw [ofText, cutText_key]
  by_cases hnil : trimEnd path.toList = []
  · have hunrooted : ¬ Rooted path := by
      rw [Rooted, ← trim_trimEnd, hnil]
      simp [trim, trimStart, trimEnd]
    rw [if_pos hnil, if_neg hunrooted]
  · have htrimmed : trimmed (String.ofList (trimEnd path.toList)) = trimmed path := by
      rw [trimmed, String.toList_ofList, trim_trimEnd, trimmed]
    rw [if_neg hnil]
    simp only [htrimmed, v.ofName?_wireName]
    by_cases hrooted : Rooted path
    · have hhead : (trimmed path).toList.head? = some '/' := by
        rw [trimmed, String.toList_ofList]
        exact hrooted
      simp [hhead, hrooted]
    · have hhead : ¬ (trimmed path).toList.head? = some '/' := by
        rw [trimmed, String.toList_ofList]
        exact hrooted
      simp [hhead, hrooted]

theorem text_eq_key_iff :
    (⟨v, trimmed path⟩ : EndpointKey).text = v.wireName ++ " " ++ path ↔ Bare path := by
  exact String.append_right_inj _

end EndpointKey

end ApiContracts
