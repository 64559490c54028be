import ApiContracts.Proofs.App.EndpointKey
import ApiContracts.Proofs.App.Refusal

/-!
# Spellings of a key

A key may be spelled in many ways: the verb in any letter case, and blank characters at both ends and behind the
space. Reading undoes all of that in one order, which is to strip, cut at the first space, and strip the path, and
each of the three could in principle disturb the others. It does not, because a verb is a word without blank
characters and a path starts with a slash: the accepted keys are exactly the spellings of a verb and a path, every
spelling comes out as the key that is written `METHOD path`, and this one comes out as itself.
-/

namespace ApiContracts

open Text

namespace Verb

theorem lower_wireName (v : Verb) : lower v.wireName = v.name := by cases v <;> decide +kernel

theorem ofName?_eq_some {s : String} {v : Verb} : ofName? s = some v ↔ sameLetters s v.wireName = true := by
  rw [sameLetters, lower_wireName, beq_iff_eq]
  constructor
  · intro h
    have hname := List.find?_some h
    exact (beq_iff_eq.1 hname).symm
  · intro h
    rw [← v.ofName?_name, ofName?, ofName?, h, ← lower_wireName]
    cases v <;> rfl

theorem ofName?_eq_none {s : String} : ofName? s = none ↔ ∀ v : Verb, sameLetters s v.wireName = false := by
  simp only [Option.eq_none_iff_forall_ne_some, ne_eq, ofName?_eq_some, Bool.not_eq_true]

end Verb

theorem toLower_of_isBlank {c : Char} (h : isBlank c = true) : c.toLower = c := by
  simp only [isBlank, Bool.or_eq_true, Bool.and_eq_true, decide_eq_true_eq, beq_iff_eq] at h
  have hno : ¬ (c.val ≥ 'A'.val ∧ c.val ≤ 'Z'.val) := by
    intro hcapital
    have hrange : 65 ≤ c.toNat ∧ c.toNat ≤ 90 := hcapital
    omega
  exact dif_neg hno

theorem word_of_sameLetters {word : String} {v : Verb} (h : sameLetters word v.wireName = true) :
    word.toList ≠ [] ∧ ∀ c ∈ word.toList, isBlank c = false := by
  rw [sameLetters, beq_iff_eq, v.lower_wireName] at h
  have hletters : word.toList.map Char.toLower = v.name.toList := by
    rw [← h, lower, String.toList_ofList]
  have hname : v.name.toList ≠ [] ∧ v.name.toList.all (fun c => !isBlank c) = true := by cases v <;> decide +kernel
  constructor
  · intro hnil
    rw [hnil] at hletters
    exact hname.1 hletters.symm
  · intro c hc
    by_contra hblank
    rw [Bool.not_eq_false] at hblank
    have hmem : c ∈ v.name.toList := by
      rw [← hletters, ← toLower_of_isBlank hblank]
      exact List.mem_map_of_mem hc
    have hnot := List.all_eq_true.1 hname.2 c hmem
    simp [hblank] at hnot

namespace EndpointKey

variable {key word rest : String}

/-- Whether a key without the blank characters at its ends is a word, its first space, and a rest. -/
structure Parted (key word rest : String) : Prop where
  stripped : Stripped key.toList (word.toList ++ ' ' :: rest.toList)
  first : ' ' ∉ word.toList

theorem parted_iff : cutText ' ' (trimmed key) = some (word, rest) ↔ Parted key word rest := by
  have hcut : cutText ' ' (trimmed key) = some (word, rest)
      ↔ cut ' ' (trim key.toList) = some (word.toList, rest.toList) := by
    rw [cutText, trimmed, String.toList_ofList, Option.map_eq_some_iff]
    constructor
    · rintro ⟨parts, hparts, heq⟩
      cases heq
      rw [hparts, String.toList_ofList, String.toList_ofList]
    · intro h
      exact ⟨_, h, by simp only [String.ofList_toList]⟩
  rw [hcut, cut_eq_some, trim_eq_iff]
  exact ⟨fun h => ⟨h.1, h.2⟩, fun h => ⟨h.stripped, h.first⟩⟩

theorem unparted_iff : cutText ' ' (trimmed key) = none
    ↔ ∃ core, Stripped key.toList core ∧ ' ' ∉ core := by
  rw [cutText, trimmed, String.toList_ofList, Option.map_eq_none_iff, cut_eq_none_iff]
  constructor
  · exact fun h => ⟨_, stripped_trim _, h⟩
  · rintro ⟨core, hcore, h⟩
    rwa [trim_eq_iff.2 hcore]

theorem trimmed_eq_iff {text path : String} : trimmed text = path ↔ Stripped text.toList path.toList := by
  rw [← trim_eq_iff, trimmed, ← String.toList_inj, String.toList_ofList]

/-- Why a key is no key: there is no space in it, or the path behind the first one does not start with a slash, or
there is such a path but the word in front of it is no verb. -/
inductive Misspelt (key : String) : AppFault → Prop where
  | spaceless {core : List Char} (hcore : Stripped key.toList core) (hspace : ' ' ∉ core) :
      Misspelt key (.malformedEndpoint key)
  | unrooted {word rest path : String} (hparted : Parted key word rest) (hpath : Stripped rest.toList path.toList)
      (hslash : path.toList.head? ≠ some '/') : Misspelt key (.malformedEndpoint key)
  | unsupported {word rest path : String} (hparted : Parted key word rest) (hpath : Stripped rest.toList path.toList)
      (hslash : path.toList.head? = some '/') (hverb : ∀ v : Verb, sameLetters word v.wireName = false) :
      Misspelt key (.unsupportedMethod (lower word) path)

theorem ofText_eq_ok {v : Verb} {path : String} :
    ofText key = .ok ⟨v, path⟩ ↔ ∃ word rest, Parted key word rest ∧ sameLetters word v.wireName = true
      ∧ Stripped rest.toList path.toList ∧ path.toList.head? = some '/' := by
  simp only [← Verb.ofName?_eq_some, ← trimmed_eq_iff]
  constructor
  · intro h
    cases hcut : cutText ' ' (trimmed key) with
    | none => simp [ofText, hcut] at h
    | some parts =>
        simp only [ofText, hcut, ne_eq, ite_not] at h
        split at h
        · next hslash =>
            split at h
            · next v' hverb =>
                cases h
                exact ⟨_, _, parted_iff.1 hcut, hverb, rfl, hslash⟩
            · cases h
        · cases h
  · rintro ⟨word, rest, hparted, hverb, rfl, hslash⟩
    simp only [ofText, parted_iff.2 hparted, ne_eq, hslash, not_true_eq_false, if_false, hverb]

theorem ofText_eq_error {fault : AppFault} : ofText key = .error fault ↔ Misspelt key fault := by
  have hslash (text : String) : (trimmed text).toList.head? = some '/' ↔ Rooted text := by
    rw [trimmed, String.toList_ofList, Rooted]
  rw [App.misread_iff]
  constructor
  · rintro (hunrooted | ⟨hcut, hrooted, hverb⟩)
    · cases hcut : cutText ' ' (trimmed key) with
      | none =>
          obtain ⟨core, hcore, hspace⟩ := unparted_iff.1 hcut
          exact .spaceless hcore hspace
      | some parts =>
          have hrest : ¬ Rooted parts.2 := hunrooted _ _ hcut
          exact .unrooted (parted_iff.1 hcut) (trimmed_eq_iff.1 rfl) (mt (hslash _).1 hrest)
    · exact .unsupported (parted_iff.1 hcut) (trimmed_eq_iff.1 rfl) ((hslash _).2 hrooted)
        (Verb.ofName?_eq_none.1 hverb)
  · intro h
    cases h with
    | spaceless hcore hspace =>
        refine .malformed ?_
        simp [unparted_iff.2 ⟨_, hcore, hspace⟩]
    | @unrooted word rest path hparted hpath hunslashed =>
        refine .malformed ?_
        intro word' rest' hcut
        rw [parted_iff.2 hparted, Option.some.injEq, Prod.mk.injEq] at hcut
        rw [← hcut.2, ← hslash, trimmed_eq_iff.2 hpath]
        exact hunslashed
    | @unsupported word rest path hparted hpath hslashed hverb =>
        rw [← trimmed_eq_iff.2 hpath] at hslashed ⊢
        exact .unsupported (parted_iff.2 hparted) ((hslash _).1 hslashed) (Verb.ofName?_eq_none.2 hverb)

/-! ### One key, many spellings -/

/-- Whether a text is made of blank characters, if of any. -/
def Padding (text : String) : Prop := ∀ c ∈ text.toList, isBlank c = true

instance (text : String) : Decidable (Padding text) :=
  decidable_of_iff (text.toList.all isBlank = true) List.all_eq_true

/-- The spellings of a verb and a path: the verb in any letter case and the path, with a space between them and
padding anywhere around them but in front of the space. -/
inductive Spelling (v : Verb) (path : String) : String → Prop where
  | mk {front word between back : String} (hfront : Padding front) (hword : sameLetters word v.wireName = true)
      (hbetween : Padding between) (hback : Padding back) :
      Spelling v path (front ++ word ++ " " ++ between ++ path ++ back)

/-- Every spelling of a verb and a path is read as them. -/
theorem ofText_of_spelling {v : Verb} {path : String} (hrooted : Rooted path) (h : Spelling v path key) :
    ofText key = .ok ⟨v, trimmed path⟩ := by
  obtain @⟨front, word, between, back, hfront, hword, hbetween, hback⟩ := h
  have hpath : Stripped path.toList (trimmed path).toList := trimmed_eq_iff.1 rfl
  have hslash : (trimmed path).toList.head? = some '/' := by
    rw [trimmed, String.toList_ofList]
    exact hrooted
  generalize trimmed path = core at hpath hslash ⊢
  have hcore : core.toList ≠ [] := by
    intro hnil
    rw [hnil] at hslash
    cases hslash
  obtain ⟨⟨before, after, haround, hbefore, hafter⟩, hhead, hlast⟩ := hpath
  obtain ⟨hne, hnotBlank⟩ := word_of_sameLetters hword
  let rest := between.toList ++ before ++ core.toList
  have hparted : Parted (front ++ word ++ " " ++ between ++ path ++ back) word (String.ofList rest) := by
    refine ⟨⟨⟨front.toList, after ++ back.toList, ?_, hfront, List.forall_mem_append.2 ⟨hafter, hback⟩⟩, ?_, ?_⟩, ?_⟩
    · have hspace : " ".toList = [' '] := by rfl
      simp only [String.toList_append, String.toList_ofList, hspace, haround, rest, List.append_assoc, List.cons_append,
        List.nil_append]
    · rw [List.head?_append_of_ne_nil _ hne]
      exact fun c hc => hnotBlank c (List.mem_of_mem_head? hc)
    · have hsplit : word.toList ++ ' ' :: (String.ofList rest).toList
          = (word.toList ++ ' ' :: (between.toList ++ before)) ++ core.toList := by
        simp only [String.toList_ofList, rest, List.append_assoc, List.cons_append]
      rw [hsplit, List.getLast?_append_of_ne_nil _ hcore]
      exact hlast
    · intro hmem
      have hblank := hnotBlank ' ' hmem
      revert hblank
      decide
  have hrest : Stripped (String.ofList rest).toList core.toList := by
    refine ⟨⟨between.toList ++ before, [], ?_, List.forall_mem_append.2 ⟨hbetween, hbefore⟩, by simp⟩, hhead, hlast⟩
    rw [String.toList_ofList, List.append_nil]
  exact ofText_eq_ok.2 ⟨word, String.ofList rest, hparted, hword, hrest, hslash⟩

/-- A key that is read is a spelling of what it is read as. -/
theorem spelling_of_ofText {k : EndpointKey} (h : ofText key = .ok k) :
    Spelling k.verb k.path key ∧ Bare k.path ∧ Rooted k.path := by
  obtain ⟨word, rest, hparted, hword, hpath, hslash⟩ := ofText_eq_ok.1 h
  obtain ⟨front, back, haround, hfront, hback⟩ := hparted.stripped.around
  obtain ⟨between, behind, hrest, hbetween, hbehind⟩ := hpath.around
  have hbare : Stripped k.path.toList k.path.toList := ⟨⟨[], [], by simp, by simp, by simp⟩, hpath.head, hpath.last⟩
  have hkey : key = String.ofList front ++ word ++ " " ++ String.ofList between ++ k.path
      ++ String.ofList (behind ++ back) := by
    have hspace : " ".toList = [' '] := by rfl
    rw [← String.toList_inj, haround, hrest]
    simp only [String.toList_append, String.toList_ofList, hspace, List.append_assoc, List.cons_append, List.nil_append]
  refine ⟨?_, trimmed_eq_iff.2 hbare, ?_⟩
  · rw [hkey]
    refine .mk ?_ hword ?_ ?_
    · simpa only [Padding, String.toList_ofList] using hfront
    · simpa only [Padding, String.toList_ofList] using hbetween
    · simpa only [Padding, String.toList_ofList] using List.forall_mem_append.2 ⟨hbehind, hback⟩
  · rw [Rooted, trim_eq_iff.2 hbare]
    exact hslash

/-- A key is read exactly if, without the blank characters at its ends, it is a verb in any letter case, a space,
and what becomes a path that starts with a slash when it is stripped. What was read is written `METHOD path` and read
again as itself. Keys that differ in the letters of the verb and in padding only are read alike and registered alike,
and every key that is read is such a spelling. Any other key is refused for one of three reasons, of which an
unsupported method is one only beside a path that starts with a slash. -/
theorem keys_read_canonically (key : String) :
    (∀ v path, ofText key = .ok ⟨v, path⟩ ↔ ∃ word rest, Parted key word rest ∧ sameLetters word v.wireName = true
        ∧ Stripped rest.toList path.toList ∧ path.toList.head? = some '/')
      ∧ (∀ k, ofText key = .ok k →
          k.text = k.verb.wireName ++ " " ++ k.path ∧ ofText k.text = .ok k ∧ Spelling k.verb k.path key)
      ∧ (∀ v path key', Rooted path → Spelling v path key → Spelling v path key' →
          ofText key = .ok ⟨v, trimmed path⟩ ∧ ofText key' = .ok ⟨v, trimmed path⟩
            ∧ ∀ (app : App) (op : Operation), app.implement key op = app.implement key' op)
      ∧ ∀ fault, ofText key = .error fault ↔ Misspelt key fault := by
  refine ⟨fun v path => ofText_eq_ok, ?_, ?_, fun fault => ofText_eq_error⟩
  · intro k hk
    obtain ⟨hspelling, hbare, hrooted⟩ := spelling_of_ofText hk
    have htext : k.text = k.verb.wireName ++ " " ++ k.path := by rfl
    refine ⟨htext, ?_, hspelling⟩
    rw [htext, ofText_key, if_pos hrooted, hbare]
  · intro v path key' hrooted hspelling hspelling'
    have hread : ofText key = .ok ⟨v, trimmed path⟩ := ofText_of_spelling hrooted hspelling
    have hread' : ofText key' = .ok ⟨v, trimmed path⟩ := ofText_of_spelling hrooted hspelling'
    refine ⟨hread, hread', ?_⟩
    intro app op
    rw [App.implement, App.implement, hread, hread']

/-- A key with all kinds of padding, and the one it is registered under; a tab is no space, and not every word is a
verb. -/
theorem padded_key_read_canonically :
    ofText "\u3000pAtCh \t /a b/:id \n" = .ok ⟨.patch, "/a b/:id"⟩
      ∧ ofText "PATCH /a b/:id" = .ok ⟨.patch, "/a b/:id"⟩
      ∧ (∀ (app : App) (op : Operation),
          app.implement "\u3000pAtCh \t /a b/:id \n" op = app.implement "PATCH /a b/:id" op)
      ∧ Misspelt "GET\t/a b" (.malformedEndpoint "GET\t/a b")
      ∧ Misspelt "Head /x" (.unsupportedMethod "head" "/x") := by
  have hpadded : Spelling .patch "/a b/:id" "\u3000pAtCh \t /a b/:id \n" := by
    have hfront : Padding "\u3000" := by decide
    have hword : sameLetters "pAtCh" Verb.patch.wireName = true := by decide +kernel
    have hbetween : Padding "\t " := by decide
    have hback : Padding " \n" := by decide
    exact .mk hfront hword hbetween hback
  have hplain : Spelling .patch "/a b/:id" "PATCH /a b/:id" := by
    have hnone : Padding "" := by decide
    have hword : sameLetters "PATCH" Verb.patch.wireName = true := by decide +kernel
    exact .mk hnone hword hnone hnone
  obtain ⟨-, -, halike, -⟩ := keys_read_canonically "\u3000pAtCh \t /a b/:id \n"
  obtain ⟨-, -, -, htab⟩ := keys_read_canonically "GET\t/a b"
  obtain ⟨-, -, -, hhead⟩ := keys_read_canonically "Head /x"
  obtain ⟨hread, hread', hsame⟩ := halike .patch "/a b/:id" _ (by decide) hpadded hplain
  have hbare : trimmed "/a b/:id" = "/a b/:id" := by decide
  rw [hbare] at hread hread'
  exact ⟨hread, hread', hsame, (htab _).1 (by decide +kernel), (hhead _).1 (by decide +kernel)⟩

end EndpointKey

end ApiContracts
