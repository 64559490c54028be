import ApiContracts.Proofs.Compile.Imports
import ApiContracts.Proofs.Compile.Literals

/-!
# One contract under two paths

A contract goes by its name almost everywhere, and paths that differ can share a name. Only two lines of it are
written from the path itself: a constant, whose value quotes it, and a comment, which has it as it is. So the
contracts of two such paths are built alike, and their texts are the same around these two lines.

A quoted path is on one line. A path in a comment is not, if a line ends in it: what follows the end of the line is
source code then, and no longer a comment. The two texts are of the same lines but for those two exactly when the
paths are the same behind the end of their first lines, or have no more than one.
-/

namespace ApiContracts.Compile

open Text

def textLines (a : Artifact) : List String := splitText '\n' a.content

/-- Lines with some of them, by their numbers, left blank. -/
def blanked (places : List Nat) (lines : List String) : List String :=
  places.foldl (fun lines i => lines.set i "") lines

/-- What follows the first line of a text, if there is more than one. -/
def behindBreak (s : String) : Option String := (cutText '\n' s).map (·.2)

/-! ### Building -/

section Build

variable {lookups : Lookups} {config : Config} {place endpoint : String}

theorem Lookups.resolve_endpoint {type : TypeReference} {resolved : Resolved}
    (h : lookups.resolve place endpoint type = .ok resolved) (endpoint' : String) :
    lookups.resolve place endpoint' type = .ok resolved := by
  exact resolve_eq_ok.2 (resolve_eq_ok.1 h)

theorem sectionFields_endpoint {part : Section} {done : List SectionField} {imports : Table Import}
    {fields : List Field} {out : List SectionField × Table Import}
    (h : sectionFields lookups config place endpoint part done imports fields = .ok out) (endpoint' : String) :
    sectionFields lookups config place endpoint' part done imports fields = .ok out := by
  induction fields generalizing done imports with
  | nil => exact h
  | cons f rest ih =>
      obtain ⟨resolved, hresolve, hfree, h⟩ := sectionFields_cons_eq_ok.1 h
      exact sectionFields_cons_eq_ok.2 ⟨resolved, Lookups.resolve_endpoint hresolve endpoint', hfree, ih h⟩

theorem sectionTypes_path {e : Endpoint} {parts : List Section} {imports : Table Import}
    {out : List SectionType × Table Import} (h : sectionTypes lookups config place e imports parts = .ok out)
    (path : String) : sectionTypes lookups config place { e with path } imports parts = .ok out := by
  induction parts generalizing imports out with
  | nil => exact h
  | cons part rest ih =>
      refine sectionTypes_cons_eq_ok.2 ?_
      rcases sectionTypes_cons_eq_ok.1 h with ⟨hnone, h⟩ | ⟨hsome, fields, others, hfields, hothers, hout⟩
      · exact Or.inl ⟨hnone, ih h⟩
      · exact Or.inr ⟨hsome, fields, others, sectionFields_endpoint hfields _, ih hothers, hout⟩

theorem Contract.build?_path {e : Endpoint} {c : Contract} (h : build? lookups config e = .ok c) {path : String}
    (hname : Compile.identifier e.verb path = Compile.identifier e.verb e.path) :
    build? lookups config { e with path } = .ok { c with path } := by
  rw [build?] at h ⊢
  obtain ⟨⟨sections, imports⟩, hsections, h⟩ := bind_eq_ok.1 h
  obtain ⟨result, hresult, h⟩ := bind_eq_ok.1 h
  cases h
  rw [hname]
  exact bind_eq_ok.2 ⟨_, sectionTypes_path hsections path,
    bind_eq_ok.2 ⟨result, Lookups.resolve_endpoint hresult _, rfl⟩⟩

end Build

/-! ### The lines around the path -/

namespace Contract

def untilEndpoint (c : Contract) : List String :=
  [banner, "#![allow(non_camel_case_types, non_snake_case, dead_code, unused_imports)]", ""] ++
  c.libraryUses.map Use.line ++ c.imports.keys ++ c.requestLines ++
  ["", s!"pub type {c.identifier}_Res = {c.result.typeText};", "", s!"pub struct {c.identifier}_Contract;", "",
    s!"impl Contract for {c.identifier}_Contract \x7b"]

def untilComment (c : Contract) : List String :=
  let mode := if c.isMinimal then "PassThrough" else "Typed"
  [s!"    const MODE: ContractMode = ContractMode::{mode};",
    s!"    type Request = {c.identifier}_Req;", s!"    type Response = {c.identifier}_Res;"] ++
  (if c.isMinimal then []
    else ["", "    fn sections() -> &'static [SectionSpec] \x7b", "        SECTIONS", "    \x7d"]) ++
  ["\x7d", ""]

def behindComment (c : Contract) : List String :=
  [s!"pub struct {c.identifier}(pub EndpointDescriptor<{c.identifier}_Contract>);", "", s!"impl {c.identifier} \x7b",
    "    pub fn new<F>(f: F) -> Self", "    where",
    s!"        F: Fn({c.identifier}_Req, ErrorFn) -> Result<{c.identifier}_Res, HandlerError> + Send + Sync + 'static,",
    "    \x7b", "        Self(EndpointDescriptor::new(move |req| f(req, error)))", "    \x7d", "\x7d"]

theorem lines_eq_parts (c : Contract) :
    c.lines = c.untilEndpoint ++ c.endpointLine :: (c.untilComment ++ c.commentLine :: c.behindComment) := by
  rw [untilEndpoint, ← libraryLines_eq]
  simp only [lines, untilComment, behindComment, List.append_assoc, List.cons_append, List.nil_append]

theorem requestLines_path {c : Contract} {path : String} (hname : Compile.identifier c.verb path = c.identifier) :
    requestLines { c with path } = c.requestLines := by
  have hidentifier : identifier { c with path } = c.identifier := hname
  have htypeName : typeName { c with path } = c.typeName := by
    funext s
    rw [typeName, typeName, hidentifier]
  have htypes : sectionTypeLines { c with path } = c.sectionTypeLines := by
    funext s
    rw [sectionTypeLines, sectionTypeLines, htypeName]
  rw [requestLines, requestLines, hidentifier, htypeName, htypes]
  rfl

/-- Around the two lines, the path counts only for what it names. -/
theorem parts_path {c : Contract} {path : String} (hname : Compile.identifier c.verb path = c.identifier) :
    untilEndpoint { c with path } = c.untilEndpoint ∧ untilComment { c with path } = c.untilComment
      ∧ behindComment { c with path } = c.behindComment := by
  have hidentifier : identifier { c with path } = c.identifier := hname
  have hmodulePath : modulePath { c with path } = c.modulePath := by
    rw [modulePath, modulePath, hidentifier]
  have huses : libraryUses { c with path } = c.libraryUses := by
    rw [libraryUses, libraryUses, hmodulePath]
  refine ⟨?_, ?_, ?_⟩
  · rw [untilEndpoint, untilEndpoint, hidentifier, huses, requestLines_path hname]
  · rw [untilComment, untilComment, hidentifier]
    rfl
  · rw [behindComment, behindComment, hidentifier]

/-! ### The text of a contract -/

/-- The lines of a contract's file, around the two that tell its path: a constant, whose literal is the endpoint
and ends in its line, and a comment, which ends in its line if the path does. -/
structure TellsPath (c : Contract) (before between after : List String) : Prop where
  lines : textLines c.artifact = before ++ c.endpointLine :: (between ++ (splitText '\n' c.commentLine ++ after))
  literal : firstLiteral? c.endpointLine = some ("    const ENDPOINT: &'static str = ", c.endpoint, ";")
  comment : splitText '\n' c.commentLine = [c.commentLine] ↔ '\n' ∉ c.path.toList

def commentStart (c : Contract) : List Char := "/// \x60".toList ++ (c.verb.wireName.toList ++ [' '])

theorem toList_commentLine (c : Contract) :
    c.commentLine.toList = c.commentStart ++ (c.path.toList ++ ['\x60']) := by
  have hline : c.commentLine = "/// \x60" ++ (c.verb.wireName ++ " " ++ c.path) ++ "\x60" := rfl
  simp [hline, commentStart, String.toList_append]

theorem newline_not_mem_commentStart (c : Contract) : '\n' ∉ c.commentStart := by
  rw [commentStart]
  cases c.verb <;> decide

theorem count_commentLine (c : Contract) : c.commentLine.toList.count '\n' = c.path.toList.count '\n' := by
  have hend : ['\x60'].count '\n' = 0 := by decide
  rw [toList_commentLine, List.count_append, List.count_append, hend,
    List.count_eq_zero.2 (newline_not_mem_commentStart c), Nat.zero_add, Nat.add_zero]

theorem newline_not_mem_endpointLine (c : Contract) : '\n' ∉ c.endpointLine.toList := by
  have hline : c.endpointLine = "    const ENDPOINT: &'static str = " ++ quote c.endpoint ++ ";" := rfl
  have hstart : '\n' ∉ "    const ENDPOINT: &'static str = ".toList := by decide
  have hquote := newline_not_mem_quote c.endpoint
  rw [hline, String.toList_append, String.toList_append, List.mem_append, List.mem_append, not_or, not_or]
  exact ⟨⟨hstart, hquote⟩, by decide⟩

theorem length_splitText_commentLine (c : Contract) :
    (splitText '\n' c.commentLine).length = c.path.toList.count '\n' + 1 := by
  rw [splitText, List.length_map, length_pieces, count_commentLine]

theorem tail_splitText_commentLine (c : Contract) : (splitText '\n' c.commentLine).tail
    = ((behindBreak c.path).map fun rest => splitText '\n' (rest ++ "\x60")).getD [] := by
  have hend : '\n' ∉ ['\x60'] := by decide
  rw [splitText, ← List.map_tail, tail_pieces, toList_commentLine, cut_append_left (newline_not_mem_commentStart c),
    cut_append_right hend, behindBreak, cutText]
  cases cut '\n' c.path.toList with
  | none => rfl
  | some parts => simp [splitText, String.toList_append]

theorem tellsPath_of_parts {c : Contract} {before between after : List String} (hbefore : c.untilEndpoint = before)
    (hbetween : c.untilComment = between) (hafter : c.behindComment = after) :
    c.TellsPath (before.flatMap (splitText '\n')) (between.flatMap (splitText '\n'))
      (after.flatMap (splitText '\n') ++ [""]) := by
  refine ⟨?_, firstLiteral?_endpointLine c, ?_⟩
  · have hne : c.lines ≠ [] := List.ne_nil_of_mem (endpointLine_mem c)
    have hcontent : c.artifact.content = sourceText c.lines := rfl
    rw [textLines, hcontent, splitText_sourceText_flatMap hne, lines_eq_parts, hbefore, hbetween, hafter,
      List.flatMap_append, List.flatMap_cons, List.flatMap_append, List.flatMap_cons,
      splitText_of_not_mem (newline_not_mem_endpointLine c)]
    simp only [List.append_assoc, List.cons_append, List.nil_append]
  · constructor
    · intro hone
      have hlength := length_splitText_commentLine c
      rw [hone, List.length_singleton] at hlength
      exact List.count_eq_zero.1 (by omega)
    · intro hbreak
      have hcomment : '\n' ∉ c.commentLine.toList := by
        rw [← List.count_eq_zero, count_commentLine]
        exact List.count_eq_zero.2 hbreak
      exact splitText_of_not_mem hcomment

end Contract

/-! ### Comparing two texts -/

theorem blanked_two (before between after : List String) (x y : String) :
    blanked [before.length, before.length + 1 + between.length] (before ++ x :: (between ++ y :: after))
      = before ++ "" :: (between ++ "" :: after) := by
  have hsecond : before ++ "" :: (between ++ y :: after) = (before ++ "" :: between) ++ y :: after := by simp
  have hplace : before.length + 1 + between.length = (before ++ "" :: between).length := by
    simp [Nat.add_right_comm, Nat.add_assoc]
  rw [blanked, List.foldl_cons, List.foldl_cons, List.foldl_nil, List.set_append_right _ _ (Nat.le_refl _),
    Nat.sub_self, List.set_cons_zero, hsecond, hplace, List.set_append_right _ _ (Nat.le_refl _), Nat.sub_self,
    List.set_cons_zero, List.append_assoc, List.cons_append]

namespace Contract

variable {c d : Contract} {before between after : List String}

theorem tail_commentLine_eq_iff : (splitText '\n' d.commentLine).tail = (splitText '\n' c.commentLine).tail
    ↔ behindBreak d.path = behindBreak c.path := by
  have hne (rest : String) : splitText '\n' rest ≠ [] := splitText_ne_nil rest
  have hinj {a b : String} : splitText '\n' (a ++ "\x60") = splitText '\n' (b ++ "\x60") ↔ a = b :=
    splitText_inj.trans (String.append_left_inj _)
  rw [tail_splitText_commentLine, tail_splitText_commentLine]
  cases behindBreak d.path <;> cases behindBreak c.path <;> simp [hne, hinj, (hne _).symm]

theorem TellsPath.blanked_eq_iff (hc : c.TellsPath before between after) (hd : d.TellsPath before between after) :
    blanked [before.length, before.length + 1 + between.length] (textLines d.artifact)
        = blanked [before.length, before.length + 1 + between.length] (textLines c.artifact)
      ↔ behindBreak d.path = behindBreak c.path := by
  obtain ⟨x, xs, hx⟩ := List.exists_cons_of_ne_nil (splitText_ne_nil c.commentLine)
  obtain ⟨y, ys, hy⟩ := List.exists_cons_of_ne_nil (splitText_ne_nil d.commentLine)
  have htails := tail_commentLine_eq_iff (c := c) (d := d)
  rw [hx, hy, List.tail_cons, List.tail_cons] at htails
  rw [hc.lines, hd.lines, hx, hy, List.cons_append, List.cons_append, blanked_two, blanked_two]
  simp only [List.append_cancel_left_eq, List.cons.injEq, true_and, List.append_cancel_right_eq, htails]

theorem TellsPath.length_eq_iff (hc : c.TellsPath before between after) (hd : d.TellsPath before between after) :
    (textLines d.artifact).length = (textLines c.artifact).length
      ↔ d.path.toList.count '\n' = c.path.toList.count '\n' := by
  have hlengths := length_splitText_commentLine c
  have hlengths' := length_splitText_commentLine d
  rw [hc.lines, hd.lines]
  simp only [List.length_append, List.length_cons]
  omega

theorem exists_renamed {lookups : Lookups} {config : Config} {e : Endpoint} (h : build? lookups config e = .ok c)
    {path : String} (hname : Compile.identifier e.verb path = Compile.identifier e.verb e.path) :
    ∃ d, build? lookups config { e with path } = .ok d ∧ d.artifact.name = c.artifact.name
      ∧ d.artifact.path = c.artifact.path
      ∧ ∃ before between after, c.TellsPath before between after ∧ d.TellsPath before between after := by
  obtain ⟨hverb, -⟩ := verb_path_of_build? h
  have hidentifier : Compile.identifier c.verb path = c.identifier := by
    rw [hverb, hname, identifier_of_build? h]
  have hsame : identifier { c with path } = c.identifier := hidentifier
  obtain ⟨huntil, hbetween, hbehind⟩ := parts_path hidentifier
  refine ⟨{ c with path }, build?_path h hname, hidentifier, ?_, _, _, _, tellsPath_of_parts rfl rfl rfl,
    tellsPath_of_parts huntil hbetween hbehind⟩
  show sourceFile (modulePath { c with path }) = sourceFile c.modulePath
  rw [modulePath, modulePath, hsame]

/-- The contract of an endpoint can be built for any path of the same name, with the same file. The texts are of the
same lines around two, one of which tells the endpoint in a literal and the other in a comment. With these left
blank they agree exactly if the paths agree behind the ends of their first lines, and they have the same number of
lines exactly if the paths have. -/
theorem renamed_texts_agree_iff {lookups : Lookups} {config : Config} {e : Endpoint}
    (h : build? lookups config e = .ok c) {path : String}
    (hname : Compile.identifier e.verb path = Compile.identifier e.verb e.path) :
    ∃ d, build? lookups config { e with path } = .ok d ∧ d.artifact.name = c.artifact.name
      ∧ d.artifact.path = c.artifact.path
      ∧ ∃ before between after, c.TellsPath before between after ∧ d.TellsPath before between after
        ∧ (blanked [before.length, before.length + 1 + between.length] (textLines d.artifact)
            = blanked [before.length, before.length + 1 + between.length] (textLines c.artifact)
          ↔ behindBreak path = behindBreak e.path)
        ∧ ((textLines d.artifact).length = (textLines c.artifact).length
          ↔ path.toList.count '\n' = e.path.toList.count '\n') := by
  obtain ⟨d, hbuild, hidentifier, hplace, before, between, after, hc, hd⟩ := exists_renamed h hname
  obtain ⟨-, hpath⟩ := verb_path_of_build? h
  obtain ⟨-, hpath'⟩ := verb_path_of_build? hbuild
  refine ⟨d, hbuild, hidentifier, hplace, before, between, after, hc, hd, ?_, ?_⟩
  · rw [hc.blanked_eq_iff hd, hpath, hpath']
  · rw [hc.length_eq_iff hd, hpath, hpath']

/-- Quotes, a backslash and a tab instead of slashes. -/
theorem renamed_texts_agree_quoted :
    ∃ c d, build? {} {} (.answeringText .get "/a/b//") = .ok c ∧ build? {} {} (.answeringText .get "/a\"b\\\t") = .ok d
      ∧ d.artifact.path = c.artifact.path ∧ (textLines d.artifact).length = (textLines c.artifact).length
      ∧ ∃ before between after, c.TellsPath before between after ∧ d.TellsPath before between after
        ∧ blanked [before.length, before.length + 1 + between.length] (textLines d.artifact)
          = blanked [before.length, before.length + 1 + between.length] (textLines c.artifact) := by
  have hok : (build? {} {} (.answeringText .get "/a/b//")).isOk = true := by decide +kernel
  obtain ⟨c, hc⟩ := isOk_iff.1 hok
  have hname : Compile.identifier .get "/a\"b\\\t" = Compile.identifier .get "/a/b//" := by decide +kernel
  obtain ⟨d, hd, -, hplace, before, between, after, htells, htells', hblanked, hlength⟩ :=
    renamed_texts_agree_iff hc hname
  exact ⟨c, d, hc, hd, hplace, hlength.2 (by decide +kernel), before, between, after, htells, htells',
    hblanked.2 (by decide +kernel)⟩

/-- The second of three lines of a path is source code, where the text for a path of the same name has no line. -/
theorem broken_path_leaves_comment :
    ∃ c d, build? {} {} (.answeringText .get "/a/pub/struct/B////") = .ok c
      ∧ build? {} {} (.answeringText .get "/a\npub struct B;\n//") = .ok d
      ∧ d.artifact.name = c.artifact.name ∧ d.artifact.path = c.artifact.path
      ∧ (textLines d.artifact).length = (textLines c.artifact).length + 2
      ∧ "pub struct B;" ∈ textLines d.artifact := by
  have hok : (build? {} {} (.answeringText .get "/a/pub/struct/B////")).isOk = true := by decide +kernel
  obtain ⟨c, hc⟩ := isOk_iff.1 hok
  have hname : Compile.identifier .get "/a\npub struct B;\n//" = Compile.identifier .get "/a/pub/struct/B////" := by
    decide +kernel
  obtain ⟨d, hd, hsame, hplace, before, between, after, htells, htells'⟩ := exists_renamed hc hname
  obtain ⟨-, hpath⟩ := verb_path_of_build? hc
  obtain ⟨hverb', hpath'⟩ := verb_path_of_build? hd
  refine ⟨c, d, hc, hd, hsame, hplace, ?_, ?_⟩
  · have hone : c.path.toList.count '\n' = 0 := by
      rw [hpath]
      decide +kernel
    have hthree : d.path.toList.count '\n' = 2 := by
      rw [hpath']
      decide +kernel
    have hlength := length_splitText_commentLine c
    have hlength' := length_splitText_commentLine d
    rw [htells.lines, htells'.lines]
    simp only [List.length_append, List.length_cons]
    omega
  · have hcomment : "pub struct B;" ∈ splitText '\n' d.commentLine := by
      rw [commentLine, endpoint, hverb', hpath']
      decide +kernel
    rw [htells'.lines]
    simp [hcomment]

end Contract

end ApiContracts.Compile
