import ApiContracts.Proofs.Routing.Router
import ApiContracts.Proofs.Text.Percent
import ApiContracts.Proofs.Text.Pieces

/-!
# Values of path parameters

A path is cut at its slashes before anything in it is decoded, and a target at its question mark before that.
So a value may hold either of them: sent percent-encoded it shows neither, stays one segment, and only the
parameter that takes the segment sees it decoded.
-/

namespace ApiContracts.Routing

open Http Text

/-! ### Segments of a path that was put together -/

theorem segments_slash (front back : String) : segments (front ++ "/" ++ back) = segments front ++ segments back := by
  have hsplit : (front ++ "/" ++ back).toList = front.toList ++ '/' :: back.toList := by
    simp [String.toList_append]
  rw [segments, splitText, hsplit, pieces_append_cons, List.map_append, List.filter_append]
  rfl

theorem segments_of_not_mem {s : String} (hslash : '/' ∉ s.toList) (hne : s ≠ "") : segments s = [s] := by
  rw [segments, splitText, pieces_of_not_mem hslash, List.map_singleton, String.ofList_toList]
  simp [hne]

/-- Whether a segment ends in front of a text, which is then empty or starts with a slash. -/
def EndsSegment (behind : String) : Prop := behind = "" ∨ ∃ rest, behind = "/" ++ rest

theorem segments_between {before s behind : String} (hslash : '/' ∉ s.toList) (hne : s ≠ "")
    (hbehind : EndsSegment behind) :
    segments (before ++ "/" ++ s ++ behind) = segments before ++ s :: segments behind := by
  have hnil : segments "" = [] := by decide
  have hfront : segments (before ++ "/" ++ s) = segments before ++ [s] := by
    rw [segments_slash, segments_of_not_mem hslash hne]
  rcases hbehind with rfl | ⟨rest, rfl⟩
  · rw [String.append_empty, hfront, hnil]
  · have hrest : segments ("/" ++ rest) = segments rest := by
      rw [← String.empty_append (s := "/" ++ rest), ← String.append_assoc, segments_slash, hnil, List.nil_append]
    rw [← String.append_assoc, segments_slash, hfront, hrest, List.append_assoc, List.singleton_append]

theorem pathOf_append {front back : String} (h : '?' ∉ front.toList) :
    ApiContracts.pathOf (front ++ back) = front ++ ApiContracts.pathOf back := by
  rw [ApiContracts.pathOf, ApiContracts.pathOf, cutText, cutText, String.toList_append, cut_append_left h]
  cases cut '?' back.toList with
  | none => rfl
  | some parts => simp

/-! ### What the parameters take -/

theorem bindings_append {ps qs : List Segment} {ss ts : List String} (h : ss.length = ps.length) :
    bindings (ps ++ qs) (ss ++ ts) = bindings ps ss ++ bindings qs ts := by
  rw [bindings, List.zipWith_append h.symm, List.flatten_append]
  rfl

theorem param_mem_of_mem_bindings {ps : List Segment} {ss : List String} {e : String × String}
    (h : e ∈ bindings ps ss) : .param e.1 ∈ ps := by
  induction ps generalizing ss with
  | nil => simp at h
  | cons p ps ih =>
      cases ss with
      | nil => simp [bindings] at h
      | cons s ss =>
          rw [bindings_cons, List.mem_append] at h
          rcases h with h | h
          · cases p with
            | static t => simp [Segment.binding] at h
            | param name =>
                rw [Segment.binding, List.mem_singleton] at h
                simp [h]
          · exact List.mem_cons_of_mem _ (ih h)

theorem Match.param?_of_last {found : Match} {name value : String} {before behind : List (String × String)}
    (hparams : found.params = before ++ (name, value) :: behind) (hlast : ∀ e ∈ behind, e.1 ≠ name) :
    found.param? name = some value := by
  have hnone : valuesOf name behind = [] := by
    rw [valuesOf, List.map_eq_nil_iff, List.filter_eq_nil_iff]
    intro e he
    simpa using hlast e he
  have hvalues : found.params = before ++ [(name, value)] ++ behind := by
    rw [hparams, List.append_assoc, List.singleton_append]
  rw [Match.param?, hvalues, valuesOf, List.filter_append, List.map_append, ← valuesOf, ← valuesOf, hnone]
  simp [valuesOf]

namespace Router

/-- A parameter is bound to the value that was sent for it, however its characters were written: it stands at
its place among the values of all parameters, and is the one found by its name if no parameter behind has this
name. The segment that was sent lies in the path of a target, whatever follows it there. -/
theorem sent_value_bound (rs : List Route) (m : Method) (before sent behind : String) (found : Match)
    (hroute : (ofRoutes rs).route m (before ++ "/" ++ sent ++ behind) = some found) (hbehind : EndsSegment behind)
    (ps qs : List Segment) (name : String) (hpattern : found.route.pattern = ps ++ .param name :: qs)
    (hplace : (segments before).length = ps.length) (value : String) (hvalue : value ≠ "")
    (hsent : PercentEncodes value sent) :
    found.params = bindings ps (segments before) ++ (name, value) :: bindings qs (segments behind)
      ∧ (.param name ∉ qs → found.param? name = some value)
      ∧ ('?' ∉ before.toList → ∀ rest,
          ApiContracts.pathOf (before ++ "/" ++ sent ++ rest)
            = before ++ "/" ++ sent ++ ApiContracts.pathOf rest) := by
  obtain ⟨hslash, hmark⟩ := hsent.not_mem
  have hparams : found.params
      = bindings ps (segments before) ++ (name, value) :: bindings qs (segments behind) := by
    obtain ⟨-, -, hbindings, -⟩ := route_eq_some hroute
    rw [hbindings, hpattern, segments_between hslash (hsent.ne_empty hvalue) hbehind, bindings_append hplace,
      bindings_cons, Segment.binding, hsent.percentDecode_eq, List.singleton_append]
  refine ⟨hparams, ?_, ?_⟩
  · intro hname
    refine Match.param?_of_last hparams ?_
    rintro e he rfl
    exact hname (param_mem_of_mem_bindings he)
  · intro hbefore rest
    have hfront : '?' ∉ (before ++ "/" ++ sent).toList := by
      simp [String.toList_append, hbefore, hmark]
    exact pathOf_append hfront

def copies : List Route := [⟨.get, "/files/{path}/latest"⟩, ⟨.get, "/files/:name/copies/{copy}"⟩]

theorem encodes_mixed : PercentEncodes "a/ü?%b" "a%2F%c3%BC%3f%25b" := by
  have hslash : EncodesByte 0x2f ['%', '2', 'F'] := .mk (by decide) (by decide)
  have hfirst : EncodesByte 0xc3 ['%', 'c', '3'] := .mk (by decide) (by decide)
  have hsecond : EncodesByte 0xbc ['%', 'B', 'C'] := .mk (by decide) (by decide)
  have hmark : EncodesByte 0x3f ['%', '3', 'f'] := .mk (by decide) (by decide)
  have hpercent : EncodesByte 0x25 ['%', '2', '5'] := .mk (by decide) (by decide)
  refine ⟨[['a'], List.flatten [['%', '2', 'F']], List.flatten [['%', 'c', '3'], ['%', 'B', 'C']],
    List.flatten [['%', '3', 'f']], List.flatten [['%', '2', '5']], ['b']], ?_, by decide⟩
  exact .cons (.asItIs (by decide) (by decide) (by decide)) <|
    .cons (.byBytes (.cons hslash .nil)) <|
    .cons (.byBytes (.cons hfirst (.cons hsecond .nil))) <|
    .cons (.byBytes (.cons hmark .nil)) <|
    .cons (.byBytes (.cons hpercent .nil)) <|
    .cons (.asItIs (by decide) (by decide) (by decide)) .nil

theorem sent_value_bound_copies :
    let sent := "a%2F%c3%BC%3f%25b"
    ∃ found, (ofRoutes copies).route .get ("/files" ++ "/" ++ sent ++ "/copies/2") = some found
      ∧ EndsSegment "/copies/2"
      ∧ found.route.pattern = [.static "files"] ++ .param "name" :: [.static "copies", .param "copy"]
      ∧ (segments "/files").length = 1
      ∧ PercentEncodes "a/ü?%b" sent
      ∧ found.params = [("name", "a/ü?%b"), ("copy", "2")]
      ∧ found.param? "name" = some "a/ü?%b"
      ∧ ApiContracts.pathOf ("/files" ++ "/" ++ sent ++ "/copies/2?all=/") = "/files" ++ "/" ++ sent ++ "/copies/2" := by
  intro sent
  have hmap : ((ofRoutes copies).route .get ("/files" ++ "/" ++ sent ++ "/copies/2")).map (·.route)
      = some ⟨.get, "/files/:name/copies/{copy}"⟩ := by decide +kernel
  obtain ⟨found, hfound, hroute⟩ := Option.map_eq_some_iff.1 hmap
  have hbehind : EndsSegment "/copies/2" := Or.inr ⟨"copies/2", by decide⟩
  have hpattern : found.route.pattern = [.static "files"] ++ .param "name" :: [.static "copies", .param "copy"] := by
    rw [hroute]
    decide +kernel
  have hplace : (segments "/files").length = 1 := by decide +kernel
  obtain ⟨hparams, hparam, hpath⟩ :=
    sent_value_bound copies .get "/files" sent "/copies/2" found hfound hbehind _ _ "name" hpattern hplace "a/ü?%b"
      (by decide) encodes_mixed
  refine ⟨found, hfound, hbehind, hpattern, hplace, encodes_mixed, ?_, hparam (by decide), ?_⟩
  · rw [hparams]
    decide +kernel
  · rw [hpath (by decide +kernel)]
    decide +kernel

end Router

end ApiContracts.Routing
