import ApiContracts.Proofs.Rules.Leaves
import ApiContracts.Proofs.Service.Failure
import ApiContracts.Service.Dispatcher
import Mathlib.Logic.Relation

/-!
# How an operation is carried out

An operation goes through stages. Section by section a request is decoded and validated, then the whole
contract is converted to the request type; business code is invoked, and its outcome responded to. A fault
before business code settles the matter. `Step` says what each stage asks for and leads to, `Stage.Known`
what is known when it is reached, and so the handler answers what a run of the stages ends with.
-/

namespace ApiContracts

open Json Routing

/-! ### Outcomes and answers -/

/-- What is answered to an outcome of business code. -/
inductive Responds : Outcome → Reaction → Prop where
  | returned (v : Value) : Responds (.returned v) (.answered (.json 200 v))
  | unwritable (reason : String) :
      Responds (.unwritable reason) (.answered (.text 500 ("failed to serialize response: " ++ reason)))
  | structured {code : Nat} (payload : Value) (hstatus : 100 ≤ code ∧ code ≤ 599) :
      Responds (.failed (.structured code payload)) (.answered (.json code payload))
  | statusless {code : Nat} (payload : Value) (hstatus : ¬ (100 ≤ code ∧ code ≤ 599)) :
      Responds (.failed (.structured code payload)) (.answered (.json 500 payload))
  | sentinel {message text : String} {code : Nat} (hsentinel : Sentinel message code text)
      (hstatus : 100 ≤ code ∧ code ≤ 599) : Responds (.failed (.thrown message)) (.answered (.text code text))
  | thrown {message : String} (hplain : ∀ code text, Sentinel message code text → ¬ (100 ≤ code ∧ code ≤ 599)) :
      Responds (.failed (.thrown message)) (.answered (.text 500 message))
  | panicked (message : Option String) : Responds (.panicked message) (.panicked message)

theorem isStatus_iff {code : Nat} : isStatus code = true ↔ 100 ≤ code ∧ code ≤ 599 := by
  simp [isStatus]

theorem responds_respond (o : Outcome) : Responds o (Operation.respond o) := by
  cases o with
  | returned v => exact .returned v
  | unwritable reason => exact .unwritable reason
  | panicked message => exact .panicked message
  | failed f =>
      cases f with
      | structured code payload =>
          rw [Operation.respond, Failure.toResponse]
          split
          · next hstatus => exact .structured payload (isStatus_iff.1 hstatus)
          · next hstatus => exact .statusless payload fun h => hstatus (isStatus_iff.2 h)
      | thrown message =>
          rw [Operation.respond, Failure.toResponse]
          split
          · next code text hsentinel =>
              split
              · next hstatus => exact .sentinel (sentinel_iff.1 hsentinel) (isStatus_iff.1 hstatus)
              · next hstatus =>
                  refine .thrown fun code' text' hsentinel' h => hstatus (isStatus_iff.2 ?_)
                  rw [hsentinel'.eq_some] at hsentinel
                  cases hsentinel
                  exact h
          · next hnone =>
              refine .thrown fun code text hsentinel => ?_
              rw [hsentinel.eq_some] at hnone
              cases hnone

theorem Responds.eq_respond {o : Outcome} {r : Reaction} (h : Responds o r) : Operation.respond o = r := by
  cases h with
  | returned | unwritable | panicked => rfl
  | structured payload hstatus => simp [Operation.respond, Failure.toResponse, isStatus_iff.2 hstatus]
  | statusless payload hstatus =>
      rw [← isStatus_iff] at hstatus
      simp [Operation.respond, Failure.toResponse, hstatus]
  | sentinel hsentinel hstatus =>
      simp [Operation.respond, Failure.toResponse, hsentinel.eq_some, isStatus_iff.2 hstatus]
  | @thrown message hplain =>
      rw [Operation.respond, Failure.toResponse]
      split
      · next code text hsentinel =>
          rw [if_neg fun hstatus => hplain _ _ (sentinel_iff.1 hsentinel) (isStatus_iff.1 hstatus)]
      · rfl

theorem Responds.status {o : Outcome} {r : Reaction} (h : Responds o r) :
    100 ≤ (Dispatcher.answerOf r).status ∧ (Dispatcher.answerOf r).status ≤ 599 := by
  cases h with
  | structured payload hstatus => exact hstatus
  | sentinel hsentinel hstatus => exact hstatus
  | returned | unwritable | statusless | thrown | panicked =>
      simp [Dispatcher.answerOf, Response.json, Response.text]

namespace Operation

def refused (message : String) : Reaction := .answered (.text 400 message)

/-! ### Stages -/

/-- Where a request is on its way, with the sections accepted so far and those left while it is decoded. -/
inductive Stage where
  | decode (accepted : Table Value) (left : List (SectionRules NamedType))
  | validate (accepted : Table Value) (s : SectionRules NamedType) (decoded : Table Value)
      (left : List (SectionRules NamedType))
  | convert (contract : Value)
  | invoke (input : Value)
  | respond (o : Outcome)
  | settled (r : Reaction)

inductive Step (op : Operation) (req : Request) : Stage → Stage → Prop where
  | decode {accepted : Table Value} {s : SectionRules NamedType} {left : List (SectionRules NamedType)} :
      Step op req (.decode accepted (s :: left)) (.validate accepted s (s.decode req) left)
  | accept {accepted decoded : Table Value} {s : SectionRules NamedType} {left : List (SectionRules NamedType)}
      (hvalid : ∀ r ∈ s.rules, r.Holds (decoded.get? r.key)) :
      Step op req (.validate accepted s decoded left)
        (.decode (accepted.insert s.part.name (.obj decoded.entries)) left)
  | reject {accepted decoded : Table Value} {s : SectionRules NamedType} {left : List (SectionRules NamedType)}
      (hinvalid : ¬ ∀ r ∈ s.rules, r.Holds (decoded.get? r.key)) :
      Step op req (.validate accepted s decoded left)
        (.settled (refused (", ".intercalate (s.violations decoded))))
  | gather {accepted : Table Value} : Step op req (.decode accepted []) (.convert (.obj accepted.entries))
  | convert {contract input : Value} (hread : op.request contract = .ok input) :
      Step op req (.convert contract) (.invoke input)
  | unreadable {contract : Value} {e : DecodeError} (hread : op.request contract = .error e) :
      Step op req (.convert contract) (.settled (refused e.message))
  | invoke {input : Value} : Step op req (.invoke input) (.respond (op.business input))
  | respond {o : Outcome} {r : Reaction} (hresponds : Responds o r) : Step op req (.respond o) (.settled r)

/-- A request that is passed through has its raw parameters for a contract. -/
def start (op : Operation) (req : Request) : Stage :=
  match op.mode with
  | .typed => .decode .empty op.sections
  | .passThrough => .convert (RawParams.ofRequest req).toValue

def Run (op : Operation) (req : Request) : Stage → Prop := Relation.ReflTransGen (Step op req) (op.start req)

section Runs

variable {op : Operation} {req : Request}

def convert (op : Operation) (contract : Except Violation (Table Value)) : Except Refusal Value := do
  let t ← contract.mapError .invalid
  (op.request (.obj t.entries)).mapError .unreadable

theorem read_typed (h : op.mode = .typed) : op.read req = op.convert (contractOf .empty op.sections req) := by
  rw [read, h, convert, decodeAndValidate]
  cases contractOf .empty op.sections req <;> rfl

theorem read_passThrough (h : op.mode = .passThrough) :
    op.read req = (op.request (RawParams.ofRequest req).toValue).mapError .unreadable := by
  rw [read, h]
  rfl

/-- What a request that has come to a stage tells of how it is read and answered. -/
def Stage.Known (op : Operation) (req : Request) : Stage → Prop
  | decode accepted left => op.read req = op.convert (contractOf accepted left req)
  | validate accepted s decoded left =>
      decoded = s.decode req ∧ op.read req = op.convert (contractOf accepted (s :: left) req)
  | convert contract => op.read req = (op.request contract).mapError .unreadable
  | invoke input => op.read req = .ok input
  | respond o => ∃ input, op.read req = .ok input ∧ op.business input = o
  | settled r => op.handler req = r

theorem handler_of_error {refusal : Refusal} (h : op.read req = .error refusal) :
    op.handler req = refused refusal.message := by
  rw [handler, h, refused]

theorem handler_of_ok {input : Value} (h : op.read req = .ok input) :
    op.handler req = respond (op.business input) := by
  rw [handler, h]

theorem known_start : (op.start req).Known op req := by
  rw [start]
  cases hmode : op.mode with
  | typed => exact read_typed hmode
  | passThrough => exact read_passThrough hmode

/-- What is known is kept by every step. -/
theorem Step.known {a b : Stage} (hstep : Step op req a b) (ha : a.Known op req) : b.Known op req := by
  cases hstep with
  | decode => exact ⟨rfl, ha⟩
  | @accept accepted decoded s left hvalid =>
      obtain ⟨rfl, hread⟩ := ha
      rw [contractOf, SectionRules.decodeValid_eq_ok.2 ⟨hvalid, rfl⟩] at hread
      exact hread
  | @reject accepted decoded s left hinvalid =>
      obtain ⟨rfl, hread⟩ := ha
      rw [contractOf, SectionRules.decodeValid_of_not_holds hinvalid] at hread
      exact handler_of_error hread
  | gather => exact ha
  | convert hread =>
      rw [Stage.Known, hread] at ha
      exact ha
  | unreadable hread =>
      rw [Stage.Known, hread] at ha
      exact handler_of_error ha
  | invoke => exact ⟨_, ha, rfl⟩
  | respond hresponds =>
      obtain ⟨input, hread, rfl⟩ := ha
      exact (handler_of_ok hread).trans hresponds.eq_respond

theorem Run.known {a : Stage} (hrun : Run op req a) : a.Known op req := by
  induction hrun with
  | refl => exact known_start
  | tail _ hstep ih => exact hstep.known ih

/-- Where the reading of a request leads. -/
def Stage.ofRead : Except Refusal Value → Stage
  | .ok input => .invoke input
  | .error refusal => .settled (refused refusal.message)

theorem run_of_convert {contract : Value} (hrun : Run op req (.convert contract)) :
    Run op req (.ofRead ((op.request contract).mapError .unreadable)) := by
  cases hread : op.request contract with
  | ok input => exact hrun.tail (.convert hread)
  | error e => exact hrun.tail (.unreadable hread)

/-- The sections that are left are all accepted, or the first violated one among them ends the run. -/
theorem run_of_decode {accepted : Table Value} {left : List (SectionRules NamedType)}
    (hrun : Run op req (.decode accepted left)) :
    Run op req (.ofRead (op.convert (contractOf accepted left req))) := by
  induction left generalizing accepted with
  | nil => exact run_of_convert (hrun.tail .gather)
  | cons s left ih =>
      have hvalidate : Run op req (.validate accepted s (s.decode req) left) := hrun.tail .decode
      by_cases hvalid : s.Holds req
      · rw [contractOf, SectionRules.decodeValid_eq_ok.2 ⟨hvalid, rfl⟩]
        exact ih (hvalidate.tail (.accept hvalid))
      · rw [contractOf, SectionRules.decodeValid_of_not_holds hvalid]
        exact hvalidate.tail (.reject hvalid)

theorem run_ofRead : Run op req (.ofRead (op.read req)) := by
  have hstart : Run op req (op.start req) := .refl
  rw [start] at hstart
  cases hmode : op.mode with
  | typed =>
      rw [hmode] at hstart
      rw [read_typed hmode]
      exact run_of_decode hstart
  | passThrough =>
      rw [hmode] at hstart
      rw [read_passThrough hmode]
      exact run_of_convert hstart

/-- Business code is invoked with what the request is read as, and not at all if it cannot be read. -/
theorem run_invoke_iff {input : Value} : Run op req (.invoke input) ↔ op.read req = .ok input := by
  constructor
  · exact Run.known
  · intro hread
    have hrun : Run op req (.ofRead (op.read req)) := run_ofRead
    rw [hread] at hrun
    exact hrun

theorem run_handler : Run op req (.settled (op.handler req)) := by
  cases hread : op.read req with
  | error refusal =>
      have hrun : Run op req (.ofRead (op.read req)) := run_ofRead
      rw [hread] at hrun
      rw [handler_of_error hread]
      exact hrun
  | ok input =>
      have hinvoke : Run op req (.respond (op.business input)) := (run_invoke_iff.2 hread).tail .invoke
      rw [handler_of_ok hread]
      exact hinvoke.tail (.respond (responds_respond _))

theorem run_settled_iff {r : Reaction} : Run op req (.settled r) ↔ op.handler req = r := by
  constructor
  · exact Run.known
  · rintro rfl
    exact run_handler

theorem status_of_answered {answer : Response} (h : op.handler req = .answered answer) :
    100 ≤ answer.status ∧ answer.status ≤ 599 := by
  cases hread : op.read req with
  | error refusal =>
      cases (handler_of_error hread).symm.trans h
      simp [Response.text]
  | ok input =>
      have hstatus := (responds_respond (op.business input)).status
      rw [← handler_of_ok hread, h] at hstatus
      exact hstatus

theorem dispatch_of_handler {d : Dispatcher} {found : Match}
    (h : d.handlers.get? found.route.endpoint = some op.handler) :
    ∃ answer, d.dispatch found req = some (answer, Dispatcher.routed found req)
      ∧ (100 ≤ answer.status ∧ answer.status ≤ 599)
      ∧ (op.handler (Dispatcher.routed found req) = .answered answer
        ∨ ∃ message, op.handler (Dispatcher.routed found req) = .panicked message
            ∧ answer = .text 500 (message.getD "unknown panic")) := by
  rw [Dispatcher.dispatch, h]
  cases hreaction : op.handler (Dispatcher.routed found req) with
  | answered answer =>
      exact ⟨answer, by rw [Option.map_some, hreaction, Dispatcher.answerOf], status_of_answered hreaction, .inl rfl⟩
  | panicked message =>
      refine ⟨_, by rw [Option.map_some, hreaction, Dispatcher.answerOf], ?_, .inr ⟨message, rfl, rfl⟩⟩
      simp [Response.text]

end Runs

def withBusiness (op : Operation) (f : Value → Outcome) : Operation := { op with business := f }

theorem read_withBusiness (op : Operation) (f : Value → Outcome) (req : Request) :
    (op.withBusiness f).read req = op.read req := by
  rfl

/-- The handler of an operation settles on what a run of its stages ends with. Business code is invoked with
what the request is read as: a request that is not read is refused whatever the business code, and of any
other request the answer is that to one outcome. Every answer has a status, also that to a panic. -/
theorem handler_runs_stages (op : Operation) (req : Request) :
    (∀ r, Run op req (.settled r) ↔ op.handler req = r)
      ∧ (∀ input, Run op req (.invoke input) ↔ op.read req = .ok input)
      ∧ (∀ refusal, op.read req = .error refusal →
          ∀ f, (op.withBusiness f).handler req = .answered (.text 400 refusal.message))
      ∧ (∀ input, op.read req = .ok input →
          (∀ f, Responds (f input) ((op.withBusiness f).handler req))
            ∧ ∀ f g, f input = g input → (op.withBusiness f).handler req = (op.withBusiness g).handler req)
      ∧ (∀ answer, op.handler req = .answered answer → 100 ≤ answer.status ∧ answer.status ≤ 599)
      ∧ ∀ (d : Dispatcher) (found : Match), d.handlers.get? found.route.endpoint = some op.handler →
          ∃ answer, d.dispatch found req = some (answer, Dispatcher.routed found req)
            ∧ (100 ≤ answer.status ∧ answer.status ≤ 599)
            ∧ (op.handler (Dispatcher.routed found req) = .answered answer
              ∨ ∃ message, op.handler (Dispatcher.routed found req) = .panicked message
                  ∧ answer = .text 500 (message.getD "unknown panic")) := by
  have hok {input : Value} (hread : op.read req = .ok input) (f : Value → Outcome) :
      (op.withBusiness f).handler req = respond (f input) :=
    handler_of_ok ((read_withBusiness op f req).trans hread)
  refine ⟨fun _ => run_settled_iff, fun _ => run_invoke_iff, ?_, ?_, fun _ => status_of_answered,
    fun _ _ => dispatch_of_handler⟩
  · intro refusal hread f
    exact handler_of_error ((read_withBusiness op f req).trans hread)
  · intro input hread
    refine ⟨fun f => ?_, fun f g hsame => ?_⟩
    · rw [hok hread]
      exact responds_respond _
    · rw [hok hread, hok hread, hsame]

def lockedUser : Operation where
  sections := [⟨.paths, [{ key := "id", check := .integer }]⟩]
  business := fun _ => .failed (.thrown " 409 : locked: try later ")

theorem locked_user_answered :
    let found (id : String) : Match := ⟨⟨.get, "/user/:id"⟩, [("id", id)]⟩
    let req (id : String) : Request := Dispatcher.routed (found id) {}
    let d : Dispatcher := { handlers := .ofList [("GET /user/:id", lockedUser.handler)] }
    (∀ f, (lockedUser.withBusiness f).handler (req "x") = .answered (.text 400 "id must be an integer number"))
      ∧ lockedUser.read (req "7") = .ok (.obj [("paths", .obj [("id", .int 7)])])
      ∧ lockedUser.handler (req "7") = .answered (.text 409 "locked: try later")
      ∧ (lockedUser.withBusiness fun _ => .panicked none).handler (req "7")
        = (lockedUser.withBusiness fun v => if v.isObject then .panicked none else .returned v).handler (req "7")
      ∧ d.dispatch (found "7") {} = some (.text 409 "locked: try later", req "7") := by
  intro found req d
  have hrefused : lockedUser.read (req "x") = .error (.invalid ⟨.paths, "id must be an integer number"⟩) := by rfl
  have hread : lockedUser.read (req "7") = .ok (.obj [("paths", .obj [("id", .int 7)])]) := by rfl
  have hheld : d.handlers.get? (found "7").route.endpoint = some lockedUser.handler := by rfl
  obtain ⟨-, -, hsame, -⟩ := handler_runs_stages lockedUser (req "x")
  obtain ⟨-, -, -, hother, -⟩ := handler_runs_stages lockedUser (req "7")
  obtain ⟨-, -, -, -, -, hdispatch⟩ := handler_runs_stages lockedUser {}
  obtain ⟨hresponds, hcongr⟩ := hother _ hread
  have hlocked : lockedUser.handler (req "7") = .answered (.text 409 "locked: try later") :=
    (hresponds lockedUser.business).eq_respond.symm
  obtain ⟨answer, hanswer, -, hreaction⟩ := hdispatch d (found "7") hheld
  refine ⟨hsame _ hrefused, hread, hlocked, hcongr _ _ rfl, ?_⟩
  rcases hreaction with hanswered | ⟨message, hpanicked, -⟩
  · cases hlocked.symm.trans hanswered
    exact hanswer
  · cases hlocked.symm.trans hpanicked

end Operation

end ApiContracts
