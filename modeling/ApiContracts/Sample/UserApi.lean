import ApiContracts.App.Registry
import ApiContracts.Compile.RequestType

/-!
# A sample API of users

Three endpoints with the types that they name and the business code behind them. The contracts come from the description, so the rules that a request meets are the rules that the compiler emits.
-/

namespace ApiContracts.Sample

open Json Compile

/-- A fault that business code answers with: a code, and a body that holds it. -/
structure ErrorParam where
  code : Nat
  message : Option String := none
  data : Value := .str ""

def ErrorParam.toValue (e : ErrorParam) : Value :=
  .object ([("code", .int e.code)] ++ (e.message.map fun m => ("message", Value.str m)).toList ++ [("data", e.data)])

def ErrorParam.outcome (e : ErrorParam) : Outcome := .failed (.structured e.code e.toValue)

namespace UserApi

def types : Declarations :=
  [("Role", .choice ["admin", "member"]),
    ("Profile", .record { name := "Profile", fields := [⟨"bio", .text, none⟩] }),
    ("User", .record
      { name := "User"
        fields := [⟨"id", .integer, none⟩, ⟨"name", .text, none⟩, ⟨"role", .named "Role", none⟩,
          ⟨"tags", .list .text, some (.arr [])⟩] })]

def lookups : Lookups where
  models := .ofList [("Role", "./model/enum/Role"), ("User", "./model/table/User")]
  schemas := .ofList [("Profile", "./schema/Profile")]

def idField : Field := { key := "id", type := .native "integer" }

def getUser : Endpoint where
  verb := .get
  path := "/user/:id"
  paths := some [idField]
  headers := some [{ key := "x-tenant", type := .native "string", required := false }]
  queries := some [{ key := "tags", type := .native "string", required := false, array := true }]
  returns := { type := .table "User" }

def postUser : Endpoint where
  verb := .post
  path := "/user"
  body := some
    [{ key := "name", type := .native "string" }, { key := "role", type := .enum "Role" },
      { key := "profile", type := .schema "Profile", required := false },
      { key := "type", type := .native "string", required := false }]
  returns := { type := .table "User", required := false }

def deleteUser : Endpoint where
  verb := .delete
  path := "/user/:id"
  paths := some [idField]
  returns := { type := .native "boolean" }

/-- A member of a section of a request; null if it is missing. -/
def field (req : Value) (part : Section) (key : String) : Value := ((req.member? part.name).bind (·.member? key)).getD .null

def userId (req : Value) : Int :=
  match field req .paths "id" with
  | .int n => n
  | _ => 0

def user (id : Int) (name role tags : Value) : Value :=
  .object [("id", .int id), ("name", name), ("role", role), ("tags", tags)]

/-- A value, or another in place of null. -/
def orElse (v other : Value) : Value := if v.isNull then other else v

/-- Finds the user seven; every other id shows one way to fail. -/
def findUser (req : Value) : Outcome :=
  let id := userId req
  if id = 7 then
    .returned (user id (orElse (field req .headers "x-tenant") (.str "anonymous")) (.str "member")
      (orElse (field req .query "tags") (.arr [])))
  else if id = 42 then ErrorParam.outcome { code := 42 }
  else if id = 409 then .failed (.thrown "409: conflict")
  else if 100 ≤ id ∧ id ≤ 999 then ErrorParam.outcome { code := id.toNat, data := .str "coded" }
  else if id < 0 then ErrorParam.outcome { code := 422, data := .arr [.int id] }
  else ErrorParam.outcome { code := 404, message := some "no such user" }

/-- Answers the user that would be stored; a ghost is not. -/
def addUser (req : Value) : Outcome :=
  let body := field req .body
  match body "type" with
  | .str "ghost" => .returned .null
  | _ =>
    let tags := match (body "profile").member? "bio" with
      | some bio => [bio]
      | none => []
    .returned (user 1 (body "name") (body "role") (.arr tags))

def removeUser (req : Value) : Outcome := .returned (.bool (userId req = 7))

def operations : List (Endpoint × (Value → Outcome)) := [(getUser, findUser), (postUser, addUser), (deleteUser, removeUser)]

/-- The contracts with their business code; the description is one that the compiler accepts. -/
def contracts : List (Contract × (Value → Outcome)) :=
  operations.filterMap fun (e, business) => (Contract.build? lookups {} e).toOption.map fun c => (c, business)

def requestContract (key : String) : Option (List (SectionRules NamedType)) :=
  (contracts.find? fun (c, _) => c.endpoint == key).map fun (c, _) => c.checks types

/-- The endpoints by key, each with its operation. -/
def implementations : List (String × Operation) :=
  contracts.map fun (c, business) => (c.endpoint, c.operation types business)

/-- All endpoints published, without middleware. -/
def registry : Registry :=
  implementations.foldl
    (fun g (key, op) =>
      match EndpointKey.ofText key with
      | .ok k => g.publishAll (Registry.implementing k op.handler)
      | .error _ => g)
    {}

end UserApi

end ApiContracts.Sample
