import PolicyAttachment.Spec.TargetRef

/-!
# Session affinity policies

A policy that keeps the requests of one session on one endpoint by a cookie with a lifetime of at
most two weeks. The affinity settings live beside the target reference.
-/

namespace PolicyAttachment
set_option autoImplicit false

/-- A cookie that the load balancer generates. -/
structure GeneratedCookie where
  cookieTtlSeconds : Option Int
deriving DecidableEq, Repr, Inhabited

namespace GeneratedCookie

def toJson (c : GeneratedCookie) : Json :=
  .obj [("cookieTtlSeconds", Json.ofOption .int c.cookieTtlSeconds)]

def ofJson? (j : Json) : Option GeneratedCookie := do
  let members ← j.members?
  let cookieTtlSeconds ← members.optional "cookieTtlSeconds" Json.int64?
  some { cookieTtlSeconds }

end GeneratedCookie

/-- What a session affinity policy asks for. -/
structure SessionAffinityPolicySpec where
  cookie : Option GeneratedCookie
  targetRef : TargetRef
deriving DecidableEq, Repr

namespace SessionAffinityPolicySpec

def toJson (s : SessionAffinityPolicySpec) : Json :=
  .obj (Json.given "statefulGeneratedCookie" GeneratedCookie.toJson s.cookie
    ++ [("targetRef", s.targetRef.toJson)])

/-- Whose a member is shows only when all but the target have been taken in, so these have to be
legible. -/
def ofJson? (j : Json) : Option SessionAffinityPolicySpec := do
  let members ← j.members?
  guard (members.legibleExcept ["targetRef"])
  let cookie ← members.optional "statefulGeneratedCookie" GeneratedCookie.ofJson?
  let targetRef ← members.required "targetRef" TargetRef.ofJson?
  some { cookie, targetRef }

def validate (s : SessionAffinityPolicySpec) : Except InvalidSpec Unit := do
  s.targetRef.requireKind [.service, .serviceImport, .httpRoute]
    "Service, ServiceImport or HTTPRoute"
  match s.cookie with
  | some cookie =>
    Spec.requireRange "statefulGeneratedCookie.cookieTtlSeconds" cookie.cookieTtlSeconds 0 1209600
  | none => .ok ()

end SessionAffinityPolicySpec
end PolicyAttachment
