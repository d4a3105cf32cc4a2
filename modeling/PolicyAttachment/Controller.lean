import PolicyAttachment.Cluster
import PolicyAttachment.CommandLine
import PolicyAttachment.Deployment
import PolicyAttachment.Session
import PolicyAttachment.Writer

/-!
# The controller

One instance of the controller from its start until everything there is has been dealt with. It
makes sure that the lease exists and competes for it, finds out which kinds are served, takes in all
objects of those kinds, and writes the statuses that follow if it holds the lease.
-/

namespace PolicyAttachment
set_option autoImplicit false

/-- Why the controller does not start. -/
inductive StartError where
  | noHostname
  | noDeployment (ns name : String)
  | anonymousDeployment
  | managerTooLong
  | unsendable (error : InvalidUri)
  | unreadableReply
  | noLease
  | unreadableLease
  | unsendableClaim (error : InvalidUri)
  | leaseWithoutVersion
  | leaseWithoutTerms
deriving DecidableEq, Repr

def StartError.message : StartError → String
  | noHostname => "Failed to fetch \x60HOSTNAME\x60 environment variable"
  | noDeployment ns name => "failed to fetch deployment " ++ ns ++ "/" ++ name
  | anonymousDeployment => "deployment has no name or uid"
  | managerTooLong =>
    "Failed to build request: failed to validate request: "
      ++ "Failed to validate PatchParams::field_manager!"
  | unsendable error => "Failed to build request: failed to build request: " ++ error.message
  | unreadableReply => "Error deserializing response"
  | noLease =>
    "failed to get lease: ApiError: notfound: NotFound (ErrorResponse \x7b status: \"Failure\", "
      ++ "message: \"notfound\", reason: \"NotFound\", code: 404 \x7d)"
  | unreadableLease => "failed to get lease: Error deserializing response"
  | unsendableClaim error =>
    "failed to get lease: Failed to build request: failed to build request: " ++ error.message
  | leaseWithoutVersion => "lease does not have a resource version"
  | leaseWithoutTerms => "lease does not have a spec"

namespace Controller

/-- How many changes the queue holds. -/
def queueCapacity : Nat := 10000

def deploymentUri (s : Settings) : String :=
  Cluster.deploymentPath s.controlPlaneNs s.deploymentName

def leaseUri (s : Settings) : String :=
  "/apis/" ++ Lease.apiVersion ++ "/namespaces/" ++ s.controlPlaneNs ++ "/leases/" ++ Lease.name

def leaseBody (metadata spec : Json.Members) : Json :=
  .obj ([("apiVersion", .str Lease.apiVersion), ("kind", .str "Lease"),
    ("metadata", .obj metadata)] ++ if spec.isEmpty then [] else [("spec", .obj spec)])

/-- Creates the lease, which belongs to `owner`. Version zero says that nothing is done if it is
there already. -/
def createLease (s : Settings) (owner : Json) : Json :=
  leaseBody
    [("labels", .obj [("app.kubernetes.io/name", .str s.deploymentName)]),
      ("name", .str Lease.name), ("namespace", .str s.controlPlaneNs),
      ("ownerReferences", .arr [owner]), ("resourceVersion", .str "0")]
    []

/-- Renews the claim to the lease read at `version`. -/
def renewLease (version : String) (now : Instant) : Json :=
  leaseBody [("resourceVersion", .str version)]
    [("renewTime", .str now.formatMicros), ("leaseDurationSeconds", .int Lease.durationSeconds)]

/-- Claims the lease read at `version` for `hostname`. -/
def acquireLease (version hostname : String) (transition : UInt16) (now : Instant) : Json :=
  leaseBody [("resourceVersion", .str version)]
    [("acquireTime", .str now.formatMicros), ("renewTime", .str now.formatMicros),
      ("holderIdentity", .str hostname), ("leaseDurationSeconds", .int Lease.durationSeconds),
      ("leaseTransitions", .int transition.toNat)]

/-- What a start has led to so far: the requests made, and the result or the reason to stop. -/
abbrev Progress (α : Type) := List Request × Except StartError α

/-- Makes the request `make` of an address and goes on with `next`, or stops with the error that
`refused` makes of an address that cannot be sent. -/
def sending {α : Type} (text : String) (refused : InvalidUri → StartError)
    (make : String → Request) (next : String → Progress α) : Progress α :=
  match Uri.sent? text with
  | .error e => ([], .error (refused e))
  | .ok uri =>
    let (requests, result) := next uri
    (make uri :: requests, result)

/-- Our claim once the patch made for it is answered. The answer has to tell the version of the
lease, which it does unless it is a fixed one. -/
def claimed (c : Cluster) (claim : Claim) : Except StartError Claim :=
  match c.leaseReply with
  | none => .ok claim
  | some text =>
    match ((Json.scan? text).bind Lease.ofJson?).bind Lease.version with
    | some _ => .ok claim
    | none => .error .leaseWithoutVersion

/-- The claim to the lease after dealing with it as it was read. -/
def competeFor (s : Settings) (hostname : String) (now : Instant) (c : Cluster) (lease : Lease) :
    Progress Claim :=
  match lease.terms, lease.version with
  | none, _ => ([], .error .leaseWithoutTerms)
  | some _, none => ([], .error .leaseWithoutVersion)
  | some terms, some version =>
    let ours : Claim := ⟨hostname, some (now.addSeconds Lease.durationSeconds)⟩
    let claiming := fun force type body =>
      sending (leaseUri s ++ Request.patchQuery force "kubert") .unsendableClaim
        (.patch · type body) fun _ => ([], claimed c ours)
    match LeaseMove.of hostname terms now with
    | .keep claim => ([], .ok claim)
    | .renew => claiming false .strategicMerge (renewLease version now)
    | .acquire transition => claiming true .apply (acquireLease version hostname transition now)

/-- Reads the lease and deals with it. -/
def readLease (s : Settings) (hostname : String) (now : Instant) (c : Cluster) : Progress Claim :=
  sending (leaseUri s) .unsendableClaim .get fun _ =>
    match c.lease with
    | none => ([], .error .noLease)
    | some lease =>
      match Lease.ofJson? lease with
      | none => ([], .error .unreadableLease)
      | some lease => competeFor s hostname now c lease

/-- Whether the answer to a patch of the lease reads, and the lease after it. -/
def patchLease (c : Cluster) (body : Json) : Bool × Option Json :=
  match c.leaseReply with
  | some text => (((Json.scan? text).bind Lease.ofJson?).isSome, c.lease)
  | none =>
    match c.patchedLease? body with
    | none => (true, c.lease)
    | some lease => ((Lease.ofJson? lease).isSome, some lease)

/-- Makes sure that the lease exists, and competes for it. -/
def ensureLease (s : Settings) (owner : Json) (hostname : String) (now : Instant) (c : Cluster) :
    Progress Claim :=
  if Request.maxManagerBytes < s.deploymentName.utf8ByteSize then ([], .error .managerTooLong)
  else
    let body := createLease s owner
    sending (leaseUri s ++ Request.patchQuery false s.deploymentName) .unsendable
      (.patch · .apply body) fun _ =>
        let (reads, lease) := patchLease c body
        if reads then readLease s hostname now { c with lease }
        else ([], .error .unreadableReply)

/-- The start of an instance up to its claim to the lease. -/
def start (s : Settings) (hostname : Option String) (now : Instant) (c : Cluster) :
    Progress Claim :=
  match hostname with
  | none => ([], .error .noHostname)
  | some hostname =>
    let missing := StartError.noDeployment s.controlPlaneNs s.deploymentName
    sending (deploymentUri s) (fun _ => missing) .get fun uri =>
      match (c.deployment? uri).bind Deployment.ofJson? with
      | none => ([], .error missing)
      | some deployment =>
        match deployment.ownerReference? with
        | none => ([], .error .anonymousDeployment)
        | some owner => ensureLease s owner hostname now c

/-- The requests that find out whether a kind is served. Services always are. -/
def discovery : List Request :=
  (WatchedKind.all.filter (· != .service)).map fun kind => .get ("/apis/" ++ kind.apiVersion)

/-- The kinds that are watched. -/
def watched (c : Cluster) : List WatchedKind :=
  WatchedKind.all.filter fun kind => kind == .service || c.serves kind

/-- The objects that an instance takes in, kind by kind. A kind some object of which does not read
or has no namespace or name yields none. -/
def objects (c : Cluster) : List WatchedObject :=
  (watched c).flatMap fun kind => (c.list? kind).getD []

/-- Takes in one object, and writes the statuses that follow. -/
def takeIn (now : Instant) (state : Session × Writer × List Request) (object : WatchedObject) :
    Session × Writer × List Request :=
  let (session, writer, requests) := state
  match session.step now (.event (.applied object)) with
  | .error _ => state
  | .ok session =>
    let (changes, session) := session.drain
    let (writer, requests) := changes.foldl (fun (writer, requests) change =>
      let (request, writer) := Writer.write writer (session.leads now) change.toPatch .refused
      (writer, requests ++ request.toList)) (writer, requests)
    (session, writer, requests)

/-- The patches that an instance with this claim sends. -/
def patches (s : Settings) (hostname : String) (now : Instant) (claim : Claim) (c : Cluster) :
    List Request :=
  let session := Session.start hostname claim ⟨s.controllerName, s.overflow⟩ queueCapacity
  ((objects c).foldl (takeIn now) (session, Writer.start s.patchTimeout, [])).2.2

/-- What an instance did. -/
structure Run where
  failure : Option StartError
  /-- The requests before the first watch. -/
  requests : List Request
  watched : List WatchedKind
  patches : List Request

/-- A run of an instance, at a standing clock. -/
def run (s : Settings) (hostname : Option String) (now : Instant) (c : Cluster) : Run :=
  match start s hostname now c with
  | (requests, .error e) => { failure := some e, requests, watched := [], patches := [] }
  | (requests, .ok claim) =>
    { failure := none
      requests := requests ++ discovery
      watched := watched c
      patches := patches s (hostname.getD "") now claim c }

end Controller
end PolicyAttachment
