import PolicyAttachment.Proofs.Session.Spelling
import PolicyAttachment.Proofs.Writer.Address

/-!
# What becomes of the changes that are enqueued

The writer finds the kind of every change that any run puts into the queue. While its instance holds the
lease it makes one patch of each and counts it by what comes of it; otherwise it drops the change and
counts that. Only the address stands in the way: it is put together from names as they are, so it is one
that can be sent, and leads to the object that the change is about, for segments of a path. See
`Session.Logged.writes_enqueued`.
-/

namespace PolicyAttachment
set_option autoImplicit false

namespace WriterTally

/-- Every patch that was taken out of the queue was dropped or counted by what came of it. -/
def Balanced (t : WriterTally) : Prop :=
  t.dequeued = t.skipped + t.succeeded + t.conflict + t.failed + t.timedOut

/-- One more patch was taken out of the queue. -/
def take (t : WriterTally) : WriterTally := { t with dequeued := t.dequeued + 1 }

/-- One more patch was dropped for want of the lease. -/
def skip (t : WriterTally) : WriterTally := { t with skipped := t.skipped + 1 }

variable {t : WriterTally}

/-- A patch that is taken and dropped keeps the balance. -/
theorem Balanced.skip (h : t.Balanced) : t.take.skip.Balanced := by
  simp only [Balanced, WriterTally.take, WriterTally.skip] at h ⊢
  omega

theorem Balanced.count (h : t.Balanced) (outcome : Outcome) : (t.take.count outcome).Balanced := by
  cases outcome <;>
    (simp only [Balanced, WriterTally.take, WriterTally.count] at h ⊢; omega)

end WriterTally

/-- The name of an object as its document gives it, in its metadata if not at the top. -/
def Json.givenName? (j : Json) : Option String :=
  ((j.member? "name").or ((j.member? "metadata").bind (Json.member? "name"))).bind Json.string?

namespace StatusChange

/-- The namespace of the policy or target that a change is about. -/
def ns : StatusChange → String
  | policy _ id _ _ => id.ns
  | ancestor _ target _ => target.ns

/-- The name of the policy or target that a change is about. -/
def name : StatusChange → String
  | policy _ id _ _ => id.name
  | ancestor _ target _ => target.name

/-- Statuses of policies are merged into them, and conditions on targets are applied. -/
def form : StatusChange → PatchType
  | policy _ _ _ _ => .merge
  | ancestor _ _ _ => .apply

/-- Applied conditions are forced. -/
def isForced : StatusChange → Bool
  | policy _ _ _ _ => false
  | ancestor _ _ _ => true

/-- Where a change is sent, if it is about an object of the kind. -/
def address (change : StatusChange) (kind : WatchedKind) : String :=
  Uri.statusUri kind change.ns change.name change.isForced

/-- The writer takes the change for one about an object of the kind, and so does the change itself. -/
structure IsFor (change : StatusChange) (kind : WatchedKind) : Prop where
  known : StatusPatch.target? change.toPatch.id = some kind
  /-- Policies are written as what they are, conditions go to Services and Gateways. -/
  about : match change with
    | .policy policyKind _ _ _ => kind = .policy policyKind
    | .ancestor _ _ _ => kind = .service ∨ kind = .gateway
  apiVersion : change.toPatch.body.member? "apiVersion" = some (.str kind.apiVersion)
  kind : change.toPatch.body.member? "kind" = some (.str kind.name)
  name : change.toPatch.body.givenName? = some change.name

variable {change : StatusChange} {kind : WatchedKind}

/-- A status is for a policy of its kind. -/
theorem isFor_policy (kind : PolicyKind) (id : PolicyId) (version : Option String)
    (status : WrittenStatus) : (policy kind id version status).IsFor (.policy kind) where
  known := by
    show StatusPatch.target? ⟨id.ns, policyGroup, kind.name, id.name⟩ = _
    rw [StatusPatch.target?, PolicyKind.ofName?_name]
    exact if_pos rfl
  about := rfl
  apiVersion := rfl
  kind := rfl
  name := rfl

/-- A condition for a target that is properly spelled is for a Service or a Gateway. -/
theorem IsSpelled.exists_isFor (h : change.IsSpelled) : ∃ kind, change.IsFor kind := by
  cases change with
  | policy kind id version status => exact ⟨_, isFor_policy kind id version status⟩
  | ancestor apiVersion target condition =>
    obtain ⟨carries, spelled⟩ := h
    obtain ⟨group, kind, ns, name⟩ := target
    rcases Target.kind_of_apiVersion? carries spelled with ⟨hg, hk, rfl⟩ | ⟨hg, hk, rfl⟩
    · cases hg
      cases hk
      exact ⟨.service, { known := rfl, about := .inl rfl, apiVersion := rfl, kind := rfl, name := rfl }⟩
    · cases hg
      cases hk
      exact ⟨.gateway, { known := rfl, about := .inr rfl, apiVersion := rfl, kind := rfl, name := rfl }⟩

/-- The request for a change is for its address, if that can be sent. -/
theorem request?_toPatch (change : StatusChange) (kind : WatchedKind) :
    change.toPatch.request? kind =
      match Uri.sent? (change.address kind) with
      | .ok uri => some (.patch uri change.form change.toPatch.body)
      | .error _ => none := by
  cases change <;> rfl

end StatusChange

/-- A change that is taken out of the queue, with the claim to the lease at the time and what comes back
if it is sent. -/
structure Delivery where
  change : StatusChange
  claim : Claim
  now : Instant
  reply : Reply

namespace Writer

/-- What the writer of `hostname` does with a delivery. -/
def deliver (hostname : String) (w : Writer) (d : Delivery) : Option Request × Writer :=
  w.write (d.claim.isCurrentFor hostname d.now) d.change.toPatch d.reply

/-- The writer after some deliveries. -/
def deliverAll (hostname : String) (w : Writer) (ds : List Delivery) : Writer :=
  ds.foldl (fun w d => (w.deliver hostname d).2) w

/-- The deliveries, each with the writer that it finds. -/
def turns (hostname : String) : Writer → List Delivery → List (Writer × Delivery)
  | _, [] => []
  | w, d :: ds => (w, d) :: turns hostname (w.deliver hostname d).2 ds

/-- How a delivery fares of a change about an object of the kind: the request that is made, and how it
is counted. -/
structure Handles (w : Writer) (hostname : String) (kind : WatchedKind) (d : Delivery) : Prop where
  /-- Without the lease no request is made. -/
  dropped : d.claim.isCurrentFor hostname d.now = false →
    w.deliver hostname d = (none, { w with tally := w.tally.take.skip })
  /-- With the lease, the change is sent if its address can be. -/
  sent : d.claim.isCurrentFor hostname d.now = true → w.timeout ≠ 0 →
    ∀ uri, Uri.sent? (d.change.address kind) = .ok uri →
      w.deliver hostname d = (some (.patch uri d.change.form d.change.toPatch.body),
        { w with tally := w.tally.take.count (d.reply.outcome kind w.timeout) })
  /-- No request can be made of any other address. -/
  unsendable : d.claim.isCurrentFor hostname d.now = true →
    ∀ error, Uri.sent? (d.change.address kind) = .error error →
      w.deliver hostname d = (none, { w with tally := w.tally.take.count .failed })
  /-- Nor is there one if answers may take no time. -/
  late : d.claim.isCurrentFor hostname d.now = true → w.timeout = 0 →
    ∀ uri, Uri.sent? (d.change.address kind) = .ok uri →
      w.deliver hostname d = (none, { w with tally := w.tally.take.count .timedOut })

variable {hostname : String} {w : Writer} {d : Delivery} {kind : WatchedKind} {ds : List Delivery}

/-- The writer handles what is for an object of a kind. -/
theorem handles_of_isFor (isFor : d.change.IsFor kind) : w.Handles hostname kind d where
  dropped no := by
    rw [deliver, write, no]
    rfl
  sent leads soon uri hu := by
    have request := d.change.request?_toPatch kind
    rw [hu] at request
    rw [deliver, write, leads, if_pos rfl]
    simp only [isFor.known, request, if_neg soon]
    rfl
  unsendable leads error he := by
    have request := d.change.request?_toPatch kind
    rw [he] at request
    rw [deliver, write, leads, if_pos rfl]
    simp only [isFor.known, request]
    rfl
  late leads late uri hu := by
    have request := d.change.request?_toPatch kind
    rw [hu] at request
    rw [deliver, write, leads, if_pos rfl]
    simp only [isFor.known, request, if_pos late]
    rfl

/-- Every delivery is counted twice, and none changes how long answers may take. -/
theorem Handles.counts (h : w.Handles hostname kind d) :
    (w.deliver hostname d).2.timeout = w.timeout ∧
      (w.tally.Balanced → (w.deliver hostname d).2.tally.Balanced) := by
  cases leads : d.claim.isCurrentFor hostname d.now with
  | false =>
    rw [h.dropped leads]
    exact ⟨rfl, WriterTally.Balanced.skip⟩
  | true =>
    cases hu : Uri.sent? (d.change.address kind) with
    | error error =>
      rw [h.unsendable leads error hu]
      exact ⟨rfl, fun balanced => balanced.count .failed⟩
    | ok uri =>
      by_cases soon : w.timeout = 0
      · rw [h.late leads soon uri hu]
        exact ⟨rfl, fun balanced => balanced.count .timedOut⟩
      · rw [h.sent leads soon uri hu]
        exact ⟨rfl, fun balanced => balanced.count _⟩

/-- Deliveries one after the other keep the balance. -/
theorem balanced_deliverAll (known : ∀ d ∈ ds, ∃ kind, d.change.IsFor kind)
    (balanced : w.tally.Balanced) : (w.deliverAll hostname ds).tally.Balanced := by
  refine List.foldlRecOn (motive := fun w : Writer => w.tally.Balanced) _ _ balanced
    fun w before d hd => ?_
  obtain ⟨kind, isFor⟩ := known d hd
  have handles : w.Handles hostname kind d := handles_of_isFor isFor
  exact handles.counts.2 before

theorem mem_of_mem_turns {x : Writer × Delivery} (h : x ∈ w.turns hostname ds) : x.2 ∈ ds := by
  induction ds generalizing w with
  | nil => nomatch h
  | cons d ds ih =>
    rcases List.mem_cons.1 h with rfl | h
    · exact List.mem_cons_self
    · exact List.mem_cons_of_mem d (ih h)

/-- No delivery changes how long the writer waits. -/
theorem timeout_of_mem_turns (known : ∀ d ∈ ds, ∃ kind, d.change.IsFor kind) {x : Writer × Delivery}
    (h : x ∈ w.turns hostname ds) : x.1.timeout = w.timeout := by
  induction ds generalizing w with
  | nil => nomatch h
  | cons d ds ih =>
    rcases List.mem_cons.1 h with rfl | h
    · rfl
    · obtain ⟨kind, isFor⟩ := known d List.mem_cons_self
      have handles : w.Handles hostname kind d := handles_of_isFor isFor
      rw [ih (fun e he => known e (List.mem_cons_of_mem d he)) h, handles.counts.1]

end Writer

/-- The address leads to the object that the change is about, and unless it is too long it can be sent
as it is. -/
structure StatusChange.Reaches (change : StatusChange) (kind : WatchedKind) : Prop where
  object : Uri.statusAt? (change.address kind) =
    some ⟨kind.apiVersion, kind.plural, change.ns, change.name⟩
  sendable : (change.address kind).utf8ByteSize ≤ Uri.maxBytes →
    Uri.sent? (change.address kind) = .ok (change.address kind)

/-! A policy with one place left in its status, so that the second of its targets shows a condition. -/

namespace Sample

/-- Targets "b" and another, and an entry of ours for "a" that is out of date. -/
def crowdedBy (target : String) : Policy :=
  policy "1" ["b", target] (others 14 ++ [stored ours.text "a"])

/-- The instance that has seen it. -/
def seenCrowded (target : String) : Session :=
  { start with
    tracker := start.tracker.putPolicy (start.moment now) key ((crowdedBy target).facts "ns") }

/-- What was noted up to then. -/
def crowdedLog (target : String) : List Note :=
  start.notes (.event (.applied (.policy (crowdedBy target)))) (seenCrowded target).tracker

theorem logged_crowdedBy (target : String) :
    Session.Logged reporter (crowdedLog target) (seenCrowded target) :=
  .step (.start "h" ⟨"h", none⟩ 100) now (.event (.applied (.policy (crowdedBy target)))) rfl

/-- The condition on a Service. -/
def shownOn (target : String) (condition : Option Condition) : StatusChange :=
  .ancestor "v1" (service target) condition

theorem exists_shownOn (target : String)
    (shown : flagsOf (service target) (changesIn (crowdedLog target)) ≠ []) :
    ∃ condition, shownOn target condition ∈ changesIn (crowdedLog target) := by
  obtain ⟨condition, hm⟩ := List.exists_mem_of_ne_nil _ shown
  obtain ⟨change, hc, picked⟩ := List.mem_filterMap.1 hm
  have spelled := (logged_crowdedBy target).spelled.2 change hc
  cases change with
  | policy kind id version status => cases picked
  | ancestor apiVersion t condition =>
    simp only [Channel.flag, Option.ite_none_right_eq_some, Option.some.injEq] at picked
    obtain ⟨rfl, rfl⟩ := picked
    have covers : GroupKind.service.covers "" "Service" = true := by decide +kernel
    have carries : (service target).apiVersion? = some "v1" := if_pos covers
    obtain rfl := Option.some.inj (spelled.1.symm.trans carries)
    exact ⟨condition, hc⟩

theorem isFor_shownOn {target : String} {condition : Option Condition} :
    (shownOn target condition).IsFor .service where
  known := rfl
  about := .inl rfl
  apiVersion := rfl
  kind := rfl
  name := rfl

/-- A delivery while "h" holds the lease. -/
def held (change : StatusChange) (reply : Reply) : Delivery := ⟨change, ⟨"h", none⟩, now, reply⟩

end Sample

namespace Session

variable {reporter : Reporter} {log : List Note} {s : Session}

/-- Whatever changes a run puts into the queue, and whoever holds the lease when they are taken out of
it: each is about an object of one kind that the writer and the change agree on, and is handled as such.
Where its namespace and name are segments of a path, it reaches that object. All of them are accounted
for. -/
theorem Logged.writes_enqueued (logged : Logged reporter log s) (hostname : String) (timeout : Nat)
    {ds : List Delivery} (enqueued : ∀ d ∈ ds, d.change ∈ changesIn log) :
    ((Writer.start timeout).deliverAll hostname ds).tally.Balanced ∧
    ∀ w d, (w, d) ∈ (Writer.start timeout).turns hostname ds → w.timeout = timeout ∧
      ∃ kind, d.change.IsFor kind ∧ w.Handles hostname kind d ∧
        (Uri.IsSegment d.change.ns → Uri.IsSegment d.change.name → d.change.Reaches kind) := by
  have known : ∀ d ∈ ds, ∃ kind, d.change.IsFor kind :=
    fun d hd => (logged.spelled.2 d.change (enqueued d hd)).exists_isFor
  refine ⟨Writer.balanced_deliverAll known rfl, ?_⟩
  intro w d hd
  obtain ⟨kind, isFor⟩ := known d (Writer.mem_of_mem_turns hd)
  refine ⟨Writer.timeout_of_mem_turns known hd, kind, isFor, Writer.handles_of_isFor isFor, ?_⟩
  intro hns hname
  exact ⟨hns.statusAt?_statusUri hname _, hns.sent?_statusUri hname⟩

/-- The condition on "c" is sent to "c". -/
theorem writes_enqueued_crowded : ∃ condition,
    Sample.shownOn "c" condition ∈ changesIn (Sample.crowdedLog "c") ∧ ∃ uri body w,
      (Writer.start 5000).deliver "h" (Sample.held (Sample.shownOn "c" condition) .hang) =
        (some (.patch uri .apply body), w) ∧
      Uri.statusAt? uri = some ⟨"v1", "services", "ns", "c"⟩ ∧ w.tally.Balanced := by
  obtain ⟨condition, hc⟩ := Sample.exists_shownOn "c" (by decide +kernel)
  have enqueued : ∀ d ∈ [Sample.held (Sample.shownOn "c" condition) .hang],
      d.change ∈ changesIn (Sample.crowdedLog "c") :=
    List.forall_mem_singleton.2 hc
  obtain ⟨balanced, each⟩ := (Sample.logged_crowdedBy "c").writes_enqueued "h" 5000 enqueued
  obtain ⟨-, kind, isFor, handles, reaches⟩ := each _ _ List.mem_cons_self
  obtain rfl : .service = kind := Option.some.inj (Sample.isFor_shownOn.known.symm.trans isFor.known)
  have segments : Uri.IsSegment "ns" ∧ Uri.IsSegment "c" := by decide +kernel
  have short : (Uri.statusUri .service "ns" "c" true).utf8ByteSize ≤ Uri.maxBytes := by decide +kernel
  have reached := reaches segments.1 segments.2
  have sent := handles.sent rfl (by decide) _ (reached.sendable short)
  rw [Writer.deliverAll, List.foldl_cons, List.foldl_nil, sent] at balanced
  exact ⟨condition, hc, _, _, _, sent, reached.object, balanced⟩

/-- A name with a space makes an address that cannot be sent, one with a slash leads to no object, and
without any time for an answer nothing is sent at all. -/
theorem not_always_written :
    (∃ condition, Sample.shownOn "a b" condition ∈ changesIn (Sample.crowdedLog "a b") ∧ ∀ reply,
      ((Writer.start 5000).deliver "h" (Sample.held (Sample.shownOn "a b" condition) reply)).1 =
        none) ∧
    (∃ condition, Sample.shownOn "a/b" condition ∈ changesIn (Sample.crowdedLog "a/b") ∧ ∀ reply,
      ∃ uri body, ((Writer.start 5000).deliver "h"
          (Sample.held (Sample.shownOn "a/b" condition) reply)).1 = some (.patch uri .apply body) ∧
        Uri.statusAt? uri = none) ∧
    ∃ condition, Sample.shownOn "c" condition ∈ changesIn (Sample.crowdedLog "c") ∧ ∀ reply,
      ((Writer.start 0).deliver "h" (Sample.held (Sample.shownOn "c" condition) reply)).1 = none := by
  have handles : ∀ target condition reply timeout, (Writer.start timeout).Handles "h" .service
      (Sample.held (Sample.shownOn target condition) reply) :=
    fun target condition reply timeout => Writer.handles_of_isFor Sample.isFor_shownOn
  refine ⟨?_, ?_, ?_⟩
  · obtain ⟨condition, hc⟩ := Sample.exists_shownOn "a b" (by decide +kernel)
    refine ⟨condition, hc, fun reply => ?_⟩
    have unsendable : Uri.sent? (Uri.statusUri .service "ns" "a b" true) =
        .error .invalidCharacter := by
      decide +kernel
    rw [(handles "a b" condition reply 5000).unsendable rfl _ unsendable]
  · obtain ⟨condition, hc⟩ := Sample.exists_shownOn "a/b" (by decide +kernel)
    refine ⟨condition, hc, fun reply => ?_⟩
    have sendable : Uri.sent? (Uri.statusUri .service "ns" "a/b" true) =
        .ok (Uri.statusUri .service "ns" "a/b" true) := by
      decide +kernel
    have elsewhere : Uri.statusAt? (Uri.statusUri .service "ns" "a/b" true) = none := by
      decide +kernel
    rw [(handles "a/b" condition reply 5000).sent rfl (by decide) _ sendable]
    exact ⟨_, _, rfl, elsewhere⟩
  · obtain ⟨condition, hc⟩ := Sample.exists_shownOn "c" (by decide +kernel)
    refine ⟨condition, hc, fun reply => ?_⟩
    have sendable : Uri.sent? (Uri.statusUri .service "ns" "c" true) =
        .ok (Uri.statusUri .service "ns" "c" true) := by
      decide +kernel
    rw [(handles "c" condition reply 0).late rfl rfl _ sendable]

end Session
end PolicyAttachment
