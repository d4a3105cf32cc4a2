import PolicyAttachment.Proofs.Session.Follow
import PolicyAttachment.Proofs.Tracker.Again

/-!
# Sharing a policy with other writers

The status of a policy object is written by others too. `SharedPolicy.Run` interleaves their writes
with what happens to a session, which sees some of the versions, and with the delivery of its patches,
which are accepted for the current version only. By `SharedPolicy.Run.keepsOthers_iff` an accepted
patch keeps what others have stored exactly if there was room for it beside our own entries when the
object was last seen; entries of others that find no room in the register are lost on the next write.
-/

namespace PolicyAttachment
set_option autoImplicit false

/-- One version of a policy object, with the entries stored in it. -/
structure Stored where
  version : String
  ancestors : List AncestorStatus

/-- `p` is the policy `ref` in the version `v`, whatever its spec. -/
structure Stored.IsOf (v : Stored) (ref : PolicyKey) (p : Policy) : Prop where
  kind : p.kind = ref.kind
  ns : p.metadata.ns = some ref.id.ns
  name : p.metadata.name = some ref.id.name
  version : p.metadata.resourceVersion = some v.version
  ancestors : p.storedAncestors = ⟨v.ancestors⟩

/-- Seeing a version of the policy is putting its facts. -/
theorem Stored.IsOf.step_eq {v : Stored} {ref : PolicyKey} {p : Policy} (hp : v.IsOf ref p)
    (s : Session) (now : Instant) :
    s.step now (.event (.applied (.policy p))) =
      .ok { s with tracker := s.tracker.putPolicy (s.moment now) ref (p.facts ref.id.ns) } := by
  simp only [Session.step, Tracker.handle, WatchedObject.metadata, hp.ns, hp.name, Except.map,
    Tracker.putObject, hp.kind]

/-- A patch of a policy's status on its way, with the crowd of entries there was when the policy was
last seen before. -/
structure SentPatch where
  version : Option String
  status : WrittenStatus
  crowd : Nat

/-- A session and a policy object that it shares with other writers. -/
structure SharedPolicy where
  session : Session
  current : Stored
  past : List Stored
  patches : List SentPatch
  crowd : Nat

/-- A policy that is seen has a register that was just read, or one that took over what others have. -/
theorem Tracker.register_sighting_cases {tr : Tracker} {ref : PolicyKey} {facts : PolicyFacts}
    {l : List AncestorStatus} (fit : Registrable l) (ancestors : facts.storedAncestors = ⟨l⟩) :
    (tr.policies.get? ref = none ∧ (tr.sighting ref facts).2.register.Sound ∧
      (tr.sighting ref facts).2.register.entries = l.map Entry.ofStatus) ∨
    ∃ old, tr.policies.get? ref = some old ∧ (tr.sighting ref facts).2.register =
      (old.register.takeOver tr.reporter.controller ⟨l⟩).2 := by
  cases hs : tr.policies.get? ref with
  | none =>
    obtain ⟨r, hr, entries, sound⟩ := Register.exists_ofStatus fit.distinct fit.few
    have register : (tr.sighting ref facts).2.register = r := by
      simp only [sighting, hs, PolicyRecord.first, ancestors, hr]
    rw [register]
    exact .inl ⟨rfl, sound, entries⟩
  | some old =>
    refine .inr ⟨old, rfl, ?_⟩
    simp only [sighting, hs, PolicyRecord.seen, ancestors]

namespace SharedPolicy

/-- All versions that there have been, the current one first. -/
def versions (w : SharedPolicy) : List Stored := w.current :: w.past

/-- Stores another version of the object. -/
def store (w : SharedPolicy) (v : Stored) : SharedPolicy :=
  { w with current := v, past := w.versions }

/-- Goes on with the session, and sends what waits in its queue. -/
def goOn (w : SharedPolicy) (ref : PolicyKey) (s : Session) (crowd : Nat) : SharedPolicy :=
  { w with
    session := s.drain.2
    patches := w.patches ++ (statusesOf ref s.drain.1).map fun p => ⟨p.1, p.2, crowd⟩
    crowd }

/-- How many entries the entries of ours in the register, or the stored ones if there is no register
yet, and those of others in `v` are together. -/
def crowdFor (w : SharedPolicy) (ours : ControllerName) (ref : PolicyKey) (v : Stored) : Nat :=
  Entry.crowd ours
    (((w.session.tracker.policies.get? ref).map fun s => s.register.entries).getD
      (v.ancestors.map Entry.ofStatus))
    v.ancestors

/-- Whatever can become of a session that reports as `reporter`, and of the policy `ref`. -/
inductive Run (reporter : Reporter) (ref : PolicyKey) : SharedPolicy → Prop where
  | start (hostname : String) (claim : Claim) (capacity : Nat) (v : Stored)
      (few : v.ancestors.length ≤ maxAncestors)
      (distinct : (v.ancestors.map AncestorStatus.identity).Nodup) :
      Run reporter ref ⟨.start hostname claim reporter capacity, v, [], [], 0⟩
  /-- Others write: they leave our entries as they are, and have at most one per ancestor. -/
  | write {w : SharedPolicy} (run : Run reporter ref w) (v : Stored)
      (fresh : v.version ∉ w.versions.map Stored.version)
      (few : v.ancestors.length ≤ maxAncestors)
      (own : (v.ancestors.filter fun a => a.controllerName == reporter.controller.text).Perm
        (w.current.ancestors.filter fun a => a.controllerName == reporter.controller.text))
      (others : ((v.ancestors.filter fun a => a.controllerName != reporter.controller.text).map
        AncestorStatus.identity).Nodup) :
      Run reporter ref (w.store v)
  /-- A version of the policy is seen. -/
  | observe {w : SharedPolicy} (run : Run reporter ref w) (v : Stored) (hv : v ∈ w.versions)
      (p : Policy) (hp : v.IsOf ref p) (now : Instant) (s : Session)
      (step : w.session.step now (.event (.applied (.policy p))) = .ok s) :
      Run reporter ref (w.goOn ref s (w.crowdFor reporter.controller ref v))
  /-- Anything else happens to the session. -/
  | other {w : SharedPolicy} (run : Run reporter ref w) (o : Occurrence)
      (elsewhere : ¬ Session.Sees ref o) (now : Instant) (s : Session)
      (step : w.session.step now o = .ok s) :
      Run reporter ref (w.goOn ref s w.crowd)
  /-- A patch for the current version is accepted. -/
  | deliver {w : SharedPolicy} (run : Run reporter ref w) (p : SentPatch) (hp : p ∈ w.patches)
      (current : p.version = some w.current.version) (l : List AncestorStatus)
      (hl : p.status.ancestors = some l) (version : String)
      (fresh : version ∉ w.versions.map Stored.version) :
      Run reporter ref (w.store ⟨version, l⟩)

/-- The register of a record mirrors one of the versions, which the record is for. -/
def UpToDate (ours : ControllerName) (versions : List Stored) (crowd : Nat) (s : PolicyRecord) :
    Prop :=
  ∃ v ∈ versions, s.facts.resourceVersion = some v.version ∧
    s.register.Mirrors ours v.ancestors crowd

/-- What every run maintains. -/
structure Consistent (reporter : Reporter) (ref : PolicyKey) (w : SharedPolicy) : Prop where
  tidy : ∀ v ∈ w.versions, Tidy reporter.controller v.ancestors
  names : (w.versions.map Stored.version).Nodup
  waiting : w.session.tracker.queue.waiting = []
  follows : w.session.tracker.Follows reporter ref
    (UpToDate reporter.controller w.versions w.crowd) 0
  patches : ∀ p ∈ w.patches, ∃ s, UpToDate reporter.controller w.versions p.crowd s ∧
    p.version = s.facts.resourceVersion ∧ p.status = s.status ref.kind

section Invariant

open Tracker (Lasting Follows)

variable {reporter : Reporter} {ref : PolicyKey} {w : SharedPolicy} {versions : List Stored}
  {crowd : Nat} {s : PolicyRecord}

theorem UpToDate.mono {ours : ControllerName} (h : UpToDate ours versions crowd s)
    {more : List Stored} (sub : versions ⊆ more) : UpToDate ours more crowd s := by
  obtain ⟨v, hv, version, mirrors⟩ := h
  exact ⟨v, sub hv, version, mirrors⟩

/-- Reviewing and sending leave a register up to date. -/
theorem lasting_upToDate (reporter : Reporter) (ref : PolicyKey) (versions : List Stored)
    (crowd : Nat) : Lasting reporter ref (UpToDate reporter.controller versions crowd) where
  review := by
    rintro tr s now rfl ⟨v, hv, version, mirrors⟩
    refine ⟨v, hv, version, ?_⟩
    cases hk : ref.kind.reportsByAncestor with
    | true => exact mirrors.reviewed (Tracker.reviewed_review tr now mirrors.sound hk)
    | false =>
      rw [(Tracker.review_of_not_reportsByAncestor hk).1]
      exact mirrors
  sent _ h := h

/-- Seeing a version brings the record up to date with it. -/
theorem upToDate_sighting (h : Consistent reporter ref w) {v : Stored} (hv : v ∈ w.versions)
    {facts : PolicyFacts} (version : facts.resourceVersion = some v.version)
    (ancestors : facts.storedAncestors = ⟨v.ancestors⟩) :
    UpToDate reporter.controller w.versions (w.crowdFor reporter.controller ref v)
      (w.session.tracker.sighting ref facts).2 := by
  have fit := (h.tidy v hv).toRegistrable
  refine ⟨v, hv, by rw [Tracker.facts_sighting, version], ?_⟩
  rcases w.session.tracker.register_sighting_cases fit ancestors with
    ⟨hs, sound, entries⟩ | ⟨old, hs, register⟩
  · rw [crowdFor, hs]
    exact Register.mirrors_of_entries fit sound entries
  · obtain ⟨_, -, -, mirrors⟩ := h.follows.record old hs
    rw [crowdFor, hs, register, h.follows.reporter]
    exact mirrors.toProper.mirrors_takeOver fit reporter.controller

/-- Another version in the store leaves the session consistent with those before. -/
theorem consistent_store (h : Consistent reporter ref w) {v : Stored}
    (tidy : Tidy reporter.controller v.ancestors)
    (fresh : v.version ∉ w.versions.map Stored.version) : Consistent reporter ref (w.store v) where
  tidy u hu := by
    rcases List.mem_cons.1 hu with rfl | hu
    · exact tidy
    · exact h.tidy u hu
  names := List.nodup_cons.2 ⟨fresh, h.names⟩
  waiting := h.waiting
  follows := h.follows.mono fun _ up => up.mono (List.subset_cons_self _ _)
  patches p hp := by
    obtain ⟨s, up, computed⟩ := h.patches p hp
    exact ⟨s, up.mono (List.subset_cons_self _ _), computed⟩

/-- Going on with a session that is up to date sends statuses that are. -/
theorem consistent_goOn (h : Consistent reporter ref w) {s : Session}
    (follows : s.tracker.Follows reporter ref
      (UpToDate reporter.controller w.versions crowd) 0) :
    Consistent reporter ref (w.goOn ref s crowd) where
  tidy := h.tidy
  names := h.names
  waiting := rfl
  follows := follows.emptied _ rfl 0
  patches p hp := by
    rcases List.mem_append.1 hp with hp | hp
    · exact h.patches p hp
    · obtain ⟨⟨version, status⟩, hm, rfl⟩ := List.mem_map.1 hp
      exact (follows.waiting version status (mem_statusesOf_iff.1 hm)).exists_record
        (lasting_upToDate reporter ref _ _)

/-- A patch for the current version was computed from it. -/
theorem Consistent.computed (h : Consistent reporter ref w)
    (hk : ref.kind.reportsByAncestor = true) {p : SentPatch} (hp : p ∈ w.patches)
    (current : p.version = some w.current.version) :
    ∃ r : Register, r.Mirrors reporter.controller w.current.ancestors p.crowd ∧
      p.status.ancestors = some (r.entries.map Entry.written) := by
  obtain ⟨s, ⟨v, hv, version, mirrors⟩, hversion, hstatus⟩ := h.patches p hp
  have same : v.version = w.current.version :=
    Option.some.inj (version.symm.trans (hversion.symm.trans current))
  obtain rfl : v = w.current :=
    List.inj_on_of_nodup_map h.names hv (List.mem_cons_self) same
  exact ⟨s.register, mirrors, by rw [hstatus, PolicyRecord.ancestors_status hk]⟩

/-- Every run is consistent. -/
theorem Run.consistent (hk : ref.kind.reportsByAncestor = true) (run : Run reporter ref w) :
    Consistent reporter ref w := by
  induction run with
  | start hostname claim capacity v few distinct =>
    refine ⟨?_, by simp [versions], rfl, Tracker.follows_empty reporter ref _ 0 capacity,
      fun _ hp => absurd hp List.not_mem_nil⟩
    intro u hu
    rw [List.mem_singleton.1 hu]
    exact tidy_of_nodup few distinct
  | write run v fresh few own others ih =>
    exact consistent_store ih ((ih.tidy _ List.mem_cons_self).written few own others) fresh
  | observe run v hv p hp now s step ih =>
    rw [hp.step_eq] at step
    cases step
    apply consistent_goOn ih
    apply Tracker.follows_putPolicy (lasting_upToDate reporter ref _ _) ih.follows.reporter
      (by simp [ih.waiting])
    exact upToDate_sighting ih hv hp.version hp.ancestors
  | other run o elsewhere now s step ih =>
    exact consistent_goOn ih
      (Session.follows_step (lasting_upToDate reporter ref _ _) ih.follows elsewhere step)
  | deliver run p hp current l hl version fresh ih =>
    obtain ⟨r, mirrors, written⟩ := ih.computed hk hp current
    rw [hl] at written
    cases written
    exact consistent_store ih (mirrors.tidy_written (ih.tidy _ List.mem_cons_self)) fresh

/-- In every run, a patch that will be accepted keeps the entries of others in the object, each for the
same ancestor and with the same conditions, exactly if there was room for all of them beside our own
entries when the policy was last seen. -/
theorem Run.keepsOthers_iff (hk : ref.kind.reportsByAncestor = true) (run : Run reporter ref w)
    {p : SentPatch} (hp : p ∈ w.patches) (current : p.version = some w.current.version) :
    ∃ l, p.status.ancestors = some l ∧
      (KeepsOthers reporter.controller w.current.ancestors l ↔ p.crowd ≤ maxAncestors) := by
  have consistent := run.consistent hk
  obtain ⟨r, mirrors, written⟩ := consistent.computed hk hp current
  exact ⟨_, written, mirrors.keepsOthers_written_iff (consistent.tidy _ List.mem_cons_self)⟩

end Invariant

end SharedPolicy

/-! A policy whose status our own entries fill, and one where there is room. -/

namespace Sample

/-- An entry of another controller. -/
def meshEntry : AncestorStatus := stored "example.net/mesh" "x"

/-- The policy with the entries that are stored in it, before anything is seen. -/
def shared (ancestors : List AncestorStatus) : SharedPolicy := ⟨start, ⟨"1", ancestors⟩, [], [], 0⟩

/-- What follows when a version of the policy is seen. -/
def sees (w : SharedPolicy) (services : List String) (v : Stored) : SharedPolicy :=
  w.goOn key
    { w.session with
      tracker := w.session.tracker.putPolicy (w.session.moment now) key
        ((policy v.version services v.ancestors).facts "ns") }
    (w.crowdFor ours key v)

theorem run_sees {w : SharedPolicy} (run : SharedPolicy.Run reporter key w) (services : List String)
    {v : Stored} (hv : v ∈ w.versions) : SharedPolicy.Run reporter key (sees w services v) :=
  have hp : v.IsOf key (policy v.version services v.ancestors) := ⟨rfl, rfl, rfl, rfl, rfl⟩
  .observe run v hv (policy v.version services v.ancestors) hp now _ (hp.step_eq w.session now)

/-- The session has seen it with one entry of another controller. -/
def roomy : SharedPolicy := sees (shared [meshEntry]) ["a"] ⟨"1", [meshEntry]⟩

theorem run_roomy : SharedPolicy.Run reporter key roomy :=
  run_sees (.start "h" ⟨"h", none⟩ 100 ⟨"1", [meshEntry]⟩ (by decide) (by decide)) ["a"]
    List.mem_cons_self

/-- Sixteen targets are recorded, then another controller adds its entry, and this is seen. -/
def crowdedOut : SharedPolicy :=
  let services := (List.range 16).map toString
  sees ((sees (shared []) services ⟨"1", []⟩).store ⟨"2", [meshEntry]⟩) services ⟨"2", [meshEntry]⟩

theorem run_crowdedOut : SharedPolicy.Run reporter key crowdedOut :=
  run_sees
    (.write (run_sees (.start "h" ⟨"h", none⟩ 100 ⟨"1", []⟩ (by decide) (by decide)) _
      List.mem_cons_self) ⟨"2", [meshEntry]⟩ (by decide) (by decide) (by decide) (by decide))
    _ List.mem_cons_self

end Sample

namespace SharedPolicy

/-- With room for all, the first patch keeps the entry of the other controller. -/
theorem keepsOthers_roomy : ∃ p ∈ Sample.roomy.patches,
    p.version = some Sample.roomy.current.version ∧ p.crowd ≤ maxAncestors ∧
    ∃ l, p.status.ancestors = some l ∧
      KeepsOthers Sample.ours Sample.roomy.current.ancestors l := by
  have sent : ∃ p ∈ Sample.roomy.patches,
      p.version = some Sample.roomy.current.version ∧ p.crowd ≤ maxAncestors := by
    decide +kernel
  obtain ⟨p, hp, current, room⟩ := sent
  obtain ⟨l, hl, keeps⟩ := Run.keepsOthers_iff rfl Sample.run_roomy hp current
  exact ⟨p, hp, current, room, l, hl, keeps.2 room⟩

/-- A patch that will be accepted and drops the entry of another controller. -/
theorem not_keepsOthers : ∃ w, Run Sample.reporter Sample.key w ∧ ∃ p ∈ w.patches,
    p.version = some w.current.version ∧ ∃ l, p.status.ancestors = some l ∧
      ¬ KeepsOthers Sample.ours w.current.ancestors l := by
  have sent : ∃ p ∈ Sample.crowdedOut.patches,
      p.version = some Sample.crowdedOut.current.version ∧ ∃ l, l ∈ p.status.ancestors ∧
        ¬ KeepsOthers Sample.ours Sample.crowdedOut.current.ancestors l := by
    decide +kernel
  exact ⟨Sample.crowdedOut, Sample.run_crowdedOut, sent⟩

end SharedPolicy
end PolicyAttachment
