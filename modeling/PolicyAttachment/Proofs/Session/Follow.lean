import PolicyAttachment.Proofs.Session.Present

/-!
# Following one policy

Whatever happens to other objects reaches a policy through passes alone. A pass reviews its record,
and may send the outcome with the version that the record is for. So what outlasts a review outlasts
everything that is not about the policy, and holds of all that is sent for it: `Follows`.
-/

namespace PolicyAttachment
set_option autoImplicit false

/-- The place of a policy among the watched objects. -/
def PolicyKey.place (ref : PolicyKey) : WatchedKind × String × String :=
  (.policy ref.kind, ref.id.ns, ref.id.name)

/-- The place tells which policy it is. -/
theorem PolicyKey.place_injective : Function.Injective place := by
  rintro ⟨kind, ns, name⟩ ⟨kind', ns', name'⟩ h
  simp only [place, Prod.mk.injEq, WatchedKind.policy.injEq] at h
  obtain ⟨rfl, rfl, rfl⟩ := h
  rfl

namespace Tracker

/-- What reviewing a record and sending its status leave true of it. -/
structure Lasting (reporter : Reporter) (ref : PolicyKey) (P : PolicyRecord → Prop) : Prop where
  review : ∀ {tr : Tracker} {s : PolicyRecord} (now : Instant), tr.reporter = reporter → P s →
    P (tr.review now ref s).state
  sent : ∀ {s : PolicyRecord} (status : WrittenStatus), P s →
    P { s with pending := some (s.facts.resourceVersion, status) }

/-- The status was computed for the version, by reviewing a record of which `P` holds. -/
def Computed (reporter : Reporter) (ref : PolicyKey) (P : PolicyRecord → Prop)
    (version : Option String) (status : WrittenStatus) : Prop :=
  ∃ (tr : Tracker) (now : Instant) (s : PolicyRecord), tr.reporter = reporter ∧ P s ∧
    version = s.facts.resourceVersion ∧ status = (tr.review now ref s).state.status ref.kind

/-- `P` holds of the record of a policy, if there is one, and from such a record each status of it was
computed that waits to be written, apart from the first `n` changes that wait. -/
structure Follows (reporter : Reporter) (ref : PolicyKey) (P : PolicyRecord → Prop) (n : Nat)
    (tr : Tracker) : Prop where
  record : ∀ s, tr.policies.get? ref = some s → P s
  waiting : ∀ version status,
    .policy ref.kind ref.id version status ∈ tr.queue.waiting.drop n →
      Computed reporter ref P version status
  reporter : tr.reporter = reporter

variable {reporter : Reporter} {ref : PolicyKey} {P Q : PolicyRecord → Prop} {n : Nat}
  {tr tr' : Tracker}

theorem Computed.mono {version : Option String} {status : WrittenStatus}
    (h : Computed reporter ref P version status) (imp : ∀ s, P s → Q s) :
    Computed reporter ref Q version status := by
  obtain ⟨tr, now, s, hreporter, hs, computed⟩ := h
  exact ⟨tr, now, s, hreporter, imp s hs, computed⟩

/-- What lasts holds of the reviewed record as well. -/
theorem Computed.exists_record {version : Option String} {status : WrittenStatus}
    (h : Computed reporter ref P version status) (lasting : Lasting reporter ref P) :
    ∃ s, P s ∧ version = s.facts.resourceVersion ∧ status = s.status ref.kind := by
  obtain ⟨tr, now, s, hreporter, hs, hversion, hstatus⟩ := h
  exact ⟨_, lasting.review now hreporter hs, hversion, hstatus⟩

theorem Follows.mono (h : Follows reporter ref P n tr) (imp : ∀ s, P s → Q s) :
    Follows reporter ref Q n tr where
  reporter := h.reporter
  record s hs := imp s (h.record s hs)
  waiting version status hw := (h.waiting version status hw).mono imp

/-- At first only the record matters. -/
theorem follows_of_record (hreporter : tr.reporter = reporter)
    (record : ∀ s, tr.policies.get? ref = some s → P s) (none : tr.queue.waiting.length ≤ n) :
    Follows reporter ref P n tr where
  reporter := hreporter
  record := record
  waiting version status hw := by
    rw [List.drop_eq_nil_of_le none] at hw
    cases hw

theorem follows_empty (reporter : Reporter) (ref : PolicyKey) (P : PolicyRecord → Prop)
    (n capacity : Nat) : Follows reporter ref P n (.empty reporter capacity) :=
  follows_of_record rfl (fun s hs => by cases hs) (Nat.zero_le n)

/-- Nothing waits in a queue that was emptied. -/
theorem Follows.emptied (h : Follows reporter ref P n tr) (queue : Queue)
    (none : queue.waiting = []) (k : Nat) : Follows reporter ref P k { tr with queue } :=
  follows_of_record h.reporter h.record (by simp [none])

/-- Edits that leave the record of the policy alone. -/
theorem Follows.edit (h : Follows reporter ref P n tr) {policies : Table PolicyKey PolicyRecord}
    (same : policies.get? ref = tr.policies.get? ref) (targets : Table Target Unit)
    (routes : Table Target RouteLinks) :
    Follows reporter ref P n { tr with policies, targets, routes } where
  reporter := h.reporter
  record s hs := h.record s (same.symm.trans hs)
  waiting := h.waiting

/-- What is enqueued waits behind what waited before. -/
theorem mem_drop_append {changes new : List StatusChange} {change : StatusChange}
    (h : change ∈ (changes ++ new).drop n) : change ∈ changes.drop n ∨ change ∈ new := by
  rw [List.drop_append, List.mem_append] at h
  exact h.imp_right List.mem_of_mem_drop

theorem Follows.syncFlags (h : Follows reporter ref P n tr) (m : Moment) (force : Bool) :
    Follows reporter ref P n (tr.syncFlags m force) := by
  obtain ⟨offered, flags, sends, same⟩ := sendsFlags_syncFlags m force tr
  obtain ⟨new, sub, waiting⟩ := sends.queue.taken
  refine ⟨?_, ?_, sends.reporter.trans h.reporter⟩
  · rw [same]
    exact h.record
  · intro version status hw
    rw [waiting] at hw
    rcases mem_drop_append hw with hw | hw
    · exact h.waiting version status hw
    · obtain ⟨apiVersion, target, condition, heq⟩ := flags _ (sub.subset hw)
      cases heq

section Passing

variable (lasting : Lasting reporter ref P)
include lasting

/-- A lasting property survives a review. -/
theorem Lasting.reviewIn {s : PolicyRecord} (hs : P s) (hreporter : tr.reporter = reporter)
    (now : Instant) (kind : PolicyKind) : P (tr.reviewIn now kind ref s).state := by
  unfold Tracker.reviewIn
  split
  · exact lasting.review now hreporter hs
  · exact hs

/-- A pass over one kind reviews the record or leaves it alone, and what it sends was computed in
the review. -/
theorem Follows.passOver (h : Follows reporter ref P n tr) (m : Moment) (retry : Bool)
    (kind : PolicyKind) : Follows reporter ref P n (tr.passOver m retry kind) := by
  have passed := passed_passOver m retry tr kind
  have reviewed : ∀ s, tr.policies.get? ref = some s → P (tr.reviewIn m.now kind ref s).state :=
    fun s hs => lasting.reviewIn (h.record s hs) h.reporter m.now kind
  refine ⟨?_, ?_, passed.reporter.trans h.reporter⟩
  · intro s' hs'
    obtain ⟨s, hs, pending⟩ := passed.pending ref s' hs'
    obtain ⟨s₁, hs₁, rest⟩ := Table.get?_eq_some_of_mapValues passed.records hs
    obtain rfl := Option.some.inj (hs'.symm.trans hs₁)
    rw [PolicyRecord.atRest_eq_iff.1 rest]
    rcases pending with kept | ⟨status, sent⟩
    · have : { (tr.reviewIn m.now kind ref s).state with pending := s.pending } =
          (tr.reviewIn m.now kind ref s).state := by
        unfold Tracker.reviewIn
        split <;> rfl
      rw [kept, this]
      exact reviewed s hs
    · rw [sent, ← facts_reviewIn tr m.now kind ref s]
      exact lasting.sent status (reviewed s hs)
  · intro version status hw
    obtain ⟨due, takes, mem_due⟩ := passed.queue
    obtain ⟨new, sub, waiting⟩ := takes.taken
    rw [waiting] at hw
    rcases mem_drop_append hw with hw | hw
    · exact h.waiting version status hw
    · obtain ⟨d, hd, heq⟩ := List.mem_map.1 (sub.subset hw)
      obtain rfl := Due.change_eq_iff.1 heq
      obtain ⟨s, hs, -, hdue⟩ := (mem_due _).1 hd
      have computed := eq_of_due? hdue
      exact ⟨tr, m.now, s, h.reporter, h.record s hs, congrArg Due.version computed,
        congrArg Due.status computed⟩

theorem Follows.foldl_passOver (h : Follows reporter ref P n tr) (m : Moment) (retry : Bool)
    (kinds : List PolicyKind) : Follows reporter ref P n (kinds.foldl (Tracker.passOver m retry) tr) := by
  induction kinds generalizing tr with
  | nil => exact h
  | cons kind kinds ih => exact ih (h.passOver lasting m retry kind)

theorem Follows.pass (h : Follows reporter ref P n tr) (m : Moment) (kinds : List PolicyKind) :
    Follows reporter ref P n (tr.pass m kinds) := by
  unfold Tracker.pass
  split
  · exact h
  · exact (h.foldl_passOver lasting m false kinds).syncFlags m false

/-- The pass over all policies does so too. -/
theorem Follows.fullPass (h : Follows reporter ref P n tr) (m : Moment) (leaseChanged : Bool) :
    Follows reporter ref P n (tr.fullPass m leaseChanged) :=
  (h.foldl_passOver lasting m true PolicyKind.all).syncFlags m leaseChanged

end Passing

section Events

variable (lasting : Lasting reporter ref P) {m : Moment}
include lasting

theorem Follows.putTarget (h : Follows reporter ref P n tr) (target : Target) :
    Follows reporter ref P n (tr.putTarget m target) := by
  unfold Tracker.putTarget
  split
  · exact h
  · exact (h.edit rfl (tr.targets.insert target ()) tr.routes).pass lasting m _

theorem Follows.dropTarget (h : Follows reporter ref P n tr) (target : Target) :
    Follows reporter ref P n (tr.dropTarget m target) := by
  unfold Tracker.dropTarget
  split
  · exact (h.edit rfl (tr.targets.erase target) tr.routes).pass lasting m _
  · exact h

theorem Follows.afterRoute (h : Follows reporter ref P n tr) (changed : Bool) :
    Follows reporter ref P n (if changed then tr.passAfterRoute m else tr) := by
  split
  · exact h.pass lasting m _
  · exact h

theorem Follows.putRoute (h : Follows reporter ref P n tr) (route : Target) (refs : RouteLinks) :
    Follows reporter ref P n (tr.putRoute m route refs) :=
  ((h.edit rfl tr.targets (tr.routes.insert route refs)).putTarget lasting route).afterRoute
    lasting _

theorem Follows.dropRoute (h : Follows reporter ref P n tr) (route : Target) :
    Follows reporter ref P n (tr.dropRoute m route) :=
  ((h.edit rfl tr.targets (tr.routes.erase route)).dropTarget lasting route).afterRoute lasting _

/-- The policy itself is seen. -/
theorem follows_putPolicy (hreporter : tr.reporter = reporter) (none : tr.queue.waiting.length ≤ n)
    {facts : PolicyFacts} (hs : P (tr.sighting ref facts).2) :
    Follows reporter ref P n (tr.putPolicy m ref facts) := by
  have inserted : Follows reporter ref P n
      { tr with policies := tr.policies.insert ref (tr.sighting ref facts).2 } := by
    refine follows_of_record hreporter ?_ none
    intro s heq
    simp only [Table.get?_insert, if_true, Option.some.injEq] at heq
    exact heq ▸ hs
  rw [putPolicy_eq]
  split
  · exact inserted.pass lasting m [ref.kind]
  · exact inserted

/-- Another policy is seen. -/
theorem Follows.putOther (h : Follows reporter ref P n tr) {other : PolicyKey} (hne : ref ≠ other)
    (facts : PolicyFacts) : Follows reporter ref P n (tr.putPolicy m other facts) := by
  have edited : Follows reporter ref P n
      { tr with policies := tr.policies.insert other (tr.sighting other facts).2 } :=
    h.edit (by rw [Table.get?_insert, if_neg hne]) tr.targets tr.routes
  rw [putPolicy_eq]
  split
  · exact edited.pass lasting m [other.kind]
  · exact edited

/-- The policy itself goes. -/
theorem follows_dropPolicy (hreporter : tr.reporter = reporter)
    (none : tr.queue.waiting.length ≤ n) : Follows reporter ref P n (tr.dropPolicy m ref) := by
  unfold Tracker.dropPolicy
  split
  · have erased : Follows reporter ref P n { tr with policies := tr.policies.erase ref } := by
      refine follows_of_record hreporter ?_ none
      intro s hs
      simp only [Table.get?_erase, if_true] at hs
      cases hs
    exact erased.pass lasting m [ref.kind]
  · rename_i absent
    refine follows_of_record hreporter ?_ none
    intro s hs
    rw [Table.contains, hs] at absent
    exact absurd rfl absent

/-- A policy goes, perhaps this one. -/
theorem Follows.dropPolicy (h : Follows reporter ref P n tr) (other : PolicyKey) :
    Follows reporter ref P n (tr.dropPolicy m other) := by
  have erased : Follows reporter ref P n { tr with policies := tr.policies.erase other } := by
    refine ⟨?_, h.waiting, h.reporter⟩
    intro s hs
    simp only [Table.get?_erase] at hs
    split at hs
    · cases hs
    · exact h.record s hs
  unfold Tracker.dropPolicy
  split
  · exact erased.pass lasting m [other.kind]
  · exact h

/-- What lasts outlasts every event but a sighting of the policy. -/
theorem Follows.handle (h : Follows reporter ref P n tr) {e : Event}
    (elsewhere : ∀ p, e = .applied (.policy p) → e.place? ≠ some ref.place)
    (he : tr.handle m e = .ok tr') : Follows reporter ref P n tr' := by
  cases e with
  | applied object =>
    obtain ⟨-, rfl⟩ | ⟨ns, name, hns, hname, rfl⟩ := handle_applied he
    · exact h
    · cases object with
      | service metadata => exact h.putTarget lasting _
      | gateway metadata => exact h.putTarget lasting _
      | httpRoute metadata spec => exact h.putRoute lasting _ _
      | policy p =>
        apply h.putOther lasting
        rintro rfl
        apply elsewhere p rfl
        simp [Event.place?, hns, hname, PolicyKey.place, WatchedObject.kind]
  | deleted kind ns name =>
    cases he
    cases kind with
    | service => exact h.dropTarget lasting _
    | gateway => exact h.dropTarget lasting _
    | httpRoute => exact h.dropRoute lasting _
    | policy kind => exact h.dropPolicy lasting _

end Events

end Tracker

namespace Session

open Tracker (Lasting Follows)

variable {reporter : Reporter} {ref : PolicyKey} {P : PolicyRecord → Prop} {n : Nat}
  {s s' : Session} {now : Instant}

/-- Whether the policy is seen in an occurrence. -/
def Sees (ref : PolicyKey) (o : Occurrence) : Prop :=
  ∃ p, o = .event (.applied (.policy p)) ∧ (Event.applied (.policy p)).place? = some ref.place

/-- What lasts outlasts every occurrence in which the policy is not seen. -/
theorem follows_step (lasting : Lasting reporter ref P) (h : Follows reporter ref P n s.tracker)
    {o : Occurrence} (elsewhere : ¬ Sees ref o) (hstep : s.step now o = .ok s') :
    Follows reporter ref P n s'.tracker := by
  rcases step_cases hstep with ⟨e, rfl, handled⟩ | ⟨-, -, leaseChanged, after⟩ | ⟨-, -, after | after⟩
  · apply h.handle lasting _ handled
    rintro p rfl seen
    exact elsewhere ⟨p, rfl, seen⟩
  · rw [after]
    exact h.fullPass lasting _ _
  · rw [after]
    exact h
  · rw [after]
    exact h.emptied _ rfl n

end Session
end PolicyAttachment
