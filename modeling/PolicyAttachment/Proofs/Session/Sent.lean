import Mathlib.Data.List.Induction
import PolicyAttachment.Proofs.Session.Log
import PolicyAttachment.Proofs.Session.Unique

/-!
# What is sent

A status is sent when it differs from the one that is stored, for the version that was last seen. A
pass over all policies sends every such status, whatever was lost or kept back before; the passes that
an event leads to leave out the status that was sent last for the same version:
`Session.Logged.sends_what_differs`.
-/

namespace PolicyAttachment
set_option autoImplicit false

/-- The status that is stored in a policy, as policies of its kind write it. -/
def Policy.storedStatus (p : Policy) : WrittenStatus :=
  .of p.kind p.storedAncestors p.storedConditions

namespace Pass

/-- What was put into the queue. -/
def enqueued (p : Pass) : List StatusChange :=
  p.after.queue.waiting.drop p.before.queue.waiting.length

/-- Everything that was offered to the queue was taken in. -/
def Lossless (p : Pass) : Prop := Queue.Lossless p.moment.leads p.before.queue p.after.queue

end Pass

namespace Tracker

open Channel (Relays)

/-- The status of a policy as it is computed from its record. -/
def computed (tr : Tracker) (now : Instant) (ref : PolicyKey) (r : PolicyRecord) : WrittenStatus :=
  (tr.review now ref r).state.status ref.kind

/-- What a pass owes to a policy that is stored as `p`, if `last` is what was sent last and need not be
repeated. -/
def owed (p : Policy) (status : WrittenStatus) (last : Option (Option String × WrittenStatus)) :
    List (Option String × WrittenStatus) :=
  if status = p.storedStatus ∨ last = some (p.metadata.resourceVersion, status) then []
  else [(p.metadata.resourceVersion, status)]

variable {tr tr' : Tracker} {ref : PolicyKey} {r r' : PolicyRecord} {now : Instant} {m : Moment}
  {p : Policy}

/-- Trackers that agree compute the same status. -/
theorem Agree.computed (h : Agree ref.kind tr tr') (hr : tr.policies.get? ref = some r)
    (same : r'.essence = r.essence) : tr'.computed now ref r' = tr.computed now ref r := by
  have attachments := h.attachments hr same
  have register := register_of_essence same
  have conditions := conditions_of_essence same
  have generation := generation_of_essence same
  unfold Tracker.computed PolicyRecord.status review
  simp only [attachments, register, conditions, generation, h.reporter]
  by_cases hk : ref.kind.reportsByAncestor = true
  · rw [h.routes hk ⟨ref, r, hr, rfl⟩]
  · simp only [hk, Bool.false_eq_true, if_false]

/-- What a pass offers for a policy that is stored as `p`. -/
theorem dueFor_eq_owed (hr : tr.policies.get? ref = some r) (hfacts : r.facts = p.facts ref.id.ns)
    (hk : p.kind = ref.kind)
    (stored : r.stored = .of ref.kind r.facts.storedAncestors r.facts.storedConditions)
    (retry : Bool) :
    tr.dueFor m retry ref.kind ref =
      owed p (tr.computed m.now ref r) (if retry then none else r.pending) := by
  have hstored : (tr.review m.now ref r).state.stored = p.storedStatus := by
    show r.stored = _
    rw [stored, hfacts, Policy.storedStatus, hk]
    rfl
  have version : (tr.review m.now ref r).state.facts.resourceVersion = p.metadata.resourceVersion := by
    rw [facts_review, hfacts]
    rfl
  have pending : (tr.review m.now ref r).state.pending = r.pending := rfl
  rw [dueFor_of_known m retry hr]
  unfold due? owed
  rw [hstored, version, pending, ← computed]
  by_cases same : tr.computed m.now ref r = p.storedStatus
  · simp [same]
  · cases retry with
    | true => simp [same]
    | false =>
      by_cases sent : r.pending = some (p.metadata.resourceVersion, tr.computed m.now ref r)
      · simp [same, sent]
      · simp [same, sent]

/-- The passes over other kinds leave a policy to the pass over its own. -/
theorem relays_status_others (retry : Bool) {kinds : List PolicyKind} (hk : ref.kind ∉ kinds)
    (tr : Tracker) :
    Relays (.status ref) m.leads [] tr (kinds.foldl (passOver m retry) tr) ∧
      Agree ref.kind tr (kinds.foldl (passOver m retry) tr) ∧
      ∀ r, tr.policies.get? ref = some r → ∃ pending,
        (kinds.foldl (passOver m retry) tr).policies.get? ref = some { r with pending } := by
  induction kinds generalizing tr with
  | nil => exact ⟨.refl _ _ tr, .refl _ tr, fun r hr => ⟨r.pending, hr⟩⟩
  | cons kind kinds ih =>
    rw [List.mem_cons, not_or] at hk
    obtain ⟨relays, agree, record⟩ := ih hk.2 (tr.passOver m retry kind)
    have passed := passed_passOver m retry tr kind
    have first := relays_status_passOver m retry tr kind ref
    rw [dueFor_of_ne m retry tr hk.1] at first
    refine ⟨first.append relays, (passed.agree hk.1).trans agree, ?_⟩
    intro r hr
    obtain ⟨pending, hnext⟩ := passed.passedBy hr hk.1
    obtain ⟨later, hlast⟩ := record _ hnext
    exact ⟨later, hlast⟩

/-- A pass over all kinds offers what it owes to each policy, whatever is pending. -/
theorem relays_status_fullPass (leaseChanged : Bool) (hr : tr.policies.get? ref = some r)
    (hfacts : r.facts = p.facts ref.id.ns) (hk : p.kind = ref.kind)
    (stored : r.stored = .of ref.kind r.facts.storedAncestors r.facts.storedConditions) :
    Relays (.status ref) m.leads (owed p (tr.computed m.now ref r) none) tr
      (tr.fullPass m leaseChanged) := by
  have nodup : PolicyKind.all.Nodup := by decide
  obtain ⟨before, later, split⟩ := List.append_of_mem (PolicyKind.mem_all ref.kind)
  rw [split, List.nodup_append, List.nodup_cons] at nodup
  obtain ⟨-, ⟨fresh, -⟩, apart⟩ := nodup
  have notBefore : ref.kind ∉ before := fun h => apart _ h _ List.mem_cons_self rfl
  obtain ⟨first, agree, record⟩ := relays_status_others (m := m) true notBefore tr
  obtain ⟨pending, hmid⟩ := record r hr
  unfold fullPass
  rw [split, List.foldl_append, List.foldl_cons]
  generalize before.foldl (passOver m true) tr = mid at first agree hmid
  have own := relays_status_passOver m true mid ref.kind ref
  have same : mid.computed m.now ref { r with pending } = tr.computed m.now ref r :=
    agree.computed hr rfl
  rw [dueFor_eq_owed hmid hfacts hk stored true, same] at own
  have last := (relays_status_others (m := m) true fresh (mid.passOver m true ref.kind)).1
  have flags := relays_status_syncFlags m leaseChanged
    (later.foldl (passOver m true) (mid.passOver m true ref.kind)) ref
  have all := ((first.append own).append last).append flags
  rwa [List.append_nil, List.append_nil, List.nil_append] at all

/-- What is not repeated is in the log, for a tracker whose queue has it behind the first `n`. -/
theorem Accounts.dueFor_eq_owed {log : List Note} {n : Nat} (h : Accounts log n tr) (m : Moment)
    (hr : tr.policies.get? ref = some r) (hfacts : r.facts = p.facts ref.id.ns)
    (hk : p.kind = ref.kind) :
    tr.dueFor m false ref.kind ref = owed p (tr.computed m.now ref r)
      (lastSent ref (log ++ (tr.queue.waiting.drop n).map .enqueued)) := by
  have sent : (tr.policies.get? ref).bind PolicyRecord.pending = lastSent ref _ :=
    (h.sent ref).memory
  rw [hr, Option.bind_some] at sent
  rw [Tracker.dueFor_eq_owed hr hfacts hk (h.stored ref r hr), if_neg Bool.false_ne_true, sent]

/-- Nothing is offered for a policy that is not there. -/
theorem relays_status_fullPass_of_absent (leaseChanged : Bool)
    (hr : tr.policies.get? ref = none) :
    Relays (.status ref) m.leads [] tr (tr.fullPass m leaseChanged) := by
  have passes : ∀ (kinds : List PolicyKind) (tr : Tracker), tr.policies.get? ref = none →
      Relays (.status ref) m.leads [] tr (kinds.foldl (passOver m true) tr) := by
    intro kinds
    induction kinds with
    | nil => exact fun tr _ => .refl _ _ tr
    | cons kind kinds ih =>
      intro tr absent
      have first := relays_status_passOver m true tr kind ref
      rw [dueFor_of_absent m true kind absent] at first
      refine first.append (ih _ ?_)
      cases hr' : (tr.passOver m true kind).policies.get? ref with
      | none => rfl
      | some r' =>
        obtain ⟨r, hr⟩ := (passed_passOver m true tr kind).exists_before hr'
        rw [absent] at hr
        cases hr
  exact (passes _ tr hr).append (relays_status_syncFlags m leaseChanged _ ref)

end Tracker

section Events

/-- A policy is present in the place that it was seen in. -/
theorem isAbout_of_policyAfter {es : List Event} {ref : PolicyKey} {p : Policy}
    (h : policyAfter es ref = some p) : (Event.applied (.policy p)).IsAbout ref := by
  induction es using List.reverseRecOn with
  | nil => cases h
  | append_singleton es e ih =>
    by_cases about : e.IsAbout ref
    · rw [policyAfter_snoc about] at h
      cases e with
      | applied object =>
        cases object with
        | policy q =>
          cases h
          exact about
        | service metadata => cases h
        | gateway metadata => cases h
        | httpRoute metadata spec => cases h
      | deleted kind ns name => cases h
    · rw [policyAfter_snoc_of_not_isAbout about] at h
      exact ih h

theorem kind_of_policyAfter {es : List Event} {ref : PolicyKey} {p : Policy}
    (h : policyAfter es ref = some p) : p.kind = ref.kind :=
  (Event.isAbout_policy_iff.1 (isAbout_of_policyAfter h)).1

namespace Tracker

/-- The passes over some kinds all repeat what is pending, or none does. -/
theorem retry_of_mem_passesOver {m : Moment} {retry : Bool} {kinds : List PolicyKind} {tr : Tracker}
    {p : Pass} (h : p ∈ passesOver m retry kinds tr) : p.retry = retry := by
  induction kinds generalizing tr with
  | nil => cases h
  | cons kind kinds ih =>
    obtain rfl | h := List.mem_cons.1 h
    · rfl
    · exact ih h

/-- The passes when a target comes do not repeat what is pending. -/
theorem retry_of_mem_putTargetPasses {m : Moment} {tr : Tracker} {t : Target} {p : Pass}
    (h : p ∈ tr.putTargetPasses m t) : p.retry = false := by
  unfold putTargetPasses at h
  split at h
  · cases h
  · exact retry_of_mem_passesOver h

/-- The passes when a target goes do not repeat what is pending. -/
theorem retry_of_mem_dropTargetPasses {m : Moment} {tr : Tracker} {t : Target} {p : Pass}
    (h : p ∈ tr.dropTargetPasses m t) : p.retry = false := by
  unfold dropTargetPasses at h
  split at h
  · exact retry_of_mem_passesOver h
  · cases h

/-- The passes of an event do not repeat what is pending. -/
theorem retry_of_mem_handlePasses {m : Moment} {tr : Tracker} {e : Event} {p : Pass}
    (h : p ∈ tr.handlePasses m e) : p.retry = false := by
  have guarded : ∀ {tr : Tracker} {kinds : List PolicyKind} {c : Bool},
      p ∈ (if c then passesOver m false kinds tr else []) → p.retry = false := by
    intro tr kinds c h
    split at h
    · exact retry_of_mem_passesOver h
    · cases h
  cases e with
  | applied object =>
    simp only [handlePasses] at h
    split at h
    · cases object with
      | service metadata => exact retry_of_mem_putTargetPasses h
      | gateway metadata => exact retry_of_mem_putTargetPasses h
      | httpRoute metadata spec =>
        exact (List.mem_append.1 h).elim retry_of_mem_putTargetPasses guarded
      | policy q => exact guarded h
    · cases h
  | deleted kind ns name =>
    cases kind with
    | service => exact retry_of_mem_dropTargetPasses h
    | gateway => exact retry_of_mem_dropTargetPasses h
    | httpRoute => exact (List.mem_append.1 h).elim retry_of_mem_dropTargetPasses guarded
    | policy kind => exact guarded h

end Tracker

end Events

/-- The patch is merged into the policy and has its whole status, together with the version that it is
for if that is known. -/
structure StatusPatch.Writes (patch : StatusPatch) (ref : PolicyKey) (version : Option String)
    (status : WrittenStatus) : Prop where
  id : patch.id = ⟨ref.id.ns, policyGroup, ref.kind.name, ref.id.name⟩
  mode : patch.mode = .merge
  status : patch.body.member? "status" = some status.toJson
  metadata : patch.body.member? "metadata" =
    version.map fun v => .obj [("resourceVersion", .str v)]

/-- What is sent for a status writes it. -/
theorem writes_toPatch (ref : PolicyKey) (version : Option String) (status : WrittenStatus) :
    (StatusChange.policy ref.kind ref.id version status).toPatch.Writes ref version status where
  id := rfl
  mode := rfl
  status := rfl
  metadata := by cases version <;> rfl

namespace Session

open Tracker (owed)

variable {reporter : Reporter} {log : List Note} {s : Session}

/-- Before every pass of an event, all that was enqueued is noted, and the policies are known that are
present after the event. -/
theorem Logged.accounts_pass (logged : Logged reporter log s) {now : Instant} {e : Event}
    {s' : Session} (h : s.step now (.event e) = .ok s') {pass : Pass}
    (hpass : pass ∈ s.passes now (.event e)) (ref : PolicyKey) :
    pass.moment = s.moment now ∧
      pass.before.Accounts (log ++ [.event e]) s.tracker.queue.waiting.length ∧
      (pass.before.policies.get? ref).map PolicyRecord.facts =
        (policyAfter (eventsIn log ++ [e]) ref).map fun p => p.facts ref.id.ns := by
  obtain ⟨ps, run⟩ := logged.run
  have reflects := (run.step now (.event e) h).reflects
  have keeps := (Tracker.keeps_accounts (log ++ [.event e]) s.tracker.queue.waiting.length
    (s.moment now)).and (Tracker.keeps_facts (s.tracker.entered e).facts (s.moment now))
  have entered := And.intro (logged.accounts.entered e) (rfl (a := (s.tracker.entered e).facts))
  have last : s'.tracker.facts = (s.tracker.entered e).facts := by
    rw [tracker_step h]
    exact (keeps.runAll entered _).2
  rw [passes, ← Tracker.passes_stages] at hpass
  obtain ⟨moment, accounts, facts⟩ := keeps.passes entered hpass
  refine ⟨moment, accounts, ?_⟩
  rw [← Tracker.get?_facts, facts, ← last]
  exact reflects.policyAfter ref

/-- A pass over all policies that loses nothing sends to each policy that is present what it owes to it
for the version last seen, as if nothing had been sent before, and nothing to any other policy. -/
theorem Logged.statusesOf_fullPass (logged : Logged reporter log s) (ref : PolicyKey) {now : Instant}
    {leaseChanged : Bool}
    (lossless : Queue.Lossless (s.leads now) s.tracker.queue
      (s.fullPass now leaseChanged).tracker.queue) :
    match policyAfter (eventsIn log) ref with
    | none => statusesOf ref (s.enqueued (s.fullPass now leaseChanged)) = []
    | some p => ∃ r, s.tracker.policies.get? ref = some r ∧
        statusesOf ref (s.enqueued (s.fullPass now leaseChanged)) =
          owed p (s.tracker.computed now ref r) none := by
  obtain ⟨ps, run⟩ := logged.run
  have known := run.reflects.policyAfter ref
  rw [Tracker.get?_facts] at known
  have full : (s.fullPass now leaseChanged).tracker =
      s.tracker.fullPass (s.moment now) leaseChanged := by
    rw [tracker_fullPass, if_pos lossless.1]
  unfold enqueued
  rw [full] at lossless ⊢
  cases hp : policyAfter (eventsIn log) ref with
  | none =>
    rw [hp, Option.map_none, Option.map_eq_none_iff] at known
    exact (Tracker.relays_status_fullPass_of_absent leaseChanged known).enqueued.2 lossless
  | some p =>
    rw [hp, Option.map_some] at known
    obtain ⟨r, hr, hfacts⟩ := Option.map_eq_some_iff.1 known
    refine ⟨r, hr, ?_⟩
    exact (Tracker.relays_status_fullPass leaseChanged hr hfacts (kind_of_policyAfter hp)
      (logged.accounts.stored ref r hr)).enqueued.2 lossless

/-- A pass that an event leads to sends what it owes to each policy of its kind, of which the queue may
refuse some. What was sent last, also by the passes before it, is not owed again. -/
theorem Logged.statusesOf_pass (logged : Logged reporter log s) (ref : PolicyKey) {now : Instant}
    {e : Event} {s' : Session} (h : s.step now (.event e) = .ok s') {pass : Pass}
    (hpass : pass ∈ s.passes now (.event e)) :
    match policyAfter (eventsIn log ++ [e]) ref with
    | none => statusesOf ref pass.enqueued = []
    | some p =>
      if ref.kind = pass.kind then
        ∃ r due, pass.before.policies.get? ref = some r ∧
          due = owed p (pass.before.computed now ref r)
            (lastSent ref (log ++ s.notes (.event e) pass.before)) ∧
          (statusesOf ref pass.enqueued).Sublist due ∧
          (pass.Lossless → statusesOf ref pass.enqueued = due)
      else statusesOf ref pass.enqueued = [] := by
  obtain ⟨moment, accounts, known⟩ := logged.accounts_pass h hpass ref
  obtain ⟨sub, all⟩ := (Tracker.relays_status_passOver pass.moment pass.retry pass.before pass.kind
    ref).enqueued
  cases hp : policyAfter (eventsIn log ++ [e]) ref with
  | none =>
    rw [hp, Option.map_none, Option.map_eq_none_iff] at known
    rw [Tracker.dueFor_of_absent _ _ _ known] at sub
    exact List.sublist_nil.1 sub
  | some p =>
    rw [hp, Option.map_some] at known
    obtain ⟨r, hr, hfacts⟩ := Option.map_eq_some_iff.1 known
    by_cases hk : ref.kind = pass.kind
    · have due : pass.before.dueFor pass.moment pass.retry pass.kind ref =
          owed p (pass.before.computed now ref r)
            (lastSent ref (log ++ s.notes (.event e) pass.before)) := by
        rw [Tracker.retry_of_mem_handlePasses hpass, ← hk,
          accounts.dueFor_eq_owed pass.moment hr hfacts (kind_of_policyAfter hp), moment,
          List.append_assoc]
        rfl
      rw [due] at sub all
      simp only [if_pos hk]
      exact ⟨r, _, hr, rfl, sub, all⟩
    · rw [Tracker.dueFor_of_ne _ _ _ hk] at sub
      simp only [if_neg hk]
      exact List.sublist_nil.1 sub

/-- In every run, whatever was lost or kept back before: a pass over all policies that loses nothing
sends to each policy that is present the status computed for it, for the version last seen, exactly if
that differs from what was stored when the policy was last seen. A pass that an event leads to sends
the same, but for a status that was the last one sent to the policy for the same version. No other
policy is sent anything. -/
theorem Logged.sends_what_differs (logged : Logged reporter log s) (ref : PolicyKey) :
    (∀ now leaseChanged, Queue.Lossless (s.leads now) s.tracker.queue
        (s.fullPass now leaseChanged).tracker.queue →
      match policyAfter (eventsIn log) ref with
      | none => statusesOf ref (s.enqueued (s.fullPass now leaseChanged)) = []
      | some p => ∃ r, s.tracker.policies.get? ref = some r ∧
          statusesOf ref (s.enqueued (s.fullPass now leaseChanged)) =
            owed p (s.tracker.computed now ref r) none) ∧
    (∀ now e s', s.step now (.event e) = .ok s' → ∀ pass ∈ s.passes now (.event e),
      match policyAfter (eventsIn log ++ [e]) ref with
      | none => statusesOf ref pass.enqueued = []
      | some p =>
        if ref.kind = pass.kind then
          ∃ r due, pass.before.policies.get? ref = some r ∧
            due = owed p (pass.before.computed now ref r)
              (lastSent ref (log ++ s.notes (.event e) pass.before)) ∧
            (statusesOf ref pass.enqueued).Sublist due ∧
            (pass.Lossless → statusesOf ref pass.enqueued = due)
        else statusesOf ref pass.enqueued = []) ∧
    ∀ version status,
      (StatusChange.policy ref.kind ref.id version status).toPatch.Writes ref version status := by
  refine ⟨fun now leaseChanged lossless => logged.statusesOf_fullPass ref lossless, ?_,
    writes_toPatch ref⟩
  intro now e s' h pass hpass
  exact logged.statusesOf_pass ref h hpass

/-- The status that was sent when the policy was first seen is sent again, since it is not stored. -/
theorem sends_what_differs_again :
    Queue.Lossless ((Sample.afterFirstSighting []).leads Sample.now)
      (Sample.afterFirstSighting []).tracker.queue
      ((Sample.afterFirstSighting []).fullPass Sample.now false).tracker.queue ∧
    ∃ r, (Sample.afterFirstSighting []).tracker.policies.get? Sample.key = some r ∧
      statusesOf Sample.key ((Sample.afterFirstSighting []).enqueued
        ((Sample.afterFirstSighting []).fullPass Sample.now false)) =
      [(some "1", (Sample.afterFirstSighting []).tracker.computed Sample.now Sample.key r)] := by
  have lossless : Queue.Lossless ((Sample.afterFirstSighting []).leads Sample.now)
      (Sample.afterFirstSighting []).tracker.queue
      ((Sample.afterFirstSighting []).fullPass Sample.now false).tracker.queue := by
    refine ⟨?_, ?_, ?_⟩ <;> decide +kernel
  have logged : Logged Sample.reporter
      (Sample.start.notes (Sample.firstSighting []) (Sample.afterFirstSighting []).tracker)
      (Sample.afterFirstSighting []) :=
    .step (.start "h" ⟨"h", none⟩ 100) Sample.now _ (Sample.step_firstSighting [])
  have again := (Logged.sends_what_differs logged Sample.key).1 Sample.now false lossless
  have seen : policyAfter (eventsIn (Sample.start.notes (Sample.firstSighting [])
      (Sample.afterFirstSighting []).tracker)) Sample.key =
        some (Sample.policy "1" ["a"] []) := by
    rw [notes, eventsIn_append, eventsIn_map_event, eventsIn_map_enqueued]
    rfl
  rw [seen] at again
  obtain ⟨r, hr, sent⟩ := again
  have differs : ((Sample.afterFirstSighting []).tracker.policies.get? Sample.key).all fun r =>
      (Sample.afterFirstSighting []).tracker.computed Sample.now Sample.key r ≠
        (Sample.policy "1" ["a"] []).storedStatus := by
    decide +kernel
  rw [hr, Option.all_some, decide_eq_true_eq] at differs
  refine ⟨lossless, r, hr, sent.trans ?_⟩
  rw [owed, if_neg]
  · rfl
  · rintro (same | none)
    · exact differs same
    · cases none

end Session
end PolicyAttachment
