import PolicyAttachment.Proofs.Session.Sent
import PolicyAttachment.Proofs.Tracker.Quiet
import PolicyAttachment.Proofs.Wire.PolicyStatus

/-!
# Seeing one's own write

A status that is written to a policy comes back in an event for the policy. By
`Session.Run.ignores_echo` this event is the end of it: nothing is sent to the policy then, nor by
whatever happens before the next event comes.
-/

namespace PolicyAttachment
set_option autoImplicit false

/-- What a register is made up of can be read again. -/
theorem upheld_resumable (reporter : Reporter) (ref : PolicyKey) :
    Upheld reporter ref fun _ s => s.register.Resumable where
  lasting _ :=
    { review := by
        intro tr s now _ resumable
        cases hk : ref.kind.reportsByAncestor with
        | true =>
          have reviewed := Tracker.reviewed_review tr now resumable.sound hk
          exact resumable.reviewed reviewed
        | false =>
          rw [(Tracker.review_of_not_reportsByAncestor hk).1]
          exact resumable
      sent := fun _ resumable => resumable }
  first {es p} _ _ := by
    unfold PolicyRecord.first
    simp only
    split
    · rename_i loaded
      exact .ofStatus loaded
    · exact Register.Reachable.empty.resumable.takeOver _ _
  again _ resumable := resumable.takeOver _ _
  elsewhere _ resumable := resumable

namespace Session

open Tracker (Quiet IsEcho)

/-- `s'` is what can become of `s` while no event comes. -/
inductive Idles (s : Session) : Session → Prop where
  | refl : Idles s s
  | step {t t' : Session} (idles : Idles s t) (now : Instant) (o : Occurrence)
      (noEvent : o.events = []) (h : t.step now o = .ok t') : Idles s t'
  | taken {t : Session} (idles : Idles s t) (n : Nat) : Idles s (t.withTaken n)

variable {reporter : Reporter} {es : List Event} {ps : List Pass} {s s' t : Session}
  {ref : PolicyKey} {now : Instant} {o : Occurrence}

/-- Without an event, a policy that is quiet is sent nothing and stays quiet. -/
theorem quiet_step (h : Quiet ref s.tracker) (noEvent : o.events = [])
    (hstep : s.step now o = .ok s') :
    statusesOf ref (s.enqueued s') = [] ∧ Quiet ref s'.tracker := by
  unfold enqueued
  rcases step_cases hstep with ⟨e, rfl, -⟩ | ⟨-, -, leaseChanged, after⟩ | ⟨-, -, after | after⟩
  · cases noEvent
  · rw [after]
    have calm := h.fullPass ⟨now, true⟩ leaseChanged
    exact ⟨calm.statusesOf_eq_nil, calm.quiet⟩
  · rw [after, List.drop_length]
    exact ⟨rfl, h⟩
  · rw [after, Queue.close, List.drop_nil]
    exact ⟨rfl, h.withQueue _⟩

/-- What is quiet stays so while no event comes. -/
theorem Idles.quiet (idles : Idles s t) (h : Quiet ref s.tracker) : Quiet ref t.tracker := by
  induction idles with
  | refl => exact h
  | step idles now o noEvent hstep ih => exact (quiet_step ih noEvent hstep).2
  | taken idles n ih => exact ih.withQueue _

/-- Seeing again what a quiet record holds sends nothing and leaves it quiet. -/
theorem statusesOf_sees (p : Policy) (h : Quiet ref (s.tracker.sighted ref (p.facts ref.id.ns))) :
    statusesOf ref (s.enqueued (s.sees now ref p)) = [] ∧ Quiet ref (s.sees now ref p).tracker := by
  have calm := h.putPolicy (s.moment now)
  exact ⟨calm.statusesOf_eq_nil, calm.quiet⟩

/-- After every run, whoever leads and whatever fits into the queue: take a policy that could record
all its ancestors and in which others have no two entries under one name and reference, and take its
status as it is computed, with times of the years 0 to 9999 and numbers in the range of their fields.
When the policy is seen with this status as it reads from the document, at whatever version and
otherwise as it was, then neither this event nor anything that happens before the next event, at
whatever time, sends a status to the policy. -/
theorem Run.ignores_echo (run : Run reporter es ps s) {p : Policy} {r : PolicyRecord}
    (object : policyAfter es ref = some p) (known : s.tracker.policies.get? ref = some r)
    (unmarked : ∀ a, s.tracker.markOf? a ref = none)
    (apart : r.register.ForeignApart reporter.controller)
    (writable : (r.status ref.kind).Writable) (version : Option String) :
    ∃ p', p.withStatus? version (r.status ref.kind).toJson = some p' ∧
      ∀ now, ∃ s', s.step now (.event (.applied (.policy p'))) = .ok s' ∧
        statusesOf ref (s.enqueued s') = [] ∧
        ∀ t, Idles s' t → ∀ later o t', o.events = [] → t.step later o = .ok t' →
          statusesOf ref (t.enqueued t') = [] := by
  obtain ⟨q, hq, facts⟩ := run.upheld (upheld_policyAfter reporter ref) r known
  obtain rfl := Option.some.inj (object.symm.trans hq)
  obtain ⟨kind, ns, name⟩ := Event.isAbout_policy_iff.1 (isAbout_of_policyAfter object)
  have resumable := run.upheld (upheld_resumable reporter ref) r known
  unfold PolicyRecord.status at writable
  rw [← kind] at writable
  obtain ⟨p', decoded, restored⟩ := Policy.exists_withStatus? version writable
  rw [kind] at decoded restored
  have about : (Event.applied (.policy p')).IsAbout ref :=
    Event.isAbout_policy_iff.2 ⟨restored.kind.trans kind, restored.ns.trans ns,
      restored.name.trans name⟩
  have echo : IsEcho ref.kind r (p'.facts ref.id.ns) := by
    rw [restored.facts]
    exact ⟨by rw [facts]; rfl, by rw [facts], rfl, rfl⟩
  have quiet : Quiet ref (s.tracker.sighted ref (p'.facts ref.id.ns)) := by
    apply (run.shown known).quiet_sighted known resumable unmarked _ echo
    rwa [run.reporter_eq]
  refine ⟨p', decoded, fun now => ⟨_, step_sees about s now, ?_⟩⟩
  obtain ⟨nothing, after⟩ := statusesOf_sees p' quiet
  refine ⟨nothing, ?_⟩
  intro t idles later o t' noEvent hstep
  exact (quiet_step (idles.quiet after) noEvent hstep).1

end Session

namespace Sample

/-- An entry of another controller that the policy comes with. -/
def otherEntry : AncestorStatus := stored "example.net/mesh" "b"

/-- What is sent when the policy is first seen, with the entry of another controller. -/
def firstStatus : WrittenStatus where
  ancestors := some
    [otherEntry,
      { stored ours.text "a" with
        conditions := [⟨attachedType, "False", "TargetNotFound",
          "Target Service ns/a does not exist", now, none⟩] }]
  conditions := none

theorem writable_firstStatus : firstStatus.Writable := by
  have time : now.Writable := ⟨by decide, by decide⟩
  have ports : ∀ name, (service name).ancestorRef.toParent.Writable := fun name n hn => nomatch hn
  refine ⟨?_, fun l hl => nomatch hl⟩
  rintro l ⟨⟩ a ha
  rcases List.mem_pair.1 ha with rfl | rfl
  · exact ⟨ports "b", fun c hc => nomatch hc⟩
  · refine ⟨ports "a", fun c hc => ?_⟩
    obtain rfl := List.mem_singleton.1 hc
    exact ⟨time, fun n hn => nomatch hn⟩

end Sample

namespace Session

/-- The status that is sent when the policy is first seen is ignored when it comes back. -/
theorem ignores_echo_first :
    Sample.firstSent [Sample.otherEntry] = [(some "1", Sample.firstStatus)] ∧
    ∃ p', (Sample.policy "1" ["a"] [Sample.otherEntry]).withStatus? (some "2")
        Sample.firstStatus.toJson = some p' ∧
      ∀ now, ∃ s', (Sample.afterFirstSighting [Sample.otherEntry]).step now
          (.event (.applied (.policy p'))) = .ok s' ∧
        statusesOf Sample.key ((Sample.afterFirstSighting [Sample.otherEntry]).enqueued s') = [] ∧
        ∀ t, Idles s' t → ∀ later o t', o.events = [] → t.step later o = .ok t' →
          statusesOf Sample.key (t.enqueued t') = [] := by
  have run : Run Sample.reporter _ _ (Sample.afterFirstSighting [Sample.otherEntry]) :=
    .step (.start "h" ⟨"h", none⟩ 100) Sample.now _ (Sample.step_firstSighting [Sample.otherEntry])
  have recorded : ((Sample.afterFirstSighting [Sample.otherEntry]).tracker.policies.get?
      Sample.key).any fun r => r.status Sample.key.kind = Sample.firstStatus ∧
        r.register.ForeignApart Sample.reporter.controller := by
    decide +kernel
  obtain ⟨r, known, holds⟩ := (Option.any_eq_true _ _).1 recorded
  obtain ⟨status, apart⟩ := of_decide_eq_true holds
  have unmarked : (Sample.afterFirstSighting [Sample.otherEntry]).tracker.marks = .empty :=
    Table.ext_entries (List.isEmpty_iff.1 (by decide +kernel))
  have ignored := Run.ignores_echo run rfl known
    (fun a => by rw [Tracker.markOf?, unmarked]; rfl) apart
    (status ▸ Sample.writable_firstStatus) (some "2")
  rw [status] at ignored
  refine ⟨?_, ignored⟩
  decide +kernel

end Session
end PolicyAttachment
