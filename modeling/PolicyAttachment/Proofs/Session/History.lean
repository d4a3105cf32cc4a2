import PolicyAttachment.Proofs.Session.Follow

/-!
# What a record owes to the events

The record of a policy starts when the policy is first seen, changes when it is seen again and when it
is reviewed, and ends when the policy goes. What each of these upholds is true of the record after
every run, and of the record from which each status was computed that an occurrence puts into the
queue: `Session.Run.upheld` and `Session.Run.computed`. Above all, that record is about the policy as
it is present then.
-/

namespace PolicyAttachment
set_option autoImplicit false

def WatchedObject.policy? : WatchedObject → Option Policy
  | policy p => some p
  | _ => none

theorem WatchedObject.facts?_eq (ns : String) (object : WatchedObject) :
    object.facts? ns = object.policy?.map fun p => p.facts ns := by
  cases object <;> rfl

/-- The policy `ref` as it is present after some events. -/
def policyAfter (es : List Event) (ref : PolicyKey) : Option Policy :=
  (present es (.policy ref.kind) ref.id.ns ref.id.name).bind WatchedObject.policy?

/-- The event is about the policy `ref`. -/
def Event.IsAbout (ref : PolicyKey) (e : Event) : Prop := e.place? = some ref.place

/-- An event that shows a policy is about the policy of its kind, namespace and name. -/
theorem Event.isAbout_policy_iff {ref : PolicyKey} {p : Policy} :
    (Event.applied (.policy p)).IsAbout ref ↔ p.kind = ref.kind ∧
      p.metadata.ns = some ref.id.ns ∧ p.metadata.name = some ref.id.name := by
  unfold IsAbout place?
  cases hns : p.metadata.ns with
  | none => simp [WatchedObject.metadata, hns]
  | some ns =>
    cases hname : p.metadata.name with
    | none => simp [WatchedObject.metadata, hns, hname]
    | some name =>
      simp [WatchedObject.metadata, WatchedObject.kind, PolicyKey.place, hns, hname]

section PolicyAfter

variable {es : List Event} {e : Event} {ref : PolicyKey}

/-- An event about a policy says what is present of it. -/
theorem policyAfter_snoc (h : e.IsAbout ref) :
    policyAfter (es ++ [e]) ref = e.object?.bind WatchedObject.policy? := by
  rw [policyAfter, present_snoc, show e.place? = some ref.place from h]
  exact congrArg (Option.bind · WatchedObject.policy?) (if_pos rfl)

theorem policyAfter_snoc_of_not_isAbout (h : ¬ e.IsAbout ref) :
    policyAfter (es ++ [e]) ref = policyAfter es ref := by
  rw [policyAfter, present_snoc]
  exact congrArg (Option.bind · WatchedObject.policy?) (if_neg h)

end PolicyAfter

/-- What is true of the record of a policy after some events, for as long as the policy is known. -/
structure Upheld (reporter : Reporter) (ref : PolicyKey)
    (P : List Event → PolicyRecord → Prop) : Prop where
  lasting : ∀ es, Tracker.Lasting reporter ref (P es)
  first : ∀ {es : List Event} {p : Policy}, (Event.applied (.policy p)).IsAbout ref →
    policyAfter es ref = none →
    P (es ++ [.applied (.policy p)]) (.first reporter.controller ref.kind (p.facts ref.id.ns))
  again : ∀ {es : List Event} {p : Policy} {old : PolicyRecord},
    (Event.applied (.policy p)).IsAbout ref → P es old →
    P (es ++ [.applied (.policy p)])
      (old.seen reporter.controller ref.kind (p.facts ref.id.ns)).2
  elsewhere : ∀ {es : List Event} {e : Event} {s : PolicyRecord}, ¬ e.IsAbout ref → P es s →
    P (es ++ [e]) s

theorem Upheld.and {reporter : Reporter} {ref : PolicyKey} {P Q : List Event → PolicyRecord → Prop}
    (h : Upheld reporter ref P) (h' : Upheld reporter ref Q) :
    Upheld reporter ref fun es s => P es s ∧ Q es s where
  lasting es :=
    { review := fun now hreporter hs => ⟨(h.lasting es).review now hreporter hs.1,
        (h'.lasting es).review now hreporter hs.2⟩
      sent := fun status hs => ⟨(h.lasting es).sent status hs.1, (h'.lasting es).sent status hs.2⟩ }
  first about absent := ⟨h.first about absent, h'.first about absent⟩
  again about hs := ⟨h.again about hs.1, h'.again about hs.2⟩
  elsewhere other hs := ⟨h.elsewhere other hs.1, h'.elsewhere other hs.2⟩

/-- The record is about the policy as it is present. -/
theorem upheld_policyAfter (reporter : Reporter) (ref : PolicyKey) :
    Upheld reporter ref fun es s =>
      ∃ p, policyAfter es ref = some p ∧ s.facts = p.facts ref.id.ns where
  lasting es := ⟨fun _ _ h => h, fun _ h => h⟩
  first about _ := ⟨_, policyAfter_snoc about, rfl⟩
  again about _ := ⟨_, policyAfter_snoc about, rfl⟩
  elsewhere other h := by
    obtain ⟨p, hp, facts⟩ := h
    exact ⟨p, (policyAfter_snoc_of_not_isAbout other).trans hp, facts⟩

namespace Tracker

variable {reporter : Reporter} {ref : PolicyKey} {es : List Event} {tr tr' : Tracker} {m : Moment}

/-- The facts that a tracker has of a policy are those of the policy as it is present. -/
theorem Reflects.policyAfter (h : tr.Reflects es) (ref : PolicyKey) :
    tr.facts.get? ref = (policyAfter es ref).map fun p => p.facts ref.id.ns := by
  rw [PolicyAttachment.policyAfter, Option.map_bind]
  refine (h.policies ref.kind ref.id.ns ref.id.name).trans ?_
  congr 1
  funext object
  exact object.facts?_eq ref.id.ns

/-- A policy that is seen is put into the tracker. -/
theorem handle_applied_of_isAbout {object : WatchedObject}
    (about : (Event.applied object).IsAbout ref) (h : tr.handle m (.applied object) = .ok tr') :
    ∃ p, object = .policy p ∧ tr' = tr.putPolicy m ref (p.facts ref.id.ns) := by
  obtain ⟨hns, -⟩ | ⟨ns, name, hns, hname, rfl⟩ := handle_applied h
  · simp [Event.IsAbout, Event.place?, hns] at about
  · simp only [Event.IsAbout, Event.place?, hns, hname, PolicyKey.place, Option.some.injEq,
      Prod.mk.injEq] at about
    obtain ⟨hkind, rfl, rfl⟩ := about
    cases object with
    | policy p =>
      refine ⟨p, rfl, ?_⟩
      simp only [WatchedObject.kind, WatchedKind.policy.injEq] at hkind
      simp only [putObject, hkind]
    | service metadata => cases hkind
    | gateway metadata => cases hkind
    | httpRoute metadata spec => cases hkind

/-- A policy that goes is taken out of the tracker. -/
theorem handle_deleted_of_isAbout {kind : WatchedKind} {ns name : String}
    (about : (Event.deleted kind ns name).IsAbout ref)
    (h : tr.handle m (.deleted kind ns name) = .ok tr') : tr' = tr.dropPolicy m ref := by
  simp only [Event.IsAbout, Event.place?, PolicyKey.place, Option.some.injEq, Prod.mk.injEq] at about
  obtain ⟨rfl, rfl, rfl⟩ := about
  cases h
  rfl

end Tracker

namespace Upheld

open Tracker (Follows follows_of_record follows_putPolicy follows_dropPolicy)

variable {reporter : Reporter} {ref : PolicyKey} {P : List Event → PolicyRecord → Prop}
  {es : List Event} {tr tr' : Tracker} {m : Moment}

/-- Seeing a policy upholds what is upheld. -/
theorem sighting (upheld : Upheld reporter ref P) (hreporter : tr.reporter = reporter)
    (reflects : tr.Reflects es) (record : ∀ s, tr.policies.get? ref = some s → P es s) {p : Policy}
    (about : (Event.applied (.policy p)).IsAbout ref) :
    P (es ++ [.applied (.policy p)]) (tr.sighting ref (p.facts ref.id.ns)).2 := by
  subst hreporter
  unfold Tracker.sighting
  cases hs : tr.policies.get? ref with
  | none =>
    have known := reflects.policyAfter ref
    rw [Tracker.get?_facts, hs, Option.map_none, eq_comm, Option.map_eq_none_iff] at known
    exact upheld.first about known
  | some old => exact upheld.again about (record old hs)

/-- Of what an event does, only what it says of the policy itself is not a matter of reviews. -/
theorem handle (upheld : Upheld reporter ref P) (hreporter : tr.reporter = reporter)
    (reflects : tr.Reflects es) (record : ∀ s, tr.policies.get? ref = some s → P es s) {e : Event}
    (h : tr.handle m e = .ok tr') :
    tr'.Follows reporter ref (P (es ++ [e])) tr.queue.waiting.length := by
  have lasting := upheld.lasting (es ++ [e])
  by_cases about : e.IsAbout ref
  · cases e with
    | applied object =>
      obtain ⟨p, rfl, rfl⟩ := Tracker.handle_applied_of_isAbout about h
      exact follows_putPolicy lasting hreporter (Nat.le_refl _)
        (upheld.sighting hreporter reflects record about)
    | deleted kind ns name =>
      rw [Tracker.handle_deleted_of_isAbout about h]
      exact follows_dropPolicy lasting hreporter (Nat.le_refl _)
  · have kept := follows_of_record hreporter (fun s hs => upheld.elsewhere about (record s hs))
      (Nat.le_refl _)
    exact kept.handle lasting (fun p _ => about) h

end Upheld

namespace Session

open Tracker (Follows follows_of_record Computed)

variable {reporter : Reporter} {ref : PolicyKey} {P : List Event → PolicyRecord → Prop}
  {es : List Event} {ps : List Pass} {s s' : Session} {now : Instant} {o : Occurrence}

/-- What follows when the policy `ref` is seen as `p`. -/
def sees (s : Session) (now : Instant) (ref : PolicyKey) (p : Policy) : Session :=
  { s with tracker := s.tracker.putPolicy (s.moment now) ref (p.facts ref.id.ns) }

/-- Seeing a policy never fails. -/
theorem step_sees {p : Policy} (about : (Event.applied (.policy p)).IsAbout ref) (s : Session)
    (now : Instant) : s.step now (.event (.applied (.policy p))) = .ok (s.sees now ref p) := by
  obtain ⟨hkind, hns, hname⟩ := Event.isAbout_policy_iff.1 about
  simp only [step, Tracker.handle, WatchedObject.metadata, hns, hname, Except.map,
    Tracker.putObject, hkind, sees]

/-- What `s'` has put into the queue since `s`. -/
def enqueued (s s' : Session) : List StatusChange :=
  s'.tracker.queue.waiting.drop s.tracker.queue.waiting.length

/-- One step upholds what is upheld, and what it sends about the policy was computed from such a
record. -/
theorem follows_of_upheld (upheld : Upheld reporter ref P)
    (hreporter : s.tracker.reporter = reporter) (reflects : s.tracker.Reflects es)
    (record : ∀ r, s.tracker.policies.get? ref = some r → P es r) (h : s.step now o = .ok s') :
    s'.tracker.Follows reporter ref (P (es ++ o.events)) s.tracker.queue.waiting.length := by
  -- only an event adds to the history; everything else is a matter of reviews
  by_cases isEvent : ∃ e, o = .event e
  · obtain ⟨e, rfl⟩ := isEvent
    obtain ⟨tr, ht, rfl⟩ := step_event h
    exact upheld.handle hreporter reflects record ht
  · have noEvent : o.events = [] := by
      cases o with
      | event e => exact absurd ⟨e, rfl⟩ isEvent
      | _ => rfl
    rw [noEvent, List.append_nil]
    refine follows_step (upheld.lasting es)
      (follows_of_record hreporter record (Nat.le_refl _)) ?_ h
    rintro ⟨p, rfl, -⟩
    exact isEvent ⟨_, rfl⟩

/-- In every run, the record of a policy has what is upheld. -/
theorem Run.upheld (run : Run reporter es ps s) (upheld : Upheld reporter ref P) :
    ∀ r, s.tracker.policies.get? ref = some r → P es r := by
  induction run with
  | start hostname claim capacity =>
    intro r hr
    cases hr
  | step run now o h ih =>
    exact (follows_of_upheld upheld run.reporter_eq run.reflects ih h).record
  | taken run n ih => exact ih

/-- In every run, each status of a policy that comes into the queue is computed from a record that has
what is upheld. -/
theorem Run.computed (run : Run reporter es ps s) (upheld : Upheld reporter ref P)
    (h : s.step now o = .ok s') {version : Option String} {status : WrittenStatus}
    (hm : (version, status) ∈ statusesOf ref (s.enqueued s')) :
    Computed reporter ref (P (es ++ o.events)) version status :=
  (follows_of_upheld upheld run.reporter_eq run.reflects (run.upheld upheld) h).waiting version
    status (mem_statusesOf_iff.1 hm)

end Session
end PolicyAttachment
