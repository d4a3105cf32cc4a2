import PolicyAttachment.Proofs.Session.Run
import PolicyAttachment.Proofs.Tracker.View

/-!
# What is computed depends on the inputs alone

`Tracker.Fed` is what can become of a tracker: it starts with nothing and takes inputs, events and
passes over all policies, each at the time that it reads from the clock. Its instance may lead or not
at each of them, and the queue may be any queue before the next one. By `Tracker.Fed.same_view` two
trackers that report as one controller and took the same inputs at the same times hold the same.

A pass over all policies is an input here like any event, and reads the clock like any event. Only a
session that leads makes such passes (`Session.fullPass`), so when they come is not independent of who
leads: `Session.inputs` says which inputs an occurrence leads to, and by `Session.Run.exists_fed`
nothing else can happen in a session. What becomes of two instances of which one makes a pass and the
other does not is shown at the end.
-/

namespace PolicyAttachment
set_option autoImplicit false

/-- What a tracker can be asked to do. -/
inductive Input where
  | event (event : Event)
  /-- All policies are to be gone over again. -/
  | reconcile

def Input.event? : Input → Option Event
  | event e => some e
  | reconcile => none

namespace Tracker

/-- The tracker after an input. -/
def take (tr : Tracker) (m : Moment) (leaseChanged : Bool) : Input → Except Unnamed Tracker
  | .event e => tr.handle m e
  | .reconcile => .ok (tr.fullPass m leaseChanged)

/-- The trackers that report as `reporter`, with the inputs so far and when they came. -/
inductive Fed (reporter : Reporter) : List (Instant × Input) → Tracker → Prop where
  | start (capacity : Nat) : Fed reporter [] (.empty reporter capacity)
  | take {inputs : List (Instant × Input)} {tr tr' : Tracker} (fed : Fed reporter inputs tr)
      (m : Moment) (leaseChanged : Bool) (input : Input) (h : tr.take m leaseChanged input = .ok tr') :
      Fed reporter (inputs ++ [(m.now, input)]) tr'
  /-- Whatever happens to the queue. -/
  | queued {inputs : List (Instant × Input)} {tr : Tracker} (fed : Fed reporter inputs tr)
      (queue : Queue) : Fed reporter inputs { tr with queue }

/-- The tracker after some inputs, if its instance never leads. -/
def silent (controller : ControllerName) (inputs : List (Instant × Input)) :
    Except Unnamed Tracker :=
  inputs.foldlM (fun tr (now, input) => tr.take ⟨now, false⟩ false input)
    (.empty ⟨controller, .reject⟩ 0)

theorem silent_snoc (controller : ControllerName) (inputs : List (Instant × Input)) (now : Instant)
    (input : Input) : silent controller (inputs ++ [(now, input)]) =
      (silent controller inputs).bind fun tr => tr.take ⟨now, false⟩ false input := by
  rw [silent, List.foldlM_append, silent]
  exact bind_congr fun tr => by simp

variable {tr tr' : Tracker} {a b reporter : Reporter} {inputs : List (Instant × Input)}

/-- An input at one time leaves one view, whoever leads. -/
theorem SameView.take {m m' : Moment} {leaseChanged : Bool} {input : Input} {next : Tracker}
    (h : SameView tr tr') (taken : tr.take m leaseChanged input = .ok next) (leaseChanged' : Bool)
    (clock : m'.now = m.now) :
    ∃ next', tr'.take m' leaseChanged' input = .ok next' ∧ SameView next next' := by
  cases input with
  | event e => exact h.handle clock taken
  | reconcile =>
    simp only [Tracker.take, Except.ok.injEq] at taken ⊢
    subst taken
    exact ⟨_, rfl, h.fullPass clock leaseChanged leaseChanged'⟩

/-- Every tracker looks like the one that took the same inputs and never sent anything. -/
theorem Fed.exists_silent (fed : Fed reporter inputs tr) :
    ∃ quiet, silent reporter.controller inputs = .ok quiet ∧ SameView tr quiet := by
  induction fed with
  | start capacity => exact ⟨_, rfl, rfl, rfl, rfl, rfl, rfl, rfl⟩
  | take fed m leaseChanged input h ih =>
    obtain ⟨quiet, run, same⟩ := ih
    obtain ⟨quiet', taken, same'⟩ := same.take h false (rfl : (⟨m.now, false⟩ : Moment).now = m.now)
    refine ⟨quiet', ?_, same'⟩
    rw [silent_snoc, run]
    exact taken
  | queued fed queue ih =>
    obtain ⟨quiet, run, same⟩ := ih
    exact ⟨quiet, run, { same with }⟩

/-- After the same inputs at the same times, two trackers of one controller hold the same facts,
registers, conditions and stored statuses, targets, routes and marks, whoever led at which input,
whatever their queues took and whichever rule they have for conditions that do not fit. The passes over
all policies are among the inputs: a session makes one only while it leads, and nothing is said here of
two of which only one does. -/
theorem Fed.same_view (fed : Fed a inputs tr) (fed' : Fed b inputs tr')
    (same : b.controller = a.controller) : SameView tr tr' := by
  obtain ⟨quiet, run, view⟩ := fed.exists_silent
  obtain ⟨quiet', run', view'⟩ := fed'.exists_silent
  rw [same, run] at run'
  cases run'
  exact view.trans view'.symm

end Tracker

namespace Session

open Tracker (Fed)

variable {reporter : Reporter} {es : List Event} {ps : List Pass} {s s' : Session}

/-- The pass over all policies, which is an input to the tracker of an instance that leads and to no
other one. -/
def fullPassInput (s : Session) (now : Instant) : List (Instant × Input) :=
  if s.leads now then [(now, .reconcile)] else []

/-- The inputs that an occurrence is to the tracker of a session. -/
def inputs (s : Session) (now : Instant) : Occurrence → List (Instant × Input)
  | .event e => [(now, .event e)]
  | .tick => if s.followsClaims then s.fullPassInput now else []
  | .claimed claim => if s.followsClaims then { s with claim }.fullPassInput now else []
  | .claimsClosed | .queueClosed | .nothing => []

/-- Of the inputs that an occurrence is, the events are its own. -/
theorem filterMap_event?_inputs (s : Session) (now : Instant) (o : Occurrence) :
    (s.inputs now o).filterMap (fun i => i.2.event?) = o.events := by
  have none_of_fullPass : ∀ s : Session,
      (s.fullPassInput now).filterMap (fun i => i.2.event?) = [] := by
    intro s
    unfold fullPassInput
    split <;> rfl
  cases o with
  | tick =>
    simp only [inputs, Occurrence.events]
    split
    · exact none_of_fullPass s
    · rfl
  | claimed claim =>
    simp only [inputs, Occurrence.events]
    split
    · exact none_of_fullPass _
    · rfl
  | event | claimsClosed | queueClosed | nothing => rfl

theorem fed_fullPass {inputs : List (Instant × Input)} (fed : Fed reporter inputs s.tracker)
    (now : Instant) (leaseChanged : Bool) :
    Fed reporter (inputs ++ s.fullPassInput now) (s.fullPass now leaseChanged).tracker := by
  rw [tracker_fullPass, fullPassInput]
  split
  · exact fed.take (s.moment now) leaseChanged .reconcile rfl
  · rwa [List.append_nil]

/-- Beyond its inputs an occurrence changes no more than the queue. -/
theorem fed_step {inputs : List (Instant × Input)} {now : Instant} {o : Occurrence}
    (fed : Fed reporter inputs s.tracker) (h : s.step now o = .ok s') :
    Fed reporter (inputs ++ s.inputs now o) s'.tracker := by
  have unchanged : Fed reporter (inputs ++ []) s.tracker := by rwa [List.append_nil]
  cases o with
  | event e =>
    obtain ⟨tr, handled, rfl⟩ := step_event h
    exact fed.take (s.moment now) false (.event e) handled
  | tick =>
    cases h
    simp only [Session.inputs]
    split
    · exact fed_fullPass fed now false
    · exact unchanged
  | claimed claim =>
    cases h
    simp only [Session.inputs]
    split
    · exact fed_fullPass (s := { s with claim }) fed now true
    · exact unchanged
  | queueClosed =>
    cases h
    exact unchanged.queued _
  | claimsClosed | nothing =>
    cases h
    exact unchanged

/-- The tracker of a session has taken inputs, its events among them. -/
theorem Run.exists_fed (run : Run reporter es ps s) :
    ∃ inputs : List (Instant × Input), inputs.filterMap (fun i => i.2.event?) = es ∧
      Fed reporter inputs s.tracker := by
  induction run with
  | start hostname claim capacity => exact ⟨[], rfl, .start capacity⟩
  | @step es ps s s' run now o h ih =>
    obtain ⟨inputs, rfl, fed⟩ := ih
    refine ⟨inputs ++ s.inputs now o, ?_, fed_step fed h⟩
    rw [List.filterMap_append, filterMap_event?_inputs]
  | taken run n ih =>
    obtain ⟨inputs, events, fed⟩ := ih
    exact ⟨inputs, events, fed.queued _⟩

end Session

namespace Tracker

/-- An instance that never leads and has no queue to speak of. -/
def mute : Tracker :=
  (Tracker.empty ⟨Sample.ours, .displaceOldest⟩ 0).putPolicy ⟨Sample.now, false⟩ Sample.key
    (Sample.crowded.facts "ns")

/-- A leading instance sends the status of a policy, a mute one computes the same. -/
theorem same_view_mute :
    SameView Sample.seen.tracker mute ∧ Sample.seen.tracker.queue.waiting ≠ [] ∧
      mute.queue.waiting = [] := by
  refine ⟨?_, by decide +kernel, by decide +kernel⟩
  apply Fed.same_view (a := Sample.reporter) (b := ⟨Sample.ours, .displaceOldest⟩)
  · exact .take (.start 100) (Sample.start.moment Sample.now) false
      (.event (.applied (.policy Sample.crowded))) rfl
  · exact .take (.start 0) ⟨Sample.now, false⟩ false (.event (.applied (.policy Sample.crowded))) rfl
  · rfl

/-- A tick of the clock parts the two. The leader passes over its policies and records "c", for which
there is room since the entry for "a" is gone; the other one makes no pass and keeps "c" marked. -/
example :
    let follower : Session := ⟨"f", ⟨"h", none⟩, true, mute⟩
    Sample.seen.inputs Sample.now .tick = [(Sample.now, .reconcile)] ∧
      follower.inputs Sample.now .tick = [] ∧
      (Sample.seen.fullPass Sample.now false).tracker.markOf? (Sample.service "c") Sample.key = none ∧
      ((follower.fullPass Sample.now false).tracker.markOf? (Sample.service "c") Sample.key).isSome := by
  refine ⟨rfl, rfl, ?_, ?_⟩ <;> decide +kernel

end Tracker
end PolicyAttachment
