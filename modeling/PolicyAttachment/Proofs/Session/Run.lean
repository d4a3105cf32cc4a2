import PolicyAttachment.Session
import PolicyAttachment.Proofs.Tracker.Event

/-!
# Runs

`Session.Run` is what can become of an instance: it starts with nothing, occurrences follow one
another in any order and at any times, and now and then somebody takes changes out of the queue. A
run keeps account of the events and of the passes they led to. By `Session.Run.turn` every kind is
always as the last pass over it left it.
-/

namespace PolicyAttachment
set_option autoImplicit false

/-- The event that an occurrence is, if it is one. -/
def Occurrence.events : Occurrence → List Event
  | event e => [e]
  | _ => []

namespace Session

/-- The passes over all kinds, which only a leading instance makes. -/
def fullPasses (s : Session) (now : Instant) : List Pass :=
  if s.leads now then Tracker.passesOver (s.moment now) true PolicyKind.all s.tracker else []

/-- The passes that an occurrence leads to. -/
def passes (s : Session) (now : Instant) : Occurrence → List Pass
  | .event e => s.tracker.handlePasses (s.moment now) e
  | .tick => if s.followsClaims then s.fullPasses now else []
  | .claimed claim => if s.followsClaims then { s with claim }.fullPasses now else []
  | _ => []

/-- The session after its first `n` waiting changes were taken out of the queue. -/
def withTaken (s : Session) (n : Nat) : Session :=
  { s with tracker.queue.waiting := s.tracker.queue.waiting.drop n }

/-- The sessions of instances that report as `reporter`, with the events and passes so far. -/
inductive Run (reporter : Reporter) : List Event → List Pass → Session → Prop where
  | start (hostname : String) (claim : Claim) (capacity : Nat) :
      Run reporter [] [] (Session.start hostname claim reporter capacity)
  | step {es : List Event} {ps : List Pass} {s s' : Session} (run : Run reporter es ps s)
      (now : Instant) (o : Occurrence) (h : s.step now o = .ok s') :
      Run reporter (es ++ o.events) (ps ++ s.passes now o) s'
  | taken {es : List Event} {ps : List Pass} {s : Session} (run : Run reporter es ps s) (n : Nat) :
      Run reporter es ps (s.withTaken n)

variable {reporter : Reporter} {es : List Event} {ps : List Pass} {s s' : Session} {now : Instant}

open Tracker (Turn Nothing)

/-- What waits in the queue is no business of any kind. -/
theorem turn_queue (tr : Tracker) (queue : Queue) : Turn Nothing tr [] { tr with queue } :=
  ⟨rfl, fun h => ⟨h, by simp⟩, fun _ => .inr
    { reporter := rfl, essences := rfl, targets := fun _ _ _ _ _ _ => rfl
      routes := fun _ _ => rfl, marks := fun _ _ _ => rfl }⟩

/-- An instance that does not lead leaves its tracker as it is. -/
theorem tracker_fullPass (s : Session) (now : Instant) (leaseChanged : Bool) :
    (s.fullPass now leaseChanged).tracker =
      if s.leads now then s.tracker.fullPass (s.moment now) leaseChanged else s.tracker := by
  unfold fullPass
  by_cases hl : s.leads now
  · rw [if_pos hl, if_pos hl]
  · rw [if_neg hl, if_neg hl]

/-- A pass over all policies takes place or leaves all as it is. -/
theorem fullPass_cases (s : Session) (now : Instant) (leaseChanged : Bool) :
    ((s.fullPass now leaseChanged).tracker = s.tracker.fullPass ⟨now, true⟩ leaseChanged ∧
        s.fullPasses now = Tracker.passesOver ⟨now, true⟩ true PolicyKind.all s.tracker) ∨
      ((s.fullPass now leaseChanged).tracker = s.tracker ∧ s.fullPasses now = []) := by
  rw [tracker_fullPass, fullPasses, moment]
  cases s.leads now with
  | true => exact .inl ⟨rfl, rfl⟩
  | false => exact .inr ⟨rfl, rfl⟩

/-- An event is handled at the moment that it comes. -/
theorem step_event {e : Event} (h : s.step now (.event e) = .ok s') :
    ∃ tr, s.tracker.handle (s.moment now) e = .ok tr ∧ s' = { s with tracker := tr } := by
  simp only [step] at h
  cases ht : s.tracker.handle (s.moment now) e with
  | error x =>
    rw [ht] at h
    cases h
  | ok tr =>
    rw [ht] at h
    cases h
    exact ⟨tr, rfl, rfl⟩

/-- An occurrence is an event, or goes over all policies, or does no more than close the queue. -/
theorem step_cases {o : Occurrence} (h : s.step now o = .ok s') :
    (∃ e, o = .event e ∧ s.tracker.handle (s.moment now) e = .ok s'.tracker) ∨
    (o.events = [] ∧ s.passes now o = Tracker.passesOver ⟨now, true⟩ true PolicyKind.all s.tracker ∧
      ∃ leaseChanged, s'.tracker = s.tracker.fullPass ⟨now, true⟩ leaseChanged) ∨
    (o.events = [] ∧ s.passes now o = [] ∧
      (s'.tracker = s.tracker ∨ s'.tracker = { s.tracker with queue := s.tracker.queue.close })) := by
  cases o with
  | event e =>
    obtain ⟨tr, ht, rfl⟩ := step_event h
    exact .inl ⟨e, rfl, ht⟩
  | tick =>
    cases h
    unfold passes
    split
    · rcases fullPass_cases s now false with ⟨tracker, passes⟩ | ⟨tracker, passes⟩
      · exact .inr (.inl ⟨rfl, passes, false, tracker⟩)
      · exact .inr (.inr ⟨rfl, passes, .inl tracker⟩)
    · exact .inr (.inr ⟨rfl, rfl, .inl rfl⟩)
  | claimed claim =>
    cases h
    unfold passes
    split
    · rcases fullPass_cases { s with claim } now true with ⟨tracker, passes⟩ | ⟨tracker, passes⟩
      · exact .inr (.inl ⟨rfl, passes, true, tracker⟩)
      · exact .inr (.inr ⟨rfl, passes, .inl tracker⟩)
    · exact .inr (.inr ⟨rfl, rfl, .inl rfl⟩)
  | claimsClosed =>
    cases h
    exact .inr (.inr ⟨rfl, rfl, .inl rfl⟩)
  | queueClosed =>
    cases h
    exact .inr (.inr ⟨rfl, rfl, .inr rfl⟩)
  | nothing =>
    cases h
    exact .inr (.inr ⟨rfl, rfl, .inl rfl⟩)

/-- An occurrence reviews policies in its passes and in no other way. -/
theorem turn_step (sound : s.tracker.Sound) {o : Occurrence} (h : s.step now o = .ok s') :
    Turn Nothing s.tracker (s.passes now o) s'.tracker := by
  rcases step_cases h with ⟨e, rfl, handled⟩ | ⟨-, passes, leaseChanged, after⟩ |
    ⟨-, passes, after | after⟩
  · exact Tracker.turn_handle sound handled
  · rw [passes, after]
    exact Tracker.turn_fullPass _ leaseChanged s.tracker
  · rw [passes, after]
    exact .refl s.tracker
  · rw [passes, after]
    exact turn_queue s.tracker s.tracker.queue.close

theorem turn_withTaken (s : Session) (n : Nat) :
    Turn Nothing s.tracker [] (s.withTaken n).tracker :=
  turn_queue s.tracker _

theorem sound_empty (reporter : Reporter) (capacity : Nat) :
    (Tracker.empty reporter capacity).Sound := by
  intro ref s hs
  cases hs

/-- In every run, every kind is as the last pass over it left it. -/
theorem Run.turn (run : Run reporter es ps s) :
    ∃ capacity, Turn Nothing (.empty reporter capacity) ps s.tracker := by
  induction run with
  | start hostname claim capacity => exact ⟨capacity, .refl _⟩
  | step run now o h ih =>
    obtain ⟨capacity, turn⟩ := ih
    exact ⟨capacity, turn.trans (turn_step (turn.sound (sound_empty reporter capacity)).1 h)⟩
  | taken run n ih =>
    obtain ⟨capacity, turn⟩ := ih
    have taken := turn.trans (turn_withTaken _ n)
    rw [List.append_nil] at taken
    exact ⟨capacity, taken⟩

/-- In every run the tracker is sound. -/
theorem Run.sound (run : Run reporter es ps s) : s.tracker.Sound := by
  obtain ⟨capacity, turn⟩ := run.turn
  exact (turn.sound (sound_empty reporter capacity)).1

theorem Run.reporter_eq (run : Run reporter es ps s) : s.tracker.reporter = reporter := by
  obtain ⟨capacity, turn⟩ := run.turn
  exact turn.reporter

end Session

/-! A policy that finds its status almost full when it is first seen. -/

namespace Sample

def ours : ControllerName := ⟨"networking.gke.io/gateway", rfl⟩

def reporter : Reporter := ⟨ours, .reject⟩

def service (name : String) : Target := ⟨"", "Service", "ns", name⟩

/-- An entry without conditions that `writer` stored for a Service. -/
def stored (writer name : String) : AncestorStatus :=
  ⟨(service name).ancestorRef.toParent, writer, []⟩

def key : PolicyKey := ⟨.trafficDistribution, ⟨"ns", "p"⟩⟩

def policy (version : String) (services : List String) (ancestors : List AncestorStatus) :
    Policy :=
  .trafficDistribution
    { metadata :=
        { (default : Metadata) with
          ns := some "ns", name := some "p", resourceVersion := some version }
      spec := ⟨services.map fun name => ⟨"", "Service", name⟩, none⟩
      status := some ⟨ancestors⟩ }

def now : Instant := ⟨0, 0⟩

/-- An instance that leads and has seen nothing. -/
def start : Session := .start "h" ⟨"h", none⟩ reporter 100

/-- Entries of another controller for `n` Services. -/
def others (n : Nat) : List AncestorStatus :=
  (List.range n).map fun i => stored "example.net/mesh" (toString i)

/-- Targets "b" and "c", and an entry of ours for "a" that is out of date. -/
def crowded : Policy := policy "1" ["b", "c"] (others 14 ++ [stored ours.text "a"])

/-- The instance that has seen the policy. -/
def seen : Session :=
  { start with tracker := start.tracker.putPolicy (start.moment now) key (crowded.facts "ns") }

theorem run_seen : Session.Run reporter [.applied (.policy crowded)]
    (start.passes now (.event (.applied (.policy crowded)))) seen :=
  .step (.start "h" ⟨"h", none⟩ 100) now (.event (.applied (.policy crowded))) rfl

end Sample
end PolicyAttachment
