import PolicyAttachment.Proofs.Session.History
import PolicyAttachment.Proofs.Tracker.Flags

/-!
# The log of a run

A log notes the events of a run and the changes that were put into the queue, in their order. What the
tracker remembers of the changes for one object is what the log says of them, after every occurrence
and before every stage of one: `Session.Logged.accounts` and `Session.accounts_entered`.
-/

namespace PolicyAttachment
set_option autoImplicit false

/-- What is noted in a log. -/
inductive Note where
  | event (e : Event)
  | enqueued (change : StatusChange)

/-- The events in a log. -/
def eventsIn (log : List Note) : List Event :=
  log.filterMap fun
    | .event e => some e
    | .enqueued _ => none

/-- The changes that were enqueued. -/
def changesIn (log : List Note) : List StatusChange :=
  log.filterMap fun
    | .enqueued change => some change
    | .event _ => none

section Logs

variable {log later : List Note}

@[simp] theorem eventsIn_append :
    eventsIn (log ++ later) = eventsIn log ++ eventsIn later :=
  List.filterMap_append

@[simp] theorem eventsIn_map_event (es : List Event) : eventsIn (es.map .event) = es := by
  induction es with
  | nil => rfl
  | cons e es ih => exact congrArg (e :: ·) ih

@[simp] theorem eventsIn_map_enqueued (changes : List StatusChange) :
    eventsIn (changes.map .enqueued) = [] := by
  induction changes with
  | nil => rfl
  | cons change changes ih => exact ih

@[simp] theorem changesIn_append :
    changesIn (log ++ later) = changesIn log ++ changesIn later :=
  List.filterMap_append

@[simp] theorem changesIn_map_event (es : List Event) : changesIn (es.map .event) = [] := by
  induction es with
  | nil => rfl
  | cons e es ih => exact ih

@[simp] theorem changesIn_map_enqueued (changes : List StatusChange) :
    changesIn (changes.map .enqueued) = changes := by
  induction changes with
  | nil => rfl
  | cons change changes ih => exact congrArg (change :: ·) ih

end Logs

namespace Channel

variable {α β : Type} {c : Channel α β} {ends : Event → Bool} {log : List Note}

/-- What a note leaves to be remembered. -/
def noted (c : Channel α β) (ends : Event → Bool) (last : Option β) : Note → Option β
  | .event e => if ends e then none else last
  | .enqueued change => c.after last (c.pick change).toList

/-- What the last change for the object says. Certain events end what was there before. -/
def lastNoted (c : Channel α β) (ends : Event → Bool) (log : List Note) : Option β :=
  log.foldl (c.noted ends) none

theorem lastNoted_append_event (c : Channel α β) (ends : Event → Bool) (log : List Note) (e : Event) :
    c.lastNoted ends (log ++ [.event e]) = if ends e then none else c.lastNoted ends log := by
  rw [lastNoted, List.foldl_append]
  rfl

theorem filterMap_pick_cons (c : Channel α β) (change : StatusChange) (changes : List StatusChange) :
    (change :: changes).filterMap c.pick = (c.pick change).toList ++ changes.filterMap c.pick := by
  cases h : c.pick change <;> simp [h]

/-- Where no event ends anything, only the changes matter. -/
theorem foldl_noted (c : Channel α β) (log : List Note) (last : Option β) :
    log.foldl (c.noted fun _ => false) last = c.after last ((changesIn log).filterMap c.pick) := by
  induction log generalizing last with
  | nil => rfl
  | cons note log ih =>
    rw [List.foldl_cons, ih]
    cases note with
    | event e => rfl
    | enqueued change =>
      have split : changesIn (.enqueued change :: log) = change :: changesIn log := rfl
      rw [split, filterMap_pick_cons, after_append, noted]

/-- The changes that are enqueued are remembered one after the other. -/
theorem lastNoted_append_enqueued (c : Channel α β) (ends : Event → Bool) (log : List Note)
    (changes : List StatusChange) :
    c.lastNoted ends (log ++ changes.map .enqueued) =
      c.after (c.lastNoted ends log) (changes.filterMap c.pick) := by
  rw [lastNoted, List.foldl_append, ← lastNoted]
  generalize c.lastNoted ends log = last
  induction changes generalizing last with
  | nil => rfl
  | cons change changes ih =>
    rw [List.map_cons, List.foldl_cons, ih, filterMap_pick_cons, after_append, noted]

/-- The tracker remembers what the log says, together with the changes behind the first `n` that wait.
-/
structure Tells (c : Channel α β) (ends : Event → Bool) (log : List Note) (n : Nat)
    (tr : Tracker) : Prop where
  behind : n ≤ tr.queue.waiting.length
  memory : c.memory tr = c.lastNoted ends (log ++ (tr.queue.waiting.drop n).map .enqueued)

/-- With nothing behind it, the log says all. -/
theorem Tells.memory_eq {tr : Tracker} (h : c.Tells ends log tr.queue.waiting.length tr) :
    c.memory tr = c.lastNoted ends log := by
  rw [h.memory, List.drop_length, List.map_nil, List.append_nil]

theorem tells_of_memory (tr : Tracker) (h : c.memory tr = c.lastNoted ends log) :
    c.Tells ends log tr.queue.waiting.length tr :=
  ⟨Nat.le_refl _, by rw [h, List.drop_length, List.map_nil, List.append_nil]⟩

/-- A tracker that relays changes goes on telling what the log says. -/
theorem Tells.relays {n : Nat} {tr tr' : Tracker} {leads : Bool} {offered : List α}
    (h : c.Tells ends log n tr) (relays : c.Relays leads offered tr tr') :
    c.Tells ends log n tr' := by
  obtain ⟨new, waiting, -, -, memory⟩ := relays.taken
  have behind := h.behind
  refine ⟨by rw [waiting, List.length_append]; omega, ?_⟩
  rw [waiting, List.drop_append_of_le_length behind, List.map_append, ← List.append_assoc,
    lastNoted_append_enqueued, ← h.memory, memory]

end Channel

/-- The policy goes. -/
def Event.ends (ref : PolicyKey) (e : Event) : Bool :=
  e.place? = some ref.place && e.object?.isNone

/-- The status last enqueued for a policy since it was last deleted, with its version. -/
def lastSent (ref : PolicyKey) (log : List Note) : Option (Option String × WrittenStatus) :=
  (Channel.status ref).lastNoted (Event.ends ref) log

/-- The message last shown on a target and not cleared since. -/
def lastShown (t : Target) (log : List Note) : Option String :=
  (Channel.flag t).lastNoted (fun _ => false) log

/-- The conditions that some changes show on a target, where `none` clears what was there. -/
def flagsOf (t : Target) (changes : List StatusChange) : List (Option Condition) :=
  changes.filterMap (Channel.flag t).pick

/-- The message is that of the last change, if there is one and it shows anything. -/
theorem lastShown_eq (t : Target) (log : List Note) :
    lastShown t log =
      (flagsOf t (changesIn log)).getLast?.bind fun c => c.map Condition.message := by
  rw [lastShown, Channel.lastNoted, Channel.foldl_noted, Channel.after, flagsOf]
  cases ((changesIn log).filterMap (Channel.flag t).pick).getLast? <;> rfl

namespace Tracker

variable {log : List Note} {n : Nat} {m : Moment} {tr tr' : Tracker}

/-- Every record holds the status that was stored in the object as last seen. -/
def HoldsStored (tr : Tracker) : Prop :=
  ∀ ref r, tr.policies.get? ref = some r →
    r.stored = .of ref.kind r.facts.storedAncestors r.facts.storedConditions

/-- Reviews leave what was stored. -/
theorem HoldsStored.of_records {now : Instant} {kind : PolicyKind} (h : tr.HoldsStored)
    (records : tr'.policies.mapValues (fun _ => PolicyRecord.atRest) =
      tr.policies.mapValues fun ref r => (tr.reviewIn now kind ref r).state.atRest) :
    tr'.HoldsStored := by
  intro ref r' hr'
  obtain ⟨r, hr, rest⟩ := Table.get?_eq_some_of_mapValues records.symm hr'
  have facts : (tr.reviewIn now kind ref r).state.facts = r'.facts :=
    congrArg (fun s => s.facts) rest
  have stored : (tr.reviewIn now kind ref r).state.stored = r'.stored :=
    congrArg (fun s => s.stored) rest
  have same : (tr.reviewIn now kind ref r).state.stored = r.stored := by
    unfold reviewIn
    split <;> rfl
  rw [← facts, ← stored, facts_reviewIn, same]
  exact h ref r hr

/-- What is stored is taken down when a policy is seen. -/
theorem HoldsStored.entered (h : tr.HoldsStored) (e : Event) : (tr.entered e).HoldsStored := by
  intro ref r hr
  rcases record_of_entered hr with hr | ⟨p, ns, rfl⟩
  · exact h ref r hr
  · unfold sighting
    split <;> rfl

/-- All that the tracker remembers of what was enqueued is as the log says, the records hold what is
stored, and the ancestors are in order. -/
structure Accounts (log : List Note) (n : Nat) (tr : Tracker) : Prop where
  sent : ∀ ref, (Channel.status ref).Tells (Event.ends ref) log n tr
  shown : ∀ t, (Channel.flag t).Tells (fun _ => false) log n tr
  stored : tr.HoldsStored
  carry : tr.FlaggedCarry
  filled : tr.MarksFilled

/-- Every stage accounts for what it enqueues. -/
theorem keeps_accounts (log : List Note) (n : Nat) (m : Moment) :
    Stage.Keeps m (Accounts log n) where
  place h _ _ :=
    { sent := fun ref => ⟨(h.sent ref).behind, (h.sent ref).memory⟩
      shown := fun t => ⟨(h.shown t).behind, (h.shown t).memory⟩
      stored := h.stored, carry := h.carry, filled := h.filled }
  pass {tr} h retry kind :=
    { sent := fun ref => (h.sent ref).relays (relays_status_passOver m retry tr kind ref)
      shown := fun t => (h.shown t).relays (relays_flag_passOver m retry tr kind t)
      stored := h.stored.of_records (passed_passOver m retry tr kind).records
      carry := (keeps_flaggedCarry m).pass h.carry retry kind
      filled := (keeps_marksFilled m).pass h.filled retry kind }
  sync {tr} h force :=
    { sent := fun ref => (h.sent ref).relays (relays_status_syncFlags m force tr ref)
      shown := fun t => (h.shown t).relays (relays_flag_syncFlags m force h.carry t)
      stored := by
        obtain ⟨offered, -, -, same⟩ := sendsFlags_syncFlags m force tr
        intro ref r hr
        rw [same] at hr
        exact h.stored ref r hr
      carry := (keeps_flaggedCarry m).sync h.carry force
      filled := (keeps_marksFilled m).sync h.filled force }

/-- No stage touches the facts about the policies. -/
theorem keeps_facts (facts : Table PolicyKey PolicyFacts) (m : Moment) :
    Stage.Keeps m fun tr => tr.facts = facts where
  place h _ _ := h
  pass {tr} h retry kind := (sameObjects_passOver m retry tr kind).facts.trans h
  sync {tr} h force := (sameObjects_syncFlags m force tr).facts.trans h

/-- Once the changes that wait are noted, there are none to be told apart. -/
theorem Accounts.caughtUp (h : Accounts log n tr) :
    Accounts (log ++ (tr.queue.waiting.drop n).map .enqueued) tr.queue.waiting.length tr where
  sent ref := Channel.tells_of_memory tr (h.sent ref).memory
  shown t := Channel.tells_of_memory tr (h.shown t).memory
  stored := h.stored
  carry := h.carry
  filled := h.filled

/-- Another queue has no part in it once all is noted. -/
theorem Accounts.withQueue (h : Accounts log tr.queue.waiting.length tr) (queue : Queue) :
    Accounts log queue.waiting.length { tr with queue } where
  sent ref := Channel.tells_of_memory { tr with queue } (h.sent ref).memory_eq
  shown t := Channel.tells_of_memory { tr with queue } (h.shown t).memory_eq
  stored := h.stored
  carry := h.carry
  filled := h.filled

/-- What is pending for a policy outlasts every sighting. -/
theorem memory_sighted (tr : Tracker) (seen : PolicyKey) (facts : PolicyFacts) (ref : PolicyKey) :
    (Channel.status ref).memory (tr.sighted seen facts) = (Channel.status ref).memory tr := by
  simp only [Channel.status, sighted, Table.get?_insert]
  split
  · rename_i heq
    rw [heq, Option.bind_some]
    unfold sighting
    cases tr.policies.get? seen <;> rfl
  · rfl

/-- What is pending for a policy outlasts whatever event does not end the policy. -/
theorem memory_entered (tr : Tracker) (e : Event) (ref : PolicyKey) :
    (Channel.status ref).memory (tr.entered e) =
      if e.ends ref then none else (Channel.status ref).memory tr := by
  cases e with
  | applied object =>
    have lasts : (Event.applied object).ends ref = false := by
      simp [Event.ends, Event.object?]
    rw [lasts, if_neg Bool.false_ne_true]
    cases object with
    | policy p =>
      simp only [entered]
      split
      · exact memory_sighted _ _ _ ref
      · rfl
    | service metadata => rfl
    | gateway metadata => rfl
    | httpRoute metadata spec => rfl
  | deleted kind ns name =>
    cases kind with
    | policy kind =>
      have ends : (Event.deleted (.policy kind) ns name).ends ref = true ↔
          ref = ⟨kind, ⟨ns, name⟩⟩ := by
        have place : (Event.deleted (.policy kind) ns name).place? =
            some (PolicyKey.place ⟨kind, ⟨ns, name⟩⟩) := rfl
        simp only [Event.ends, place, Event.object?, Option.isNone_none, Bool.and_true,
          decide_eq_true_eq, Option.some.injEq, PolicyKey.place_injective.eq_iff]
        exact eq_comm
      simp only [Channel.status, entered, Table.get?_erase, ends]
      split <;> rfl
    | service => rfl
    | gateway => rfl
    | httpRoute => rfl

/-- Entering an event changes the records of policies alone. -/
theorem entered_eq (tr : Tracker) (e : Event) :
    tr.entered e = { tr with policies := (tr.entered e).policies } := by
  cases e with
  | applied object =>
    simp only [entered]
    split <;> rfl
  | deleted kind ns name => cases kind <;> rfl

theorem queue_entered (tr : Tracker) (e : Event) : (tr.entered e).queue = tr.queue := by
  rw [entered_eq]

/-- Entering an event is accounted for by noting it. -/
theorem Accounts.entered (h : Accounts log tr.queue.waiting.length tr) (e : Event) :
    Accounts (log ++ [.event e]) tr.queue.waiting.length (tr.entered e) := by
  have heq := tr.entered_eq e
  have queue := tr.queue_entered e
  have flagged : (tr.entered e).flagged = tr.flagged := by rw [heq]
  have marks : (tr.entered e).marks = tr.marks := by rw [heq]
  rw [← queue]
  refine ⟨?_, ?_, h.stored.entered e, ?_, ?_⟩
  · intro ref
    apply Channel.tells_of_memory
    rw [Channel.lastNoted_append_event, memory_entered, (h.sent ref).memory_eq]
  · intro t
    apply Channel.tells_of_memory
    rw [Channel.lastNoted_append_event, if_neg Bool.false_ne_true, ← (h.shown t).memory_eq]
    exact congrArg (Table.get? · t) flagged
  · intro t shown
    rw [flagged] at shown
    exact h.carry t shown
  · intro t ms hms
    rw [marks] at hms
    exact h.filled t ms hms

end Tracker

namespace Session

variable {reporter : Reporter} {log : List Note} {s s' : Session} {now : Instant} {o : Occurrence}

/-- The stages of the pass over all policies, which only a leading instance makes. -/
def fullStages (s : Session) (now : Instant) (leaseChanged : Bool) : List Stage :=
  if s.leads now then Stage.full leaseChanged else []

/-- The stages that an occurrence leads to. -/
def stages (s : Session) (now : Instant) : Occurrence → List Stage
  | .event e => s.tracker.stages (s.moment now) e
  | .tick => if s.followsClaims then s.fullStages now false else []
  | .claimed claim => if s.followsClaims then { s with claim }.fullStages now true else []
  | _ => []

/-- The tracker that the stages of an occurrence start from. -/
def entered (s : Session) : Occurrence → Tracker
  | .event e => s.tracker.entered e
  | .queueClosed => { s.tracker with queue := s.tracker.queue.close }
  | _ => s.tracker

/-- The moment of the stages of an occurrence. -/
def momentOf (s : Session) (now : Instant) : Occurrence → Moment
  | .claimed claim => { s with claim }.moment now
  | _ => s.moment now

/-- The times that an occurrence leads to the conditions on ancestors being brought up to date. -/
def syncs (s : Session) (now : Instant) (o : Occurrence) : List Sync :=
  Stage.syncs (s.momentOf now o) (s.entered o) (s.stages now o)

/-- The stages of a pass over all policies come to this pass. -/
theorem runAll_fullStages (s : Session) (now : Instant) (leaseChanged : Bool) :
    Stage.runAll (s.moment now) s.tracker (s.fullStages now leaseChanged) =
      (s.fullPass now leaseChanged).tracker := by
  rw [tracker_fullPass, fullStages]
  split
  · exact Stage.runAll_full _ _ _
  · rfl

/-- An occurrence is no more than its stages. -/
theorem tracker_step (h : s.step now o = .ok s') :
    s'.tracker = Stage.runAll (s.momentOf now o) (s.entered o) (s.stages now o) := by
  cases o with
  | event e =>
    obtain ⟨tr, ht, rfl⟩ := step_event h
    exact Tracker.handle_eq ht
  | tick =>
    cases h
    unfold stages
    split
    · exact (runAll_fullStages s now false).symm
    · rfl
  | claimed claim =>
    cases h
    unfold stages
    split
    · exact (runAll_fullStages { s with claim } now true).symm
    · rfl
  | claimsClosed =>
    cases h
    rfl
  | queueClosed =>
    cases h
    rfl
  | nothing =>
    cases h
    rfl

/-- What an occurrence adds to the log by the time that the tracker has become `tr`. -/
def notes (s : Session) (o : Occurrence) (tr : Tracker) : List Note :=
  o.events.map .event ++
    (tr.queue.waiting.drop s.tracker.queue.waiting.length).map .enqueued

/-- The sessions of instances that report as `reporter`, with the log so far. -/
inductive Logged (reporter : Reporter) : List Note → Session → Prop where
  | start (hostname : String) (claim : Claim) (capacity : Nat) :
      Logged reporter [] (Session.start hostname claim reporter capacity)
  | step {log : List Note} {s s' : Session} (logged : Logged reporter log s) (now : Instant)
      (o : Occurrence) (h : s.step now o = .ok s') :
      Logged reporter (log ++ s.notes o s'.tracker) s'
  | taken {log : List Note} {s : Session} (logged : Logged reporter log s) (n : Nat) :
      Logged reporter log (s.withTaken n)

/-- The changes that are noted are those put into the queue. -/
theorem changesIn_notes (s s' : Session) (o : Occurrence) :
    changesIn (s.notes o s'.tracker) = s.enqueued s' := by
  rw [notes, changesIn_append, changesIn_map_event, changesIn_map_enqueued]
  rfl

theorem eventsIn_notes (s : Session) (o : Occurrence) (tr : Tracker) :
    eventsIn (s.notes o tr) = o.events := by
  rw [notes, eventsIn_append, eventsIn_map_event, eventsIn_map_enqueued, List.append_nil]

/-- A log is one of a run over its events. -/
theorem Logged.run (logged : Logged reporter log s) : ∃ ps, Run reporter (eventsIn log) ps s := by
  induction logged with
  | start hostname claim capacity => exact ⟨[], .start hostname claim capacity⟩
  | step logged now o h ih =>
    obtain ⟨ps, run⟩ := ih
    have next := run.step now o h
    rw [eventsIn_append, eventsIn_notes]
    exact ⟨_, next⟩
  | taken logged n ih =>
    obtain ⟨ps, run⟩ := ih
    exact ⟨ps, run.taken n⟩

/-- Every run has a log. -/
theorem Run.exists_logged {es : List Event} {ps : List Pass} (run : Run reporter es ps s) :
    ∃ log, Logged reporter log s ∧ eventsIn log = es := by
  induction run with
  | start hostname claim capacity => exact ⟨[], .start hostname claim capacity, rfl⟩
  | step run now o h ih =>
    obtain ⟨log, logged, rfl⟩ := ih
    refine ⟨_, logged.step now o h, ?_⟩
    rw [eventsIn_append, eventsIn_notes]
  | taken run n ih =>
    obtain ⟨log, logged, heq⟩ := ih
    exact ⟨log, logged.taken n, heq⟩

open Tracker (Accounts)

/-- Unless the queue is closed, the stages of an occurrence start with all that came before noted. -/
theorem accounts_entered (h : Accounts log s.tracker.queue.waiting.length s.tracker)
    (ho : o ≠ .queueClosed) :
    Accounts (log ++ o.events.map .event) s.tracker.queue.waiting.length (s.entered o) := by
  cases o with
  | event e => exact h.entered e
  | queueClosed => exact absurd rfl ho
  | tick => simpa [Occurrence.events, entered] using h
  | claimed claim => simpa [Occurrence.events, entered] using h
  | claimsClosed => simpa [Occurrence.events, entered] using h
  | nothing => simpa [Occurrence.events, entered] using h

/-- After every run, the tracker remembers what the log says. -/
theorem Logged.accounts (logged : Logged reporter log s) :
    Accounts log s.tracker.queue.waiting.length s.tracker := by
  induction logged with
  | start hostname claim capacity =>
    refine ⟨fun ref => ⟨Nat.le_refl _, rfl⟩, fun t => ⟨Nat.le_refl _, rfl⟩, ?_, ?_, ?_⟩
    · intro ref r hr
      cases hr
    · intro t shown
      cases shown
    · intro t ms hms
      cases hms
  | @step log s s' logged now o h ih =>
    by_cases ho : o = .queueClosed
    · subst ho
      cases h
      have closed := ih.withQueue s.tracker.queue.close
      simpa [notes, Occurrence.events, Queue.close] using closed
    · have entered := accounts_entered ih ho
      have last := (Tracker.keeps_accounts _ _ (s.momentOf now o)).runAll entered (s.stages now o)
      rw [← tracker_step h] at last
      rw [notes, ← List.append_assoc]
      exact last.caughtUp
  | taken logged n ih => exact ih.withQueue _

end Session

end PolicyAttachment
