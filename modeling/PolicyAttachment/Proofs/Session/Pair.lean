import PolicyAttachment.Proofs.Session.Shared
import PolicyAttachment.Proofs.Tracker.Again

/-!
# Two controllers of one policy

Two sessions under different names report about the same policy object, and nobody else writes its
status. Each keeps the entries in an order of its own, so the two can go on correcting each other: by
`Pair.Run.statusesOf_eq_nil_iff` a stored list that has just the entries of both causes no write only if
it is in the order of the register of the one that sees it.
-/

namespace PolicyAttachment
set_option autoImplicit false

/-- The facts are those of the same object, whatever its version and status. -/
structure PolicyFacts.SameSpec (base facts : PolicyFacts) : Prop where
  targets : facts.targets = base.targets
  created : facts.created = base.created
  generation : facts.generation = base.generation
  invalid : facts.invalid = base.invalid

/-- The two controllers. -/
inductive Side where
  | left
  | right
deriving DecidableEq

/-- The other controller. -/
def Side.other : Side → Side
  | left => right
  | right => left

/-- Two sessions and the policy object that they share. -/
structure Pair where
  sides : Side → Session
  /-- The versions that each side has seen. -/
  seen : Side → List String
  current : Stored
  past : List Stored
  /-- The patches that were sent, by either side. -/
  patches : List (Option String × WrittenStatus)

namespace Pair

/-- All versions that there have been, the current one first. -/
def versions (w : Pair) : List Stored := w.current :: w.past

/-- Stores another version of the object. -/
def store (w : Pair) (v : Stored) : Pair := { w with current := v, past := w.versions }

/-- Goes on with the session of one side, and sends what waits in its queue. -/
def goOn (w : Pair) (ref : PolicyKey) (i : Side) (s : Session) (seen : List String) : Pair :=
  { w with
    sides := fun j => if j = i then s.drain.2 else w.sides j
    seen := fun j => if j = i then seen else w.seen j
    patches := w.patches ++ statusesOf ref s.drain.1 }

/-- Whatever can become of two sessions that report about the policy `ref`, whose spec is that of
`base`. -/
inductive Run (reporters : Side → Reporter) (ref : PolicyKey) (base : PolicyFacts) : Pair → Prop where
  | start (hostname : Side → String) (claim : Side → Claim) (capacity : Side → Nat) (v : Stored)
      (few : v.ancestors.length ≤ maxAncestors)
      (distinct : (v.ancestors.map AncestorStatus.identity).Nodup) :
      Run reporters ref base
        ⟨fun i => .start (hostname i) (claim i) (reporters i) (capacity i), fun _ => [], v, [], []⟩
  /-- A side sees a version of the policy. -/
  | observe {w : Pair} (run : Run reporters ref base w) (i : Side) (v : Stored)
      (hv : v ∈ w.versions) (p : Policy) (hp : v.IsOf ref p)
      (spec : base.SameSpec (p.facts ref.id.ns)) (now : Instant) (s : Session)
      (step : (w.sides i).step now (.event (.applied (.policy p))) = .ok s) :
      Run reporters ref base (w.goOn ref i s (v.version :: w.seen i))
  /-- Anything else happens to a side. -/
  | other {w : Pair} (run : Run reporters ref base w) (i : Side) (o : Occurrence)
      (elsewhere : ¬ Session.Sees ref o) (now : Instant) (s : Session)
      (step : (w.sides i).step now o = .ok s) :
      Run reporters ref base (w.goOn ref i s (w.seen i))
  /-- A patch for the current version is accepted. -/
  | deliver {w : Pair} (run : Run reporters ref base w) (status : WrittenStatus)
      (hp : (some w.current.version, status) ∈ w.patches) (l : List AncestorStatus)
      (hl : status.ancestors = some l) (version : String)
      (fresh : version ∉ w.versions.map Stored.version) :
      Run reporters ref base (w.store ⟨version, l⟩)

/-- A side that leads and whose queue has room sees the current version for the first time, which makes
it the session `s`. The stored list has just the entries that the two sides hold of their own, this one
in the record `r`. -/
structure Sight (reporters : Side → Reporter) (ref : PolicyKey) (base : PolicyFacts) (w : Pair)
    (i : Side) (r : PolicyRecord) (s : Session) : Prop where
  record : (w.sides i).tracker.policies.get? ref = some r
  made : ∃ t, (w.sides i.other).tracker.policies.get? ref = some t ∧
    (w.current.ancestors.map AncestorStatus.written).Perm
      ((Entry.own (reporters i).controller r.register.entries ++
        Entry.own (reporters i.other).controller t.register.entries).map Entry.written)
  unseen : w.current.version ∉ w.seen i
  seen : ∃ p now, w.current.IsOf ref p ∧ base.SameSpec (p.facts ref.id.ns) ∧
    (w.sides i).leads now = true ∧ (w.sides i).step now (.event (.applied (.policy p))) = .ok s
  isOpen : (w.sides i).tracker.queue.isOpen = true
  room : s.tracker.queue.overflowed = (w.sides i).tracker.queue.overflowed

/-- A record for a version that was seen; so is what it has pending. -/
structure Noted (base : PolicyFacts) (seen : List String) (s : PolicyRecord) : Prop where
  proper : s.register.Proper
  spec : base.SameSpec s.facts
  version : ∃ n ∈ seen, s.facts.resourceVersion = some n
  pending : ∀ version status, s.pending = some (version, status) → ∃ n ∈ seen, version = some n

/-- What every run maintains. -/
structure Consistent (reporters : Side → Reporter) (ref : PolicyKey) (base : PolicyFacts)
    (w : Pair) : Prop where
  fit : ∀ v ∈ w.versions, Registrable v.ancestors
  waiting : ∀ i, (w.sides i).tracker.queue.waiting = []
  runs : ∀ i, ∃ es ps, Session.Run (reporters i) es ps (w.sides i)
  follows : ∀ i, (w.sides i).tracker.Follows (reporters i) ref (Noted base (w.seen i)) 0
  patches : ∀ p ∈ w.patches, ∀ l, p.2.ancestors = some l → Registrable l

section Invariant

open Tracker (Lasting Follows)

variable {reporters : Side → Reporter} {ref : PolicyKey} {base : PolicyFacts} {w : Pair} {i : Side}
  {s : Session}

/-- Reviewing and sending leave a record for the version that it is for. -/
theorem lasting_noted (reporter : Reporter) (ref : PolicyKey) (base : PolicyFacts)
    (seen : List String) : Lasting reporter ref (Noted base seen) where
  review := by
    rintro tr s now rfl noted
    refine ⟨?_, noted.spec, noted.version, noted.pending⟩
    cases hk : ref.kind.reportsByAncestor with
    | true => exact noted.proper.reviewed (Tracker.reviewed_review tr now noted.proper.sound hk)
    | false =>
      rw [(Tracker.review_of_not_reportsByAncestor hk).1]
      exact noted.proper
  sent := by
    intro s status noted
    refine ⟨noted.proper, noted.spec, noted.version, ?_⟩
    intro version status' heq
    cases heq
    exact noted.version

/-- Seeing a version of the policy makes it the one that the record is for. -/
theorem noted_sighting {tr : Tracker} {reporter : Reporter} {seen : List String}
    (h : tr.Follows reporter ref (Noted base seen) 0) {v : Stored} (fit : Registrable v.ancestors)
    {facts : PolicyFacts} (spec : base.SameSpec facts)
    (version : facts.resourceVersion = some v.version)
    (ancestors : facts.storedAncestors = ⟨v.ancestors⟩) :
    Noted base (v.version :: seen) (tr.sighting ref facts).2 := by
  have hfacts := Tracker.facts_sighting tr ref facts
  refine ⟨?_, hfacts.symm ▸ spec, ⟨_, List.mem_cons_self, hfacts.symm ▸ version⟩, ?_⟩
  · rcases tr.register_sighting_cases fit ancestors with
      ⟨-, sound, entries⟩ | ⟨old, hs, register⟩
    · exact Register.proper_of_entries fit sound entries
    · rw [register]
      exact (h.record old hs).proper.takeOver fit tr.reporter.controller
  · unfold Tracker.sighting
    cases hs : tr.policies.get? ref with
    | none =>
      intro version status heq
      cases heq
    | some old =>
      intro version status heq
      obtain ⟨n, hn, heq⟩ := (h.record old hs).pending version status heq
      exact ⟨n, List.mem_cons_of_mem _ hn, heq⟩

theorem drain_eq_withTaken (s : Session) :
    s.drain.2 = s.withTaken s.tracker.queue.waiting.length := by
  simp only [Session.drain, Queue.drain, Session.withTaken, List.drop_length]

/-- Another version in the store changes nothing for the sides. -/
theorem consistent_store (h : Consistent reporters ref base w) {v : Stored}
    (fit : Registrable v.ancestors) : Consistent reporters ref base (w.store v) where
  fit u hu := by
    rcases List.mem_cons.1 hu with rfl | hu
    · exact fit
    · exact h.fit u hu
  waiting := h.waiting
  runs := h.runs
  follows := h.follows
  patches := h.patches

/-- One side goes on, the other stays as it is. -/
theorem consistent_goOn (h : Consistent reporters ref base w) {seen : List String}
    (run : ∃ es ps, Session.Run (reporters i) es ps s)
    (follows : s.tracker.Follows (reporters i) ref (Noted base seen) 0) :
    Consistent reporters ref base (w.goOn ref i s seen) where
  fit := h.fit
  waiting j := by
    simp only [goOn]
    split
    · rfl
    · exact h.waiting j
  runs j := by
    simp only [goOn]
    split
    · rename_i hj
      obtain ⟨es, ps, run⟩ := run
      rw [hj, drain_eq_withTaken]
      exact ⟨es, ps, run.taken _⟩
    · exact h.runs j
  follows j := by
    simp only [goOn]
    split
    · rename_i hj
      rw [hj]
      exact follows.emptied _ rfl 0
    · exact h.follows j
  patches p hp l hl := by
    rcases List.mem_append.1 hp with hp | hp
    · exact h.patches p hp l hl
    · obtain ⟨version, status⟩ := p
      obtain ⟨r, noted, -, rfl⟩ :=
        (follows.waiting version status (mem_statusesOf_iff.1 hp)).exists_record
          (lasting_noted _ ref base _)
      cases hk : ref.kind.reportsByAncestor with
      | true =>
        rw [PolicyRecord.ancestors_status hk] at hl
        cases hl
        exact noted.proper.registrable_written
      | false => simp [PolicyRecord.status, WrittenStatus.of, hk] at hl

/-- Every run is consistent. -/
theorem Run.consistent (run : Run reporters ref base w) : Consistent reporters ref base w := by
  induction run with
  | start hostname claim capacity v few distinct =>
    refine ⟨?_, fun _ => rfl, fun i => ⟨[], [], .start _ _ _⟩,
      fun i => Tracker.follows_empty (reporters i) ref _ 0 (capacity i),
      fun _ hp => absurd hp List.not_mem_nil⟩
    intro u hu
    rw [List.mem_singleton.1 hu]
    exact registrable_of_nodup few distinct
  | observe run i v hv p hp spec now s step ih =>
    obtain ⟨es, ps, side⟩ := ih.runs i
    apply consistent_goOn ih ⟨_, _, side.step now _ step⟩
    rw [hp.step_eq] at step
    cases step
    apply Tracker.follows_putPolicy (lasting_noted _ ref base _) (ih.follows i).reporter
      (by simp [ih.waiting i])
    exact noted_sighting (ih.follows i) (ih.fit v hv) spec hp.version hp.ancestors
  | other run i o elsewhere now s step ih =>
    obtain ⟨es, ps, side⟩ := ih.runs i
    exact consistent_goOn ih ⟨_, _, side.step now o step⟩
      (Session.follows_step (lasting_noted _ ref base _) (ih.follows i) elsewhere step)
  | deliver run status hp l hl version fresh ih =>
    exact consistent_store ih (ih.patches _ hp l hl)

end Invariant

section Quiet

open Tracker (SeenAgain)
open Entry (MadeUp arranged labels own)

variable {reporters : Side → Reporter} {ref : PolicyKey} {base : PolicyFacts} {w : Pair} {i : Side}
  {r : PolicyRecord}

/-- A stored list that has just the entries of both sides is made up of those of one and of others. -/
theorem madeUp_of_perm {ours theirs : ControllerName} (apart : ours ≠ theirs) {es fs : List Entry}
    (hes : ∀ e ∈ es, e.Faithful) (hfs : ∀ e ∈ fs, e.Faithful) {l : List AncestorStatus}
    (made : (l.map AncestorStatus.written).Perm ((own ours es ++ own theirs fs).map Entry.written)) :
    MadeUp ours es l where
  stored := by
    have mine := made.filter fun a => a.controllerName == ours.text
    have ofOurs : (own ours es).filter (fun e => e.written.controllerName == ours.text) =
        own ours es := by
      rw [List.filter_eq_self]
      intro e he
      have := (Entry.mem_own_iff.1 he).2
      rw [Entry.isByOther, bne_eq_false_iff_eq] at this
      rw [Entry.controllerName_written, this, beq_self_eq_true]
    have ofTheirs : (own theirs fs).filter (fun e => e.written.controllerName == ours.text) = [] := by
      rw [List.filter_eq_nil_iff]
      intro e he
      have := (Entry.mem_own_iff.1 he).2
      rw [Entry.isByOther, bne_eq_false_iff_eq] at this
      rw [Entry.controllerName_written, this, beq_iff_eq]
      exact fun same => apart (ControllerName.ext_text same.symm)
    rw [List.filter_map, List.filter_map, List.filter_append] at mine
    have split := mine.trans (List.Perm.of_eq (congrArg₂ (fun a b => (a ++ b).map Entry.written)
      ofOurs ofTheirs))
    rwa [List.append_nil] at split
  normal a ha := by
    obtain ⟨e, he, heq⟩ := List.mem_map.1 (made.mem_iff.1 (List.mem_map_of_mem ha))
    refine Entry.normal_of_written ?_ heq.symm
    rcases List.mem_append.1 he with hm | hm
    · exact hes e (Entry.mem_own_iff.1 hm).1
    · exact hfs e (Entry.mem_own_iff.1 hm).1

/-- In every run, let a side see a stored list that has just the entries that both sides hold of their
own. Then it sends nothing for the policy exactly if its register has these entries in the order in
which they are stored, and either no ancestor is marked or the list is full. -/
theorem Run.statusesOf_eq_nil_iff (run : Run reporters ref base w)
    (hk : ref.kind = .trafficDistribution)
    (apart : (reporters i).controller ≠ (reporters i.other).controller) {s : Session}
    (sight : Sight reporters ref base w i r s) :
    statusesOf ref s.tracker.queue.waiting = [] ↔
      arranged r.register.entries w.current.ancestors = labels w.current.ancestors ∧
        ((∀ a, (w.sides i).tracker.markOf? a ref = none) ∨
          w.current.ancestors.length = maxAncestors) := by
  obtain ⟨hr, ⟨t, ht, made⟩, unseen, ⟨p, now, hp, spec, leads, step⟩, isOpen, room⟩ := sight
  have consistent := run.consistent
  have mine := (consistent.follows i).record r hr
  have theirs := (consistent.follows i.other).record t ht
  obtain ⟨es, ps, side⟩ := consistent.runs i
  have hreporter := side.reporter_eq
  have byAncestor : ref.kind.reportsByAncestor = true := by
    rw [hk]
    rfl
  have again : SeenAgain (w.sides i).tracker ref r (p.facts ref.id.ns) w.current.ancestors :=
    { known := hr, shown := side.shown hr, proper := mine.proper, ancestors := hp.ancestors
      targets := spec.targets.trans mine.spec.targets.symm
      created := spec.created.trans mine.spec.created.symm
      generation := spec.generation.trans mine.spec.generation.symm
      invalid := spec.invalid.trans mine.spec.invalid.symm
      fit := consistent.fit _ List.mem_cons_self
      made := by
        rw [hreporter]
        exact madeUp_of_perm apart mine.proper.faithful theirs.proper.faithful made }
  have version : (p.facts ref.id.ns).resourceVersion = some w.current.version := hp.version
  have changed : ((w.sides i).tracker.sighting ref (p.facts ref.id.ns)).1 = true := by
    obtain ⟨n, hn, heq⟩ := mine.version
    have : n ≠ w.current.version := fun same => unseen (same ▸ hn)
    simp [again.sighting_eq, PolicyRecord.seen, PolicyRecord.isUnchanged, heq, version, this]
  -- what is pending is for a version that was seen, so it does not count
  have notPending : ∀ status, r.pending ≠ some ((p.facts ref.id.ns).resourceVersion, status) := by
    intro status heq
    obtain ⟨n, hn, same⟩ := mine.pending _ _ heq
    rw [version, Option.some.injEq] at same
    exact unseen (same ▸ hn)
  rw [hp.step_eq] at step
  cases step
  rw [Tracker.statusesOf_putPolicy_eq_nil_iff changed (consistent.waiting i) leads isOpen room,
    again.due?_eq_none_iff _ hk notPending, again.written_eq_iff _ byAncestor]

end Quiet

end Pair

/-! Two controllers that report about the same Service, and each write their status once. -/

namespace Sample

def mesh : ControllerName := ⟨"example.net/mesh", rfl⟩

def reporters : Side → Reporter
  | .left => reporter
  | .right => ⟨mesh, .reject⟩

/-- The spec that both report about. -/
def base : PolicyFacts := (policy "1" ["a"] []).facts "ns"

/-- What follows when a side sees a version of the policy. -/
def seesBy (w : Pair) (i : Side) (v : Stored) : Pair :=
  w.goOn key i
    { w.sides i with
      tracker := (w.sides i).tracker.putPolicy ((w.sides i).moment now) key
        ((policy v.version ["a"] v.ancestors).facts "ns") }
    (v.version :: w.seen i)

theorem isOf_policy (v : Stored) : v.IsOf key (policy v.version ["a"] v.ancestors) :=
  ⟨rfl, rfl, rfl, rfl, rfl⟩

theorem sameSpec_policy (v : Stored) :
    base.SameSpec ((policy v.version ["a"] v.ancestors).facts "ns") :=
  ⟨rfl, rfl, rfl, rfl⟩

theorem run_seesBy {w : Pair} (run : Pair.Run reporters key base w) (i : Side) {v : Stored}
    (hv : v ∈ w.versions) : Pair.Run reporters key base (seesBy w i v) :=
  .observe run i v hv _ (isOf_policy v) (sameSpec_policy v) now _
    ((isOf_policy v).step_eq (w.sides i) now)

/-- The list in the first patch that would be accepted. -/
def arriving (w : Pair) : List AncestorStatus :=
  ((w.patches.find? fun p => p.1 = some w.current.version).bind fun p => p.2.ancestors).getD []

/-- The patch that was sent for the current version can be accepted. -/
theorem run_arriving {w : Pair} (run : Pair.Run reporters key base w)
    (sent : ∃ p ∈ w.patches, p.1 = some w.current.version ∧ p.2.ancestors = some (arriving w))
    {version : String} (fresh : version ∉ w.versions.map Stored.version) :
    Pair.Run reporters key base (w.store ⟨version, arriving w⟩) := by
  obtain ⟨⟨_, status⟩, hp, rfl, hl⟩ := sent
  exact .deliver run status hp _ hl version fresh

/-- Both sides see the first version, and the patch of the left one is accepted. -/
def raced : Pair :=
  let w := seesBy (seesBy ⟨fun i => .start "h" ⟨"h", none⟩ (reporters i) 100, fun _ => [], ⟨"1", []⟩,
    [], []⟩ .left ⟨"1", []⟩) .right ⟨"1", []⟩
  w.store ⟨"2", arriving w⟩

/-- The right side sees this, and its patch is accepted. -/
def turned : Pair :=
  let w := seesBy raced .right raced.current
  w.store ⟨"3", arriving w⟩

theorem run_raced : Pair.Run reporters key base raced := by
  have start : Pair.Run reporters key base
      ⟨fun i => .start "h" ⟨"h", none⟩ (reporters i) 100, fun _ => [], ⟨"1", []⟩, [], []⟩ :=
    .start _ _ _ ⟨"1", []⟩ (by decide) (by decide)
  have seen := run_seesBy (run_seesBy start .left List.mem_cons_self) .right List.mem_cons_self
  exact run_arriving seen (by decide +kernel) (by decide)

theorem run_turned : Pair.Run reporters key base turned :=
  run_arriving (run_seesBy run_raced .right List.mem_cons_self) (by decide +kernel)
    (by decide +kernel)

/-- The session of a side that sees the current version. -/
def onSight (w : Pair) (i : Side) : Session :=
  { w.sides i with
    tracker := (w.sides i).tracker.putPolicy ((w.sides i).moment now) key
      ((policy w.current.version ["a"] w.current.ancestors).facts "ns") }

theorem sight_turned (i : Side) :
    ∃ r, Pair.Sight reporters key base turned i r (onSight turned i) := by
  have known : ((turned.sides i).tracker.policies.get? key).isSome ∧
      ((turned.sides i.other).tracker.policies.get? key).isSome := by
    cases i <;> decide +kernel
  obtain ⟨⟨r, hr⟩, t, ht⟩ := known.imp Option.isSome_iff_exists.1 Option.isSome_iff_exists.1
  have made : ∀ r ∈ (turned.sides i).tracker.policies.get? key,
      ∀ t ∈ (turned.sides i.other).tracker.policies.get? key,
        (turned.current.ancestors.map AncestorStatus.written).Perm
          ((Entry.own (reporters i).controller r.register.entries ++
            Entry.own (reporters i.other).controller t.register.entries).map Entry.written) := by
    cases i <;> decide +kernel
  refine ⟨r, hr, ⟨t, ht, made r hr t ht⟩, ?_, ⟨_, now, isOf_policy _, sameSpec_policy _, ?_,
    (isOf_policy _).step_eq _ now⟩, ?_, ?_⟩
  all_goals cases i <;> decide +kernel

end Sample

namespace Pair

/-- The right side is content with the order that it has written itself. -/
theorem statusesOf_turned :
    ∃ r, Sight Sample.reporters Sample.key Sample.base Sample.turned .right r
      (Sample.onSight Sample.turned .right) ∧
    statusesOf Sample.key (Sample.onSight Sample.turned .right).tracker.queue.waiting = [] := by
  obtain ⟨r, sight⟩ := Sample.sight_turned .right
  have ordered : ∀ r ∈ (Sample.turned.sides .right).tracker.policies.get? Sample.key,
      Entry.arranged r.register.entries Sample.turned.current.ancestors =
        Entry.labels Sample.turned.current.ancestors := by
    decide +kernel
  have noMarks : (Sample.turned.sides .right).tracker.marks.entries = [] := by decide +kernel
  refine ⟨r, sight, (Run.statusesOf_eq_nil_iff Sample.run_turned rfl (by decide) sight).2
    ⟨ordered r sight.record, .inl ?_⟩⟩
  intro a
  simp [Tracker.markOf?, Tracker.markIn?, Table.get?, noMarks]

/-- Two controllers that correct each other: the entries of both are stored, and one writes again. -/
theorem statusesOf_turned_ne_nil :
    ∃ w i r s, Run Sample.reporters Sample.key Sample.base w ∧
      Sight Sample.reporters Sample.key Sample.base w i r s ∧
      statusesOf Sample.key s.tracker.queue.waiting ≠ [] := by
  obtain ⟨r, sight⟩ := Sample.sight_turned .left
  exact ⟨Sample.turned, .left, r, _, Sample.run_turned, sight, by decide +kernel⟩

end Pair
end PolicyAttachment
