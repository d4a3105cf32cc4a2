import PolicyAttachment.Proofs.Session.Flagged

/-!
# Several instances of the controller

Instances come and go, are fed the same events and take turns in leading, but each remembers only what
it enqueued itself since it started. An instance that repeats the conditions on ancestors shows what has
to be shown, whatever the others did. It clears what it showed itself; what another instance showed
stays although its cause is gone: `Fleet.Run.repeats_flags`.
-/

namespace PolicyAttachment
set_option autoImplicit false

/-- An instance with all that was noted since it started. -/
structure Member where
  session : Session
  log : List Note

/-- What happened to the objects, the instances there are, and all changes that any instance ever
enqueued, in their order. -/
structure Fleet where
  happened : List Event
  member : Nat → Option Member
  changes : List StatusChange

/-- The target shows a condition if the last change for it did. -/
def Shows (t : Target) (changes : List StatusChange) (c : Condition) : Prop :=
  (flagsOf t changes).getLast? = some (some c)

namespace Member

/-- The instance knows the objects that there are. -/
def UpToDate (m : Member) (happened : List Event) : Prop :=
  ∀ kind ns name, present (eventsIn m.log) kind ns name = present happened kind ns name

/-- The instance after an occurrence. -/
def next (m : Member) (o : Occurrence) (s' : Session) : Member :=
  ⟨s', m.log ++ m.session.notes o s'.tracker⟩

/-- An instance notes the events that it is fed. -/
theorem eventsIn_next (m : Member) (o : Occurrence) (s' : Session) :
    eventsIn (m.next o s').log = eventsIn m.log ++ o.events := by
  rw [next, eventsIn_append, Session.eventsIn_notes]

end Member

namespace Fleet

def put (w : Fleet) (i : Nat) (m : Option Member) : Fleet :=
  { w with member := fun j => if j = i then m else w.member j }

/-- What an occurrence to the instance `i` makes of the fleet. -/
def act (w : Fleet) (i : Nat) (m : Member) (o : Occurrence) (s' : Session) : Fleet :=
  { w.put i (some (m.next o s')) with changes := w.changes ++ m.session.enqueued s' }

/-- At most one instance holds the lease. -/
def OneLeads (w : Fleet) (now : Instant) : Prop :=
  ∀ i j m n, w.member i = some m → w.member j = some n →
    m.session.leads now = true → n.session.leads now = true → i = j

/-- Fleets of instances that report as `reporter`. What an instance is fed has happened, whenever an
instance does anything no other one leads, and an instance that starts again has forgotten everything.
-/
inductive Run (reporter : Reporter) : Fleet → Prop where
  | start : Run reporter ⟨[], fun _ => none, []⟩
  | happens {w : Fleet} (run : Run reporter w) (e : Event) :
      Run reporter { w with happened := w.happened ++ [e] }
  | joins {w : Fleet} (run : Run reporter w) (i : Nat) (hostname : String) (claim : Claim)
      (capacity : Nat) :
      Run reporter (w.put i (some ⟨Session.start hostname claim reporter capacity, []⟩))
  | leaves {w : Fleet} (run : Run reporter w) (i : Nat) : Run reporter (w.put i none)
  | acts {w : Fleet} (run : Run reporter w) {i : Nat} {m : Member} (hm : w.member i = some m)
      (now : Instant) (o : Occurrence) (fed : ∀ e ∈ o.events, e ∈ w.happened) {s' : Session}
      (h : m.session.step now o = .ok s') (alone : (w.act i m o s').OneLeads now) :
      Run reporter (w.act i m o s')
  | taken {w : Fleet} (run : Run reporter w) {i : Nat} {m : Member} (hm : w.member i = some m)
      (n : Nat) : Run reporter (w.put i (some { m with session := m.session.withTaken n }))

variable {reporter : Reporter} {w : Fleet} {i : Nat} {m : Member} {t : Target}

theorem of_member_put {j : Nat} {m : Option Member} {n : Member}
    (h : (w.put i m).member j = some n) : j = i ∧ m = some n ∨ w.member j = some n := by
  simp only [put] at h
  split at h
  · exact .inl ⟨‹_›, h⟩
  · exact .inr h

/-- Every instance has a run of its own. -/
theorem Run.logged (run : Run reporter w) (hm : w.member i = some m) :
    Session.Logged reporter m.log m.session := by
  induction run generalizing i m with
  | start => cases hm
  | happens run e ih => exact ih hm
  | joins run j hostname claim capacity ih =>
    rcases of_member_put hm with ⟨-, joined⟩ | hm
    · cases joined
      exact .start hostname claim capacity
    · exact ih hm
  | leaves run j ih =>
    rcases of_member_put hm with ⟨-, left⟩ | hm
    · cases left
    · exact ih hm
  | acts run hj now o fed h alone ih =>
    rcases of_member_put hm with ⟨-, acted⟩ | hm
    · cases acted
      exact (ih hj).step now o h
    · exact ih hm
  | taken run hj n ih =>
    rcases of_member_put hm with ⟨-, emptied⟩ | hm
    · cases emptied
      exact (ih hj).taken n
    · exact ih hm

end Fleet

namespace Tracker

open Channel (Relays relays_foldl_nil)

variable {tr : Tracker}

/-- Of a pass over all kinds, only bringing the conditions on ancestors up to date offers any. -/
theorem relays_flag_fullPass (m : Moment) (leaseChanged : Bool) (tr : Tracker) (carry : tr.FlaggedCarry)
    (t : Target) :
    ∃ mid : Tracker, mid.flagged.get? t = tr.flagged.get? t ∧
      mid.marks = (tr.fullPass m leaseChanged).marks ∧
      Relays (.flag t) m.leads (mid.flagsDue leaseChanged t) tr (tr.fullPass m leaseChanged) := by
  have passes : Relays (.flag t) m.leads [] tr (PolicyKind.all.foldl (passOver m true) tr) :=
    relays_foldl_nil (fun kind _ tr => relays_flag_passOver m true tr kind t) tr
  have carries : (PolicyKind.all.foldl (passOver m true) tr).FlaggedCarry := by
    rw [← Stage.runAll_map_pass]
    exact (keeps_flaggedCarry m).runAll carry _
  unfold fullPass
  generalize PolicyKind.all.foldl (passOver m true) tr = mid at passes carries ⊢
  obtain ⟨offered, -, sends, -⟩ := sendsFlags_syncFlags m leaseChanged mid
  have all := passes.append (relays_flag_syncFlags m leaseChanged carries t)
  exact ⟨mid, passes.memory_of_nil, sends.marks.symm, all⟩

theorem wanted?_of_marks {tr tr' : Tracker} (h : tr'.marks = tr.marks) (t : Target) :
    tr'.wanted? t = tr.wanted? t := by
  rw [wanted?, wanted?, h]

end Tracker

namespace Fleet

open Tracker (wanted?_eq_some_iff)

variable {reporter : Reporter} {w : Fleet} {i : Nat} {m : Member} {t : Target} {s' : Session}

/-- A member has a message flagged if it was itself the last to show anything since it started. -/
theorem Run.isSome_flagged_iff (run : Run reporter w) (hm : w.member i = some m) (t : Target) :
    (m.session.tracker.flagged.get? t).isSome ↔ ∃ c, Shows t (changesIn m.log) c := by
  have shown : m.session.tracker.flagged.get? t = lastShown t m.log :=
    ((run.logged hm).accounts.shown t).memory_eq
  rw [shown, lastShown_eq]
  unfold Shows
  cases (flagsOf t (changesIn m.log)).getLast? with
  | none => simp
  | some condition => cases condition <;> simp

/-- An instance learns that it leads, and nothing is lost. Then each marked target that can carry a
condition shows that of its smallest policy. A target without marks shows nothing exactly if it did not
before, or else showed something that this very instance had shown since it started. -/
theorem Run.repeats_flags (run : Run reporter w) (hm : w.member i = some m) {now : Instant}
    {claim : Claim} (follows : m.session.followsClaims = true)
    (h : m.session.step now (.claimed claim) = .ok s')
    (lossless : Queue.Lossless (claim.isCurrentFor m.session.hostname now) m.session.tracker.queue
      s'.tracker.queue) (t : Target) :
    (s'.tracker.marks.contains t = true → t.apiVersion?.isSome →
      ∃ c, s'.tracker.Wanted t c ∧ Shows t (w.act i m (.claimed claim) s').changes c) ∧
    (s'.tracker.marks.contains t = false →
      ((∀ c, ¬ Shows t (w.act i m (.claimed claim) s').changes c) ↔
        (∀ c, ¬ Shows t w.changes c) ∨ ∃ c, Shows t (changesIn m.log) c)) := by
  have leads : claim.isCurrentFor m.session.hostname now = true := lossless.1
  have accounts := (run.logged hm).accounts
  have next := ((run.logged hm).step now (.claimed claim) h).accounts
  have full : s'.tracker = m.session.tracker.fullPass ⟨now, true⟩ true := by
    cases h
    rw [if_pos follows, Session.tracker_fullPass, Session.leads, if_pos leads]
    simp only [Session.moment, Session.leads, leads]
  obtain ⟨mid, flagged, marks, relays⟩ :=
    Tracker.relays_flag_fullPass ⟨now, true⟩ true m.session.tracker accounts.carry t
  rw [← full] at marks relays
  rw [leads] at lossless
  have new : flagsOf t (m.session.enqueued s') = mid.flagsDue true t := relays.enqueued.2 lossless
  rw [Tracker.flagsDue_repeated, marks, flagged] at new
  have wanted : mid.wanted? t = s'.tracker.wanted? t := Tracker.wanted?_of_marks marks t
  rw [wanted] at new
  have changes : flagsOf t (w.act i m (.claimed claim) s').changes =
      flagsOf t w.changes ++ flagsOf t (m.session.enqueued s') :=
    List.filterMap_append
  refine ⟨?_, ?_⟩
  · intro marked carries
    obtain ⟨c, hc⟩ := Option.isSome_iff_exists.1 (next.filled.isSome_wanted? marked carries)
    rw [hc] at new
    refine ⟨c, wanted?_eq_some_iff.1 hc, ?_⟩
    rw [Shows, changes, new]
    simp
  · intro unmarked
    rw [Tracker.wanted?_of_not_contains unmarked] at new
    simp only [unmarked, and_true] at new
    rw [← run.isSome_flagged_iff hm t]
    by_cases was : (m.session.tracker.flagged.get? t).isSome
    · rw [if_pos was] at new
      simp [Shows, changes, new, was]
    · rw [if_neg was] at new
      simp [Shows, changes, new, was]

/-- A fleet with one place has no two instances that lead. -/
theorem oneLeads_of_only (only : ∀ j n, w.member j = some n → j = i) (now : Instant) :
    w.OneLeads now :=
  fun j k m n hj hk _ _ => (only j m hj).trans (only k n hk).symm

theorem only_put (only : ∀ j n, w.member j = some n → j = i) (m : Option Member) :
    ∀ j n, (w.put i m).member j = some n → j = i := by
  intro j n hn
  rcases of_member_put hn with ⟨heq, -⟩ | hn
  · exact heq
  · exact only j n hn

end Fleet

/-! A policy finds no room in its status, and fits once the instance that saw this has started again. -/

namespace Sample

def crammed : Policy := policy "1" ["c"] (others 16)

def fitting : Policy := policy "2" ["c"] []

def fresh : Member := ⟨start, []⟩

/-- The session that starts with the policy. -/
def opening (p : Policy) : Session :=
  { start with tracker := start.tracker.putPolicy (start.moment now) key (p.facts "ns") }

def opener (p : Policy) : Member := fresh.next (.event (.applied (.policy p))) (opening p)

/-- The instance shows a condition on "c". -/
def showing : Fleet :=
  let w : Fleet := ⟨[.applied (.policy crammed)], fun _ => none, []⟩
  (w.put 0 (some fresh)).act 0 fresh (.event (.applied (.policy crammed))) (opening crammed)

/-- The instance starts again and finds that all is well. -/
def renewed : Fleet :=
  let w : Fleet := { showing with happened := showing.happened ++ [.applied (.policy fitting)] }
  (w.put 0 (some fresh)).act 0 fresh (.event (.applied (.policy fitting))) (opening fitting)

theorem only_showing : ∀ j n, showing.member j = some n → j = 0 := by
  have none : ∀ j n, (⟨[.applied (.policy crammed)], fun _ => none, []⟩ : Fleet).member j = some n →
      j = 0 :=
    fun _ _ h => nomatch h
  exact Fleet.only_put (Fleet.only_put none (some fresh)) _

theorem run_showing : Fleet.Run reporter showing :=
  .acts (.joins (.happens .start (.applied (.policy crammed))) 0 "h" ⟨"h", none⟩ 100) rfl now _
    (List.forall_mem_singleton.2 List.mem_cons_self) rfl (Fleet.oneLeads_of_only only_showing now)

theorem run_renewed : Fleet.Run reporter renewed := by
  have only : ∀ j n, renewed.member j = some n → j = 0 :=
    Fleet.only_put (Fleet.only_put only_showing (some fresh)) _
  exact .acts (.joins (.happens run_showing (.applied (.policy fitting))) 0 "h" ⟨"h", none⟩ 100) rfl
    now _ (List.forall_mem_singleton.2 (List.mem_append_right _ List.mem_cons_self)) rfl
    (Fleet.oneLeads_of_only only now)

end Sample

namespace Fleet

/-- The instance that showed the condition shows it again. -/
theorem repeats_flags_showing : ∃ s' c, s'.tracker.Wanted (Sample.service "c") c ∧
    Shows (Sample.service "c") (Sample.showing.act 0 (Sample.opener Sample.crammed)
      (.claimed ⟨"h", none⟩) s').changes c := by
  have lossless : Queue.Lossless true (Sample.opening Sample.crammed).tracker.queue
      ((Sample.opening Sample.crammed).fullPass Sample.now true).tracker.queue :=
    ⟨rfl, by decide +kernel, by decide +kernel⟩
  have marked : ((Sample.opening Sample.crammed).fullPass Sample.now true).tracker.marks.contains
      (Sample.service "c") = true := by
    decide +kernel
  have member : Sample.showing.member 0 = some (Sample.opener Sample.crammed) := rfl
  have step : (Sample.opener Sample.crammed).session.step Sample.now (.claimed ⟨"h", none⟩) =
      .ok ((Sample.opening Sample.crammed).fullPass Sample.now true) := rfl
  obtain ⟨repeats, -⟩ :=
    Sample.run_showing.repeats_flags member rfl step lossless (Sample.service "c")
  obtain ⟨c, wanted, shows⟩ := repeats marked (by decide +kernel)
  exact ⟨_, c, wanted, shows⟩

/-- The instance that started again knows all that there is, but does not clear the condition. -/
theorem not_repeats_flags : ∃ w m s', Run Sample.reporter w ∧ w.member 0 = some m ∧
    m.UpToDate w.happened ∧ m.session.followsClaims = true ∧
    m.session.step Sample.now (.claimed ⟨"h", none⟩) = .ok s' ∧
    Queue.Lossless true m.session.tracker.queue s'.tracker.queue ∧
    s'.tracker.marks.contains (Sample.service "c") = false ∧
    ∃ c, Shows (Sample.service "c") (w.act 0 m (.claimed ⟨"h", none⟩) s').changes c := by
  let s' := (Sample.opening Sample.fitting).fullPass Sample.now true
  have upToDate : (Sample.opener Sample.fitting).UpToDate Sample.renewed.happened := by
    intro kind ns name
    have fed : eventsIn (Sample.opener Sample.fitting).log = [.applied (.policy Sample.fitting)] :=
      Member.eventsIn_next Sample.fresh _ _
    have happened : Sample.renewed.happened =
        [.applied (.policy Sample.crammed)] ++ [.applied (.policy Sample.fitting)] := rfl
    rw [fed, happened, present_snoc, ← List.nil_append [_], present_snoc]
    split
    · rfl
    · rename_i other
      have place : (Event.applied (.policy Sample.crammed)).place? =
          (Event.applied (.policy Sample.fitting)).place? := rfl
      rw [← List.nil_append [_], present_snoc, place, if_neg other]
  have shows : ((flagsOf (Sample.service "c") (Sample.renewed.act 0 (Sample.opener Sample.fitting)
      (.claimed ⟨"h", none⟩) s').changes).getLast?.bind id).isSome = true := by
    decide +kernel
  refine ⟨Sample.renewed, Sample.opener Sample.fitting, s', Sample.run_renewed, rfl, upToDate,
    rfl, rfl, ⟨rfl, by decide +kernel, by decide +kernel⟩, by decide +kernel, ?_⟩
  obtain ⟨c, hc⟩ := Option.isSome_iff_exists.1 shows
  obtain ⟨condition, hlast, rfl⟩ := Option.bind_eq_some_iff.1 hc
  exact ⟨c, hlast⟩

end Fleet
end PolicyAttachment
