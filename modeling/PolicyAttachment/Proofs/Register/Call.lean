import PolicyAttachment.Proofs.Register.Resume

/-!
# Calls on a register

What controllers do with a register, one call after the other. A controller reports and withdraws in
its own name, and takes over what others stored: so the entries of one controller are changed by its
own reports and withdrawals and by what others take over, and by nothing else
(`Register.Reachable.isolates`).
-/

namespace PolicyAttachment
set_option autoImplicit false

namespace StatusByAncestor

/-- The entries under the name of `c`, in order. -/
def writtenBy (s : StatusByAncestor) (c : ControllerName) : List AncestorStatus :=
  s.ancestors.filter fun a => a.controllerName == c.text

/-- The entries under other names than that of `c`, in order. -/
def writtenByOthers (s : StatusByAncestor) (c : ControllerName) : List AncestorStatus :=
  s.ancestors.filter fun a => a.controllerName != c.text

end StatusByAncestor

namespace Entry

variable {c : ControllerName}

theorem controllerName_toStatus (e : Entry) : e.toStatus.controllerName = e.writer := by
  cases e <;> rfl

end Entry

namespace Register

open Entry

/-- What a controller does with a register. -/
inductive Call where
  | report (controller : ControllerName) (ancestor : AncestorRef) (conditions : ConditionSet)
  | record (report : Report)
  | withdraw (controller : ControllerName) (ancestor : AncestorRef)
  | withdrawExcept (controller : ControllerName) (keep : AncestorRef → Bool)
  | takeOver (ours : ControllerName) (status : StatusByAncestor)

namespace Call

/-- Whether the call reports or withdraws in the name of `c`. -/
def IsBy (c : ControllerName) : Call → Prop
  | .report controller _ _ => controller = c
  | .record made => made.key.controller = c
  | .withdraw controller _ => controller = c
  | .withdrawExcept controller _ => controller = c
  | .takeOver _ _ => False

/-- The report that a call makes. -/
def report? : Call → Option Report
  | .report controller ancestor conditions => some ⟨⟨ancestor, controller⟩, conditions⟩
  | .record made => some made
  | .withdraw _ _ => none
  | .withdrawExcept _ _ => none
  | .takeOver _ _ => none

end Call

/-- The register that comes of a report. One that refuses it stays as it is. -/
def reported (r : Register) : Except Unrecordable (Recorded × Register) → Register
  | .ok (_, r') => r'
  | .error _ => r

/-- The register after a call. -/
def after (r : Register) : Call → Register
  | .report controller ancestor conditions => r.reported (r.report controller ancestor conditions)
  | .record report => r.reported (r.record report)
  | .withdraw controller ancestor => (r.withdraw controller ancestor).2
  | .withdrawExcept controller keep => (r.withdrawExcept controller keep).2
  | .takeOver ours status => (r.takeOver ours status).2

/-- The register after some calls, one after the other. -/
def afterAll (r : Register) (calls : List Call) : Register := calls.foldl after r

section After

variable {r : Register} {c : ControllerName}

/-- A call leads from a reachable register to one. -/
theorem Reachable.after (h : r.Reachable) (call : Call) : (r.after call).Reachable := by
  cases call with
  | report controller ancestor conditions =>
    simp only [Register.after]
    cases ok : r.report controller ancestor conditions with
    | ok out => exact h.reported _ _ _ out.1 ok
    | error e => exact h
  | record report =>
    simp only [Register.after]
    cases ok : r.record report with
    | ok out => exact h.recorded _ out.1 ok
    | error e => exact h
  | withdraw controller ancestor => exact h.withdrawn controller ancestor
  | withdrawExcept controller keep => exact h.withdrawnExcept controller keep
  | takeOver ours status => exact h.tookOver ours status

theorem Reachable.afterAll (h : r.Reachable) (calls : List Call) : (r.afterAll calls).Reachable := by
  induction calls generalizing r with
  | nil => exact h
  | cons call calls ih => exact ih (h.after call)

/-- Both calls that report come to recording a report. -/
theorem after_of_report? {call : Call} {report : Report} (h : call.report? = some report) :
    r.after call = r.reported (r.record report) := by
  cases call <;> cases h <;> rfl

/-- A report revises the entry of its key, or adds one, or is refused. -/
theorem Sound.entries_reported (h : r.Sound) (report : Report) :
    (r.reported (r.record report)).entries =
        r.entries.map (revise report.key (r.carried report.key report.conditions)) ∨
      (r.reported (r.record report)).entries =
        r.entries ++ [.known report.key (r.carried report.key report.conditions)] ∨
      r.reported (r.record report) = r := by
  cases ok : r.record report with
  | ok out =>
    obtain ⟨-, -, entries⟩ := h.of_put (report_eq_ok_iff.1 ok)
    exact entries.imp id .inl
  | error e => exact .inr (.inr rfl)

/-- A report leaves the entries of other controllers alone. -/
theorem Sound.foreign_reported (h : r.Sound) (report : Report) :
    foreign report.key.controller (r.reported (r.record report)).entries =
      foreign report.key.controller r.entries := by
  rcases h.entries_reported report with entries | entries | same
  · rw [entries]
    exact foreign_map_revise report.key rfl _ _
  · have own : ∀ cs, (Entry.known report.key cs).isByOther report.key.controller = false :=
      fun cs => isByOther_known_self report.key.ancestor _ cs
    rw [entries, foreign, List.filter_append, List.filter_cons_of_neg (by simp [own])]
    exact List.append_nil _
  · rw [same]

/-- What `c` reports or withdraws leaves the entries of others alone. -/
theorem Sound.foreign_after (h : r.Sound) {call : Call} (hc : call.IsBy c) :
    foreign c (r.after call).entries = foreign c r.entries := by
  cases call with
  | report controller ancestor conditions =>
    obtain rfl := hc
    exact h.foreign_reported ⟨⟨ancestor, controller⟩, conditions⟩
  | record report =>
    obtain rfl := hc
    exact h.foreign_reported report
  | withdraw controller ancestor =>
    obtain rfl := hc
    rw [show r.after (.withdraw controller ancestor) = (r.withdraw controller ancestor).2 from rfl,
      (h.withdraw controller ancestor).2]
    exact foreign_filter_ancestorOf? (p := fun a => a != some ancestor) rfl _
  | withdrawExcept controller keep =>
    obtain rfl := hc
    exact h.foreign_withdrawExcept
  | takeOver ours status => exact hc.elim

/-- What others have in the stored status is what the register holds of them. -/
theorem writtenByOthers_toStatus (r : Register) (c : ControllerName) :
    r.toStatus.writtenByOthers c = (foreign c r.entries).map Entry.toStatus := by
  rw [StatusByAncestor.writtenByOthers, toStatus, List.filter_map, foreign]
  congr 2
  funext e
  rw [Function.comp, controllerName_toStatus, isByOther]

/-- What `c` has in the stored status is what the register holds of its own. -/
theorem writtenBy_toStatus (r : Register) (c : ControllerName) :
    r.toStatus.writtenBy c = (own c r.entries).map Entry.toStatus := by
  rw [StatusByAncestor.writtenBy, toStatus, List.filter_map, own]
  congr 2
  funext e
  rw [Function.comp, controllerName_toStatus, isByOther, bne, Bool.not_not]

end After

/-- Controllers do not touch each other's entries. What `c` reports or withdraws, accepted or not,
leaves all entries of others as they are; what it takes over leaves all of its own as they are.
Withdrawing all but some ancestors takes out the known entries of `c` for the others, tells these in
order, and keeps the rest in order. -/
theorem Reachable.isolates {r : Register} (h : r.Reachable) (c : ControllerName) :
    (∀ call : Call, call.IsBy c →
      (r.after call).toStatus.writtenByOthers c = r.toStatus.writtenByOthers c) ∧
    (∀ status, (r.after (.takeOver c status)).toStatus.writtenBy c = r.toStatus.writtenBy c) ∧
    ∀ keep, (r.withdrawExcept c keep).2.entries =
        (r.entries.filter fun e => !(e.ancestorOf? c).any fun a => !keep a) ∧
      (r.withdrawExcept c keep).1 =
        (r.entries.filterMap (ancestorOf? c)).filter fun a => !keep a := by
  have sound := h.resumable.sound
  refine ⟨?_, ?_, ?_⟩
  · intro call hc
    rw [writtenByOthers_toStatus, writtenByOthers_toStatus, sound.foreign_after hc]
  · intro status
    rw [writtenBy_toStatus, writtenBy_toStatus, Register.after, takeOver,
      (sound.mergeForeign c _).2.1, own_merged]
  · intro keep
    refine ⟨(sound.withdrawExcept c keep).2, ?_⟩
    rw [withdrawExcept, ancestorsOf_eq]

namespace Sample

/-- The one that reads is withdrawn, the one that does not stays, and the report of another
controller between them is not touched. -/
theorem isolates_stored :
    ∃ r : Register, r.Reachable ∧
      (r.withdrawExcept ⟨"example.net/mesh", rfl⟩ fun _ => false).1 =
        [⟨gatewayGroup, "Gateway", none, "g", none, none⟩] ∧
      (r.withdrawExcept ⟨"example.net/mesh", rfl⟩ fun _ => false).2.entries.map Entry.key? =
        [none, some reportKey] ∧
      ∀ cs, (r.after (.record ⟨reportKey, cs⟩)).toStatus.writtenByOthers reportKey.controller =
        storedStatus.ancestors.map (Entry.toStatus ∘ Entry.ofStatus) := by
  have loaded : ofStatus storedStatus =
      .ok ((storedStatus.ancestors.map Entry.ofStatus).foldl push empty) := rfl
  have reachable := (Reachable.loaded storedStatus loaded).reported reportKey.controller
    reportKey.ancestor .empty .inserted rfl
  obtain ⟨-, -, withdrawn⟩ := Reachable.isolates reachable ⟨"example.net/mesh", rfl⟩
  obtain ⟨entries, answer⟩ := withdrawn fun _ => false
  obtain ⟨kept, -, -⟩ := Reachable.isolates reachable reportKey.controller
  refine ⟨_, reachable, answer.trans (by decide), ?_, fun cs => ?_⟩
  · rw [entries]
    decide
  · rw [kept (.record ⟨reportKey, cs⟩) rfl]
    decide

end Sample

end Register
end PolicyAttachment
