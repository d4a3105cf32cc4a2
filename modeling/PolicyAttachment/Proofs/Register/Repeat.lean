import PolicyAttachment.Proofs.Register.Search
import PolicyAttachment.Proofs.Register.Since

/-!
# Reporting the same again

A controller reports on every pass what it has reported before, with the time of the pass. The times
of conditions that did not change their status are inherited from the entry, so such a report changes
nothing and asks for no write, as long as nothing else has touched the entry in between, wherever in
the list the entry has come to stand: `Register.Reachable.report_again`.
-/

namespace PolicyAttachment
set_option autoImplicit false

namespace Register

open Entry

namespace Call

/-- Whether the call leaves the entry of `key` alone: it reports or withdraws another one, withdraws
all but some and keeps this one, or takes over what others than its writer stored. -/
def Spares (key : EntryKey) : Call → Prop
  | .report controller ancestor _ => (⟨ancestor, controller⟩ : EntryKey) ≠ key
  | .record made => made.key ≠ key
  | .withdraw controller ancestor => (⟨ancestor, controller⟩ : EntryKey) ≠ key
  | .withdrawExcept controller keep => controller = key.controller → keep key.ancestor = true
  | .takeOver ours _ => ours = key.controller

end Call

section Sparing

variable {r : Register} {key : EntryKey} {call : Call} {cs : ConditionSet}

/-- A report for another key leaves the entry as it is, whether it is recorded or refused. -/
theorem Sound.known_mem_reported (h : r.Sound) (report : Report) (other : report.key ≠ key)
    (hm : .known key cs ∈ r.entries) : .known key cs ∈ (r.reported (r.record report)).entries := by
  rcases h.entries_reported report with entries | entries | same
  · rw [entries, known_mem_map_revise_iff]
    exact .inr ⟨other.symm, hm⟩
  · rw [entries]
    exact List.mem_append_left _ hm
  · rwa [same]

/-- A call that spares a key leaves its entry. -/
theorem Sound.known_mem_after (h : r.Sound) (spares : call.Spares key)
    (hm : .known key cs ∈ r.entries) : .known key cs ∈ (r.after call).entries := by
  cases call with
  | report controller ancestor conditions =>
    exact h.known_mem_reported ⟨⟨ancestor, controller⟩, conditions⟩ spares hm
  | record report => exact h.known_mem_reported report spares hm
  | withdraw controller ancestor =>
    rw [after, (h.withdraw controller ancestor).2, List.mem_filter, bne_iff_ne]
    refine ⟨hm, fun same => spares ?_⟩
    exact (Option.some.inj (ancestorOf?_eq_some_iff.1 same)).symm
  | withdrawExcept controller keep =>
    rw [after, (h.withdrawExcept controller keep).2, List.mem_filter]
    refine ⟨hm, ?_⟩
    cases ha : (Entry.known key cs).ancestorOf? controller with
    | none => rfl
    | some a =>
      obtain rfl := Option.some.inj (ancestorOf?_eq_some_iff.1 ha)
      rw [Option.any_some, Bool.not_not]
      exact spares rfl
  | takeOver ours status =>
    obtain rfl : ours = key.controller := spares
    exact (known_mem_iff_of_own (h.own_takeOver key.controller status)).2 hm

/-- Any number of calls that spare a key leave its entry. -/
theorem Reachable.known_mem_afterAll (h : r.Reachable) {calls : List Call}
    (spare : ∀ call ∈ calls, call.Spares key) (hm : .known key cs ∈ r.entries) :
    .known key cs ∈ (r.afterAll calls).entries := by
  induction calls generalizing r with
  | nil => exact hm
  | cons call calls ih =>
    exact ih (h.after call) (fun c hc => spare c (List.mem_cons_of_mem call hc))
      (h.resumable.sound.known_mem_after (spare call List.mem_cons_self) hm)

/-- A report of what an entry says already leaves the register as it is. -/
theorem Sound.report_of_saysSame (h : r.Sound) {again : ConditionSet} (same : cs.SaysSame again)
    (hm : .known key cs ∈ r.entries) :
    r.report key.controller key.ancestor again = .ok (.unchanged, r) := by
  have inherited : r.carried key again = cs := by
    rw [carried, h.get?_eq_some_iff.2 hm]
    exact ConditionSet.inheritTimes_eq_previous same
  rw [report_eq_ok_iff, inherited]
  rcases h.put_cases key cs with ⟨old, how, r', hold, put, -, -, rfl, stays⟩ | ⟨absent, -⟩ |
    ⟨absent, -⟩
  · obtain rfl := h.known_unique hold hm
    rw [put, stays rfl, if_pos rfl]
  · exact absurd hm (absent cs)
  · exact absurd hm (absent cs)

/-- What is recorded for `key` says what was reported. -/
theorem Sound.exists_known_of_report (h : r.Sound) {first again : ConditionSet}
    (same : first.SaysSame again) {how : Recorded} {r' : Register}
    (ok : r.report key.controller key.ancestor first = .ok (how, r')) :
    ∃ recorded : ConditionSet, recorded.SaysSame again ∧ .known key recorded ∈ r'.entries := by
  refine ⟨r.carried key first, ?_, (h.of_put (report_eq_ok_iff.1 ok)).2.1⟩
  unfold carried
  split
  · exact same.inheritTimes _
  · exact same

/-- After a report is recorded, a report that says the same, if perhaps with other times, is answered
that nothing changed and leaves the register as it is, whatever was called in between that spares the
entry. -/
theorem Reachable.report_again (h : r.Reachable) {first again : ConditionSet}
    (same : first.SaysSame again) {how : Recorded} {r' : Register}
    (ok : r.report key.controller key.ancestor first = .ok (how, r')) {calls : List Call}
    (spare : ∀ call ∈ calls, call.Spares key) :
    (r'.afterAll calls).report key.controller key.ancestor again =
      .ok (.unchanged, r'.afterAll calls) := by
  have reachable : r'.Reachable := h.reported _ _ _ how ok
  obtain ⟨recorded, alike, hm⟩ := h.resumable.sound.exists_known_of_report same ok
  exact (reachable.afterAll calls).resumable.sound.report_of_saysSame alike
    (reachable.known_mem_afterAll spare hm)

end Sparing

namespace Sample

/-- The entry in front of ours is withdrawn and comes back behind it, and what others have stored comes
in. -/
def meanwhile : List Call :=
  [.withdraw mesh reportKey.ancestor, .takeOver reportKey.controller storedStatus,
    .report mesh reportKey.ancestor (bothAt 4),
    .withdrawExcept reportKey.controller fun a => a = reportKey.ancestor,
    .record ⟨⟨service "b", reportKey.controller⟩, bothAt 5⟩]

/-- Our entry moves up to the front. -/
theorem report_again_moved : ∃ r r' : Register,
    empty.report mesh reportKey.ancestor (bothAt 2) = .ok (.inserted, r) ∧
    r.report reportKey.controller reportKey.ancestor (bothAt 3) = .ok (.inserted, r') ∧
    r'.entries.findIdx? (fun e => e.key? = some reportKey) = some 1 ∧
    (r'.afterAll meanwhile).entries.findIdx? (fun e => e.key? = some reportKey) = some 0 ∧
    (r'.afterAll meanwhile).report reportKey.controller reportKey.ancestor (bothAt 6) =
      .ok (.unchanged, r'.afterAll meanwhile) := by
  have same : (bothAt 3).SaysSame (bothAt 6) :=
    .cons ⟨rfl, rfl, rfl, rfl, rfl⟩ (.cons ⟨rfl, rfl, rfl, rfl, rfl⟩ .nil)
  have spare : ∀ call ∈ meanwhile, call.Spares reportKey := by
    intro call hc
    simp only [meanwhile, List.mem_cons, List.not_mem_nil, or_false] at hc
    rcases hc with rfl | rfl | rfl | rfl | rfl
    · rw [Call.Spares]
      decide
    · rfl
    · rw [Call.Spares]
      decide
    · exact fun _ => decide_eq_true rfl
    · rw [Call.Spares]
      decide
  have reachable := Reachable.empty.reported mesh reportKey.ancestor (bothAt 2) .inserted rfl
  exact ⟨_, _, rfl, rfl, by decide +kernel, by decide +kernel,
    Reachable.report_again reachable same rfl spare⟩

end Sample

end Register
end PolicyAttachment
