import PolicyAttachment.Proofs.Session.Present

/-!
# Marks

A policy is marked on an ancestor that found no room in its status. Room is looked for before the
entries that are out of date are taken out, so the status need not be full once the pass is over: the
entries left and those taken out by the same pass fill it, `Session.Run.full_of_marked`.
-/

namespace PolicyAttachment
set_option autoImplicit false

/-- The ancestors whose entries of `ours` a pass takes out of the status of a policy. -/
def Pass.withdrawn (p : Pass) (ours : ControllerName) (ref : PolicyKey) : List AncestorRef :=
  match p.before.policies.get? ref, p.after.policies.get? ref with
  | some old, some new =>
    (old.register.ancestorsOf ours).filter fun a => a ∉ new.register.ancestorsOf ours
  | _, _ => []

/-- Of a record before and after, what is withdrawn is the difference of their ancestors. -/
theorem Pass.withdrawn_eq {p : Pass} {ref : PolicyKey} {old new : PolicyRecord}
    (hold : p.before.policies.get? ref = some old) (hnew : p.after.policies.get? ref = some new)
    (ours : ControllerName) : p.withdrawn ours ref =
      (old.register.ancestorsOf ours).filter fun a => a ∉ new.register.ancestorsOf ours := by
  rw [withdrawn, hold, hnew]

/-- A pass that marks a policy leaves no entry of ours for the ancestor, and as many entries as fill
a register together with those it took out. -/
theorem Tracker.Passed.fills_of_marked {m : Moment} {retry : Bool} {tr tr' : Tracker}
    {ref : PolicyKey} (h : Passed m retry ref.kind tr tr') (sound : tr.Sound) {a : Target}
    (marked : (tr'.markOf? a ref).isSome) :
    ∃ old new, tr.policies.get? ref = some old ∧ tr'.policies.get? ref = some new ∧
      a.ancestorRef ∉ new.register.ancestorsOf tr.reporter.controller ∧
      new.register.size + ((old.register.ancestorsOf tr.reporter.controller).filter
        fun a => a ∉ new.register.ancestorsOf tr.reporter.controller).length = maxAncestors := by
  obtain ⟨old, hold, blocked⟩ := (h.marked a ref rfl).1 marked
  obtain ⟨pending, hnew⟩ := h.reviewed hold rfl
  refine ⟨old, _, hold, hnew, ?_⟩
  cases hr : ref.kind.reportsByAncestor with
  | false =>
    rw [(review_of_not_reportsByAncestor hr).2] at blocked
    cases blocked
  | true =>
    have reviewed := reviewed_review tr m.now (sound ref old hold) hr
    refine ⟨?_, reviewed.full (List.ne_nil_of_mem blocked)⟩
    intro listed
    obtain ⟨e, he, notLeft, heq⟩ := (reviewed.mem_ancestorsOf _).1 listed
    exact notLeft (Target.ancestorRef_inj.1 heq ▸ blocked)

namespace Session

variable {reporter : Reporter} {es : List Event} {ps : List Pass} {s : Session}

/-- In every run, a policy that is marked on an ancestor has no entry of ours for it. After the pass
that set the mark its status is full exactly if this pass took no entry of ours out. -/
theorem Run.full_of_marked (run : Run reporter es ps s) {ref : PolicyKey} {a : Target}
    (marked : (s.tracker.markOf? a ref).isSome) :
    ∃ p new r, Pass.last? ref.kind ps = some p ∧ p.after.policies.get? ref = some new ∧
      s.tracker.policies.get? ref = some r ∧ r.register = new.register ∧
      a.ancestorRef ∉ new.register.ancestorsOf reporter.controller ∧
      new.register.size + (p.withdrawn reporter.controller ref).length = maxAncestors ∧
      (new.register.size = maxAncestors ↔ p.withdrawn reporter.controller ref = []) := by
  obtain ⟨capacity, turn⟩ := run.turn
  have before := (turn.sound (sound_empty reporter capacity)).2
  have agree := (turn.kept ref.kind).resolve_left id
  rw [agree.marks a ref rfl] at marked
  cases hp : Pass.last? ref.kind ps with
  | none =>
    rw [Pass.leftBy, hp] at marked
    cases marked
  | some p =>
    rw [Pass.leftBy_of_last? hp] at marked agree
    have passed := p.passed_after
    rw [Pass.kind_of_last? hp] at passed
    obtain ⟨old, new, hold, hnew, absent, full⟩ :=
      passed.fills_of_marked (before p (Pass.mem_of_last? hp)) marked
    obtain ⟨r, hr, same⟩ := agree.get? hnew rfl
    have hreporter : p.before.reporter = reporter := by
      rw [← passed.reporter, ← agree.reporter, run.reporter_eq]
    rw [hreporter] at absent full
    rw [← Pass.withdrawn_eq hold hnew] at full
    refine ⟨p, new, r, rfl, hnew, hr, Tracker.register_of_essence same, absent, full, ?_⟩
    rw [← List.length_eq_zero_iff]
    omega

/-- Fifteen entries are left, and one was taken out in the pass that set the mark. -/
theorem full_of_marked_crowded :
    (Sample.seen.tracker.markOf? (Sample.service "c") Sample.key).isSome ∧
    ∃ p, Pass.last? Sample.key.kind
      (Sample.start.passes Sample.now (.event (.applied (.policy Sample.crowded)))) = some p ∧
      (p.withdrawn Sample.ours Sample.key).length = 1 := by
  have marked : (Sample.seen.tracker.markOf? (Sample.service "c") Sample.key).isSome := by
    decide +kernel
  obtain ⟨p, new, r, hp, hnew, hr, same, -, full, -⟩ :=
    Run.full_of_marked Sample.run_seen marked
  have size : (Sample.seen.tracker.policies.get? Sample.key).map (·.register.size) = some 15 := by
    decide +kernel
  rw [hr, Option.map_some, same] at size
  have := Option.some.inj size
  rw [this, maxAncestors] at full
  refine ⟨marked, p, hp, ?_⟩
  show (p.withdrawn Sample.reporter.controller Sample.key).length = 1
  omega

/-- A marked policy whose status holds fifteen entries. -/
theorem marked_not_full :
    Run Sample.reporter [.applied (.policy Sample.crowded)]
      (Sample.start.passes Sample.now (.event (.applied (.policy Sample.crowded)))) Sample.seen ∧
    (Sample.seen.tracker.markOf? (Sample.service "c") Sample.key).isSome ∧
    ∃ r, Sample.seen.tracker.policies.get? Sample.key = some r ∧ r.register.size ≠ maxAncestors := by
  refine ⟨Sample.run_seen, by decide +kernel, ?_⟩
  have size : (Sample.seen.tracker.policies.get? Sample.key).map (·.register.size) = some 15 := by
    decide +kernel
  obtain ⟨r, hr, hsize⟩ := Option.map_eq_some_iff.1 size
  exact ⟨r, hr, by rw [hsize]; decide⟩

end Session
end PolicyAttachment
