import PolicyAttachment.Proofs.Tracker.Again

/-!
# The course of an event

An event begins with an edit of the policies, if it is about one. Whatever follows is a list of
stages: other targets and routes, passes over kinds, and conditions on ancestors brought up to date
with the marks. `handle_eq` says that events are no more than that, so what the edit establishes and
every stage keeps is true throughout.
-/

namespace PolicyAttachment
set_option autoImplicit false

/-- A part of what an occurrence leads to. -/
inductive Stage where
  /-- Other targets and routes are there. -/
  | place (targets : Table Target Unit) (routes : Table Target RouteLinks)
  | pass (retry : Bool) (kind : PolicyKind)
  | sync (force : Bool)

/-- One time that the conditions on ancestors are brought in step with the marks, with the tracker
that it starts from. -/
structure Sync where
  before : Tracker
  moment : Moment
  force : Bool

/-- The tracker that it leads to. -/
def Sync.after (y : Sync) : Tracker := y.before.syncFlags y.moment y.force

namespace Stage

/-- What a stage makes of a tracker. -/
def run (m : Moment) (tr : Tracker) : Stage → Tracker
  | place targets routes => { tr with targets, routes }
  | pass retry kind => tr.passOver m retry kind
  | sync force => tr.syncFlags m force

/-- What some stages make of a tracker, one after the other. -/
def runAll (m : Moment) (tr : Tracker) (stages : List Stage) : Tracker := stages.foldl (run m) tr

/-- Each stage with the tracker that it starts from. -/
def starts (m : Moment) : Tracker → List Stage → List (Tracker × Stage)
  | _, [] => []
  | tr, a :: as => (tr, a) :: starts m (a.run m tr) as

/-- The pass that a stage is, if it is one. -/
def pass? (m : Moment) : Tracker × Stage → Option Pass
  | (before, pass retry kind) => some ⟨before, m, retry, kind⟩
  | _ => none

/-- The time that a stage brings the conditions up to date, if it does. -/
def sync? (m : Moment) : Tracker × Stage → Option Sync
  | (before, sync force) => some ⟨before, m, force⟩
  | _ => none

/-- The passes among some stages. -/
def passes (m : Moment) (tr : Tracker) (stages : List Stage) : List Pass :=
  (starts m tr stages).filterMap (pass? m)

/-- The times among some stages that the conditions are brought up to date. -/
def syncs (m : Moment) (tr : Tracker) (stages : List Stage) : List Sync :=
  (starts m tr stages).filterMap (sync? m)

/-- What remains true whatever stage comes next. -/
structure Keeps (m : Moment) (P : Tracker → Prop) : Prop where
  place : ∀ {tr : Tracker}, P tr → ∀ targets routes, P { tr with targets, routes }
  pass : ∀ {tr : Tracker}, P tr → ∀ retry kind, P (tr.passOver m retry kind)
  sync : ∀ {tr : Tracker}, P tr → ∀ force, P (tr.syncFlags m force)

section Running

variable {m : Moment} {P : Tracker → Prop} {tr : Tracker}

theorem runAll_append (m : Moment) (tr : Tracker) (as bs : List Stage) :
    runAll m tr (as ++ bs) = runAll m (runAll m tr as) bs :=
  List.foldl_append

theorem starts_append (m : Moment) (tr : Tracker) (as bs : List Stage) :
    starts m tr (as ++ bs) = starts m tr as ++ starts m (runAll m tr as) bs := by
  induction as generalizing tr with
  | nil => rfl
  | cons a as ih => exact congrArg ((tr, a) :: ·) (ih (a.run m tr))

theorem passes_append (m : Moment) (tr : Tracker) (as bs : List Stage) :
    passes m tr (as ++ bs) = passes m tr as ++ passes m (runAll m tr as) bs := by
  rw [passes, starts_append, List.filterMap_append, passes, passes]

/-- What every stage keeps is kept by one. -/
theorem Keeps.run (keeps : Keeps m P) (h : P tr) (a : Stage) : P (a.run m tr) := by
  cases a with
  | place targets routes => exact keeps.place h targets routes
  | pass retry kind => exact keeps.pass h retry kind
  | sync force => exact keeps.sync h force

/-- What every stage keeps is kept by all that follow one another. -/
theorem Keeps.runAll (keeps : Keeps m P) (h : P tr) (stages : List Stage) :
    P (runAll m tr stages) := by
  induction stages generalizing tr with
  | nil => exact h
  | cons a as ih => exact ih (keeps.run h a)

theorem Keeps.starts (keeps : Keeps m P) (h : P tr) {stages : List Stage} {before : Tracker}
    {a : Stage} (ha : (before, a) ∈ starts m tr stages) : P before := by
  induction stages generalizing tr with
  | nil => cases ha
  | cons b bs ih =>
    obtain heq | ha := List.mem_cons.1 ha
    · cases heq
      exact h
    · exact ih (keeps.run h b) ha

/-- What is kept was true before every pass. -/
theorem Keeps.passes (keeps : Keeps m P) (h : P tr) {stages : List Stage} {p : Pass}
    (hp : p ∈ passes m tr stages) : p.moment = m ∧ P p.before := by
  obtain ⟨⟨before, a⟩, ha, heq⟩ := List.mem_filterMap.1 hp
  cases a with
  | pass retry kind =>
    cases heq
    exact ⟨rfl, keeps.starts h ha⟩
  | place targets routes => cases heq
  | sync force => cases heq

/-- What is kept was true before the conditions on ancestors were brought up to date. -/
theorem Keeps.syncs (keeps : Keeps m P) (h : P tr) {stages : List Stage} {y : Sync}
    (hy : y ∈ syncs m tr stages) : y.moment = m ∧ P y.before := by
  obtain ⟨⟨before, a⟩, ha, heq⟩ := List.mem_filterMap.1 hy
  cases a with
  | sync force =>
    cases heq
    exact ⟨rfl, keeps.starts h ha⟩
  | place targets routes => cases heq
  | pass retry kind => cases heq

/-- Two properties that are kept are kept together. -/
theorem Keeps.and {Q : Tracker → Prop} (keeps : Keeps m P) (keeps' : Keeps m Q) :
    Keeps m fun tr => P tr ∧ Q tr where
  place h targets routes := ⟨keeps.place h.1 targets routes, keeps'.place h.2 targets routes⟩
  pass h retry kind := ⟨keeps.pass h.1 retry kind, keeps'.pass h.2 retry kind⟩
  sync h force := ⟨keeps.sync h.1 force, keeps'.sync h.2 force⟩

end Running

/-- The stages of a pass over some kinds. -/
def passOver (kinds : List PolicyKind) : List Stage :=
  if kinds.isEmpty then [] else kinds.map (pass false) ++ [sync false]

/-- The stages of a pass over all kinds. -/
def full (leaseChanged : Bool) : List Stage :=
  PolicyKind.all.map (pass true) ++ [sync leaseChanged]

section Passing

variable (m : Moment) (tr : Tracker)

theorem runAll_map_pass (retry : Bool) (kinds : List PolicyKind) :
    runAll m tr (kinds.map (pass retry)) = kinds.foldl (Tracker.passOver m retry) tr :=
  List.foldl_map

/-- The stages of some passes come to these passes. -/
theorem runAll_passOver (kinds : List PolicyKind) : runAll m tr (passOver kinds) = tr.pass m kinds := by
  unfold passOver Tracker.pass
  split
  · rfl
  · rw [runAll_append, runAll_map_pass]
    rfl

theorem runAll_full (leaseChanged : Bool) :
    runAll m tr (full leaseChanged) = tr.fullPass m leaseChanged := by
  unfold full Tracker.fullPass
  rw [runAll_append, ← runAll_map_pass]
  simp only [runAll, List.foldl_cons, List.foldl_nil, run]

theorem passes_map_pass (retry : Bool) (kinds : List PolicyKind) :
    passes m tr (kinds.map (pass retry)) = Tracker.passesOver m retry kinds tr := by
  induction kinds generalizing tr with
  | nil => rfl
  | cons kind kinds ih =>
    rw [List.map_cons, Tracker.passesOver, ← ih]
    simp only [passes, starts, List.filterMap_cons, pass?, run]

theorem passes_map_pass_sync (retry force : Bool) (kinds : List PolicyKind) :
    passes m tr (kinds.map (pass retry) ++ [sync force]) =
      Tracker.passesOver m retry kinds tr := by
  rw [passes_append, passes_map_pass]
  exact List.append_nil _

/-- The passes among these stages are the passes over the kinds, one by one. -/
theorem passes_passOver (kinds : List PolicyKind) :
    passes m tr (passOver kinds) = Tracker.passesOver m false kinds tr := by
  unfold passOver
  split
  · rename_i none
    rw [List.isEmpty_iff.1 none]
    rfl
  · exact passes_map_pass_sync m tr false false kinds

end Passing

end Stage

namespace Tracker

open Stage (runAll)

section Stages

/-- The stages for the policies that name a target. -/
def targetStages (tr : Tracker) (target : Target) : List Stage :=
  Stage.passOver (tr.kindsWith fun _ s => s.facts.targets.contains target)

/-- The stages for the policies that report per ancestor. -/
def routeStages (tr : Tracker) : List Stage :=
  Stage.passOver (tr.kindsWith fun ref _ => ref.kind.reportsByAncestor)

def putPolicyStages (tr : Tracker) (ref : PolicyKey) (facts : PolicyFacts) : List Stage :=
  if (tr.sighting ref facts).1 then Stage.passOver [ref.kind] else []

def dropPolicyStages (tr : Tracker) (ref : PolicyKey) : List Stage :=
  if tr.policies.contains ref then Stage.passOver [ref.kind] else []

def putTargetStages (tr : Tracker) (target : Target) : List Stage :=
  if tr.targets.contains target then []
  else .place (tr.targets.insert target ()) tr.routes :: tr.targetStages target

def dropTargetStages (tr : Tracker) (target : Target) : List Stage :=
  if tr.targets.contains target then
    .place (tr.targets.erase target) tr.routes :: tr.targetStages target
  else []

def putRouteStages (m : Moment) (tr : Tracker) (route : Target) (refs : RouteLinks) : List Stage :=
  let linked := { tr with routes := tr.routes.insert route refs }
  .place tr.targets linked.routes :: linked.putTargetStages route ++
    if tr.routes.get? route != some refs then (linked.putTarget m route).routeStages else []

def dropRouteStages (m : Moment) (tr : Tracker) (route : Target) : List Stage :=
  let unlinked := { tr with routes := tr.routes.erase route }
  .place tr.targets unlinked.routes :: unlinked.dropTargetStages route ++
    if tr.routes.contains route then (unlinked.dropTarget m route).routeStages else []

def putObjectStages (m : Moment) (tr : Tracker) (ns name : String) : WatchedObject → List Stage
  | .service _ => tr.putTargetStages ⟨"", "Service", ns, name⟩
  | .gateway _ => tr.putTargetStages ⟨gatewayGroup, "Gateway", ns, name⟩
  | .httpRoute _ spec =>
    tr.putRouteStages m ⟨gatewayGroup, "HTTPRoute", ns, name⟩ (.ofSpec ns spec)
  | .policy p => tr.putPolicyStages ⟨p.kind, ⟨ns, name⟩⟩ (p.facts ns)

def dropObjectStages (m : Moment) (tr : Tracker) (ns name : String) : WatchedKind → List Stage
  | .service => tr.dropTargetStages ⟨"", "Service", ns, name⟩
  | .gateway => tr.dropTargetStages ⟨gatewayGroup, "Gateway", ns, name⟩
  | .httpRoute => tr.dropRouteStages m ⟨gatewayGroup, "HTTPRoute", ns, name⟩
  | .policy kind => tr.dropPolicyStages ⟨kind, ⟨ns, name⟩⟩

/-- The stages that an event leads to. -/
def stages (m : Moment) (tr : Tracker) : Event → List Stage
  | .applied object =>
    match object.metadata.ns, object.metadata.name with
    | some ns, some name => tr.putObjectStages m ns name object
    | _, _ => []
  | .deleted kind ns name => tr.dropObjectStages m ns name kind

/-- The tracker after what an event says of a policy, before any stage. -/
def entered (tr : Tracker) : Event → Tracker
  | .applied object =>
    match object, object.metadata.ns, object.metadata.name with
    | .policy p, some ns, some name => tr.sighted ⟨p.kind, ⟨ns, name⟩⟩ (p.facts ns)
    | _, _, _ => tr
  | .deleted (.policy kind) ns name =>
    { tr with policies := tr.policies.erase ⟨kind, ⟨ns, name⟩⟩ }
  | .deleted _ _ _ => tr

end Stages

section Running

variable (m : Moment) (tr : Tracker)

/-- A policy that comes is handled stage by stage. -/
theorem putPolicy_eq_runAll (ref : PolicyKey) (facts : PolicyFacts) :
    tr.putPolicy m ref facts =
      runAll m (tr.sighted ref facts) (tr.putPolicyStages ref facts) := by
  rw [putPolicy_eq, putPolicyStages]
  split
  · exact (Stage.runAll_passOver m _ _).symm
  · rfl

theorem dropPolicy_eq_runAll (ref : PolicyKey) :
    tr.dropPolicy m ref =
      runAll m { tr with policies := tr.policies.erase ref } (tr.dropPolicyStages ref) := by
  unfold dropPolicy dropPolicyStages
  split
  · exact (Stage.runAll_passOver m _ _).symm
  · rename_i absent
    rw [Table.erase_of_not_contains (by simpa using absent)]
    rfl

theorem putTarget_eq_runAll (target : Target) :
    tr.putTarget m target = runAll m tr (tr.putTargetStages target) := by
  unfold putTarget putTargetStages
  split
  · rfl
  · exact (Stage.runAll_passOver m _ _).symm

theorem dropTarget_eq_runAll (target : Target) :
    tr.dropTarget m target = runAll m tr (tr.dropTargetStages target) := by
  unfold dropTarget dropTargetStages
  split
  · exact (Stage.runAll_passOver m _ _).symm
  · rfl

theorem afterRoute_eq_runAll (changed : Bool) :
    (if changed then tr.passAfterRoute m else tr) =
      runAll m tr (if changed then tr.routeStages else []) := by
  split
  · exact (Stage.runAll_passOver m _ _).symm
  · rfl

theorem putRoute_eq_runAll (route : Target) (refs : RouteLinks) :
    tr.putRoute m route refs = runAll m tr (tr.putRouteStages m route refs) := by
  unfold putRouteStages
  rw [Stage.runAll_append, ← List.singleton_append, Stage.runAll_append]
  refine (afterRoute_eq_runAll m _ _).trans ?_
  rw [putTarget_eq_runAll]
  rfl

theorem dropRoute_eq_runAll (route : Target) :
    tr.dropRoute m route = runAll m tr (tr.dropRouteStages m route) := by
  unfold dropRouteStages
  rw [Stage.runAll_append, ← List.singleton_append, Stage.runAll_append]
  refine (afterRoute_eq_runAll m _ _).trans ?_
  rw [dropTarget_eq_runAll]
  rfl

variable {m tr}

/-- An event is its edit of the policies, followed by its stages. -/
theorem handle_eq {tr' : Tracker} {e : Event} (h : tr.handle m e = .ok tr') :
    tr' = runAll m (tr.entered e) (tr.stages m e) := by
  cases e with
  | applied object =>
    obtain ⟨hns, rfl⟩ | ⟨ns, name, hns, hname, rfl⟩ := handle_applied h
    · simp only [entered, stages, hns]
      rfl
    · simp only [entered, stages, hns, hname]
      cases object with
      | service metadata => exact putTarget_eq_runAll m tr _
      | gateway metadata => exact putTarget_eq_runAll m tr _
      | httpRoute metadata spec => exact putRoute_eq_runAll m tr _ _
      | policy p => exact putPolicy_eq_runAll m tr _ _
  | deleted kind ns name =>
    cases h
    cases kind with
    | service => exact dropTarget_eq_runAll m tr _
    | gateway => exact dropTarget_eq_runAll m tr _
    | httpRoute => exact dropRoute_eq_runAll m tr _
    | policy kind => exact dropPolicy_eq_runAll m tr _

/-- A record after an event was there before, or it is that of the policy that was seen. -/
theorem record_of_entered {e : Event} {ref : PolicyKey} {r : PolicyRecord}
    (h : (tr.entered e).policies.get? ref = some r) :
    tr.policies.get? ref = some r ∨
      ∃ (p : Policy) (ns : String), r = (tr.sighting ref (p.facts ns)).2 := by
  cases e with
  | applied object =>
    simp only [entered] at h
    split at h
    · simp only [sighted, Table.get?_insert] at h
      split at h
      · rename_i heq
        cases h
        exact .inr ⟨_, _, by rw [heq]⟩
      · exact .inl h
    · exact .inl h
  | deleted kind ns name =>
    cases kind with
    | policy kind =>
      simp only [entered, Table.get?_erase] at h
      split at h
      · cases h
      · exact .inl h
    | service => exact .inl h
    | gateway => exact .inl h
    | httpRoute => exact .inl h

end Running

section Passes

variable (m : Moment) (tr : Tracker)

theorem passes_putTargetStages (target : Target) :
    Stage.passes m tr (tr.putTargetStages target) = tr.putTargetPasses m target := by
  unfold putTargetStages putTargetPasses
  split
  · rfl
  · exact Stage.passes_passOver m _ _

theorem passes_dropTargetStages (target : Target) :
    Stage.passes m tr (tr.dropTargetStages target) = tr.dropTargetPasses m target := by
  unfold dropTargetStages dropTargetPasses
  split
  · exact Stage.passes_passOver m _ _
  · rfl

theorem passes_routeStages (changed : Bool) :
    Stage.passes m tr (if changed then tr.routeStages else []) =
      if changed then tr.afterRoutePasses m else [] := by
  split
  · exact Stage.passes_passOver m _ _
  · rfl

theorem passes_putRouteStages (route : Target) (refs : RouteLinks) :
    Stage.passes m tr (tr.putRouteStages m route refs) = tr.putRoutePasses m route refs := by
  unfold putRouteStages putRoutePasses
  rw [Stage.passes_append]
  refine congrArg₂ (· ++ ·) (passes_putTargetStages m _ route) ?_
  refine Eq.trans ?_ (passes_routeStages m _ _)
  rw [putTarget_eq_runAll]
  rfl

theorem passes_dropRouteStages (route : Target) :
    Stage.passes m tr (tr.dropRouteStages m route) = tr.dropRoutePasses m route := by
  unfold dropRouteStages dropRoutePasses
  rw [Stage.passes_append]
  refine congrArg₂ (· ++ ·) (passes_dropTargetStages m _ route) ?_
  refine Eq.trans ?_ (passes_routeStages m _ _)
  rw [dropTarget_eq_runAll]
  rfl

theorem passes_putPolicyStages (ref : PolicyKey) (facts : PolicyFacts) :
    Stage.passes m (tr.sighted ref facts) (tr.putPolicyStages ref facts) =
      tr.putPolicyPasses m ref facts := by
  unfold putPolicyStages putPolicyPasses
  split
  · exact Stage.passes_passOver m _ _
  · rfl

theorem passes_dropPolicyStages (ref : PolicyKey) :
    Stage.passes m { tr with policies := tr.policies.erase ref } (tr.dropPolicyStages ref) =
      tr.dropPolicyPasses m ref := by
  unfold dropPolicyStages dropPolicyPasses
  split
  · exact Stage.passes_passOver m _ _
  · rfl

/-- The passes among the stages of an event are the passes of the event. -/
theorem passes_stages (e : Event) :
    Stage.passes m (tr.entered e) (tr.stages m e) = tr.handlePasses m e := by
  cases e with
  | applied object =>
    simp only [entered, stages, handlePasses]
    cases hns : object.metadata.ns with
    | none => rfl
    | some ns =>
      cases hname : object.metadata.name with
      | none => rfl
      | some name =>
        cases object with
        | service metadata => exact passes_putTargetStages m tr _
        | gateway metadata => exact passes_putTargetStages m tr _
        | httpRoute metadata spec => exact passes_putRouteStages m tr _ _
        | policy p => exact passes_putPolicyStages m tr _ _
  | deleted kind ns name =>
    cases kind with
    | service => exact passes_dropTargetStages m tr _
    | gateway => exact passes_dropTargetStages m tr _
    | httpRoute => exact passes_dropRouteStages m tr _
    | policy kind => exact passes_dropPolicyStages m tr _

end Passes

end Tracker
end PolicyAttachment
