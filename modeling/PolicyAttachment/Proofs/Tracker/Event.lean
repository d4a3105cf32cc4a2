import PolicyAttachment.Proofs.Tracker.Turn

/-!
# What an event does

Each handler edits one table and passes over the kinds that the edit can affect. The edits are looked
at first, one lemma each, with the kinds to which they owe a pass; then the handlers, and with them
`turn_handle`: after any event, every kind is as the last pass over it left it.
-/

namespace PolicyAttachment
set_option autoImplicit false

namespace Register

/-- Taking over a stored list keeps a register sound. -/
theorem sound_takeOver {r : Register} (h : r.Sound) (ours : ControllerName)
    (status : StatusByAncestor) : (r.takeOver ours status).2.Sound :=
  (h.mergeForeign ours _).1

end Register

namespace PolicyRecord

theorem sound_first (controller : ControllerName) (kind : PolicyKind) (facts : PolicyFacts) :
    (first controller kind facts).register.Sound := by
  unfold first
  cases hr : Register.ofStatus facts.storedAncestors with
  | ok r => exact (Register.ofEntries_sound hr).2
  | error x => exact Register.sound_takeOver Register.sound_empty controller facts.storedAncestors

theorem sound_seen {old : PolicyRecord} (h : old.register.Sound) (controller : ControllerName)
    (kind : PolicyKind) (facts : PolicyFacts) :
    (old.seen controller kind facts).2.register.Sound :=
  Register.sound_takeOver h controller facts.storedAncestors

/-- A policy that is seen again unchanged has the same record, in essence. -/
theorem essence_seen {old : PolicyRecord} (h : old.register.Sound) {controller : ControllerName}
    {kind : PolicyKind} {facts : PolicyFacts} (same : (old.seen controller kind facts).1 = false) :
    (old.seen controller kind facts).2.essence = old.essence := by
  simp only [seen, Bool.or_eq_false_iff, Bool.not_eq_false'] at same
  obtain ⟨kept, unchanged⟩ := same
  have register : (old.register.takeOver controller facts.storedAncestors).2 = old.register :=
    (h.mergeForeign controller _).2.2 kept
  simp only [isUnchanged, Bool.and_eq_true, decide_eq_true_eq] at unchanged
  obtain ⟨⟨⟨⟨⟨⟨conditions, -⟩, -⟩, targets⟩, created⟩, generation⟩, invalid⟩ := unchanged
  simp only [seen, essence, register, conditions, targets, created, generation, invalid]

end PolicyRecord

namespace Tracker

section Tables

variable {tr tr' tr'' : Tracker}

/-- Both trackers know the same objects. -/
structure SameObjects (tr tr' : Tracker) : Prop where
  reporter : tr'.reporter = tr.reporter
  facts : tr'.facts = tr.facts
  targets : tr'.targets = tr.targets
  routes : tr'.routes = tr.routes

theorem SameObjects.refl (tr : Tracker) : SameObjects tr tr := ⟨rfl, rfl, rfl, rfl⟩

theorem SameObjects.trans (h : SameObjects tr tr') (h' : SameObjects tr' tr'') :
    SameObjects tr tr'' :=
  ⟨h'.reporter.trans h.reporter, h'.facts.trans h.facts, h'.targets.trans h.targets,
    h'.routes.trans h.routes⟩

/-- A pass is no news of objects. -/
theorem sameObjects_passOver (m : Moment) (retry : Bool) (tr : Tracker) (kind : PolicyKind) :
    SameObjects tr (tr.passOver m retry kind) := by
  have h := passed_passOver m retry tr kind
  exact ⟨h.reporter, h.facts, h.targets, h.routes⟩

theorem sameObjects_foldl_passOver (m : Moment) (retry : Bool) (kinds : List PolicyKind)
    (tr : Tracker) : SameObjects tr (kinds.foldl (passOver m retry) tr) := by
  induction kinds generalizing tr with
  | nil => exact .refl tr
  | cons kind kinds ih => exact (sameObjects_passOver m retry tr kind).trans (ih _)

theorem sameObjects_syncFlags (m : Moment) (force : Bool) (tr : Tracker) :
    SameObjects tr (tr.syncFlags m force) := by
  obtain ⟨offered, -, h, -⟩ := sendsFlags_syncFlags m force tr
  exact ⟨h.reporter, h.facts, h.targets, h.routes⟩

theorem sameObjects_pass (m : Moment) (kinds : List PolicyKind) (tr : Tracker) :
    SameObjects tr (tr.pass m kinds) := by
  unfold pass
  split
  · exact .refl tr
  · exact (sameObjects_foldl_passOver m false kinds tr).trans (sameObjects_syncFlags m false _)

theorem sameObjects_fullPass (m : Moment) (leaseChanged : Bool) (tr : Tracker) :
    SameObjects tr (tr.fullPass m leaseChanged) :=
  (sameObjects_foldl_passOver m true PolicyKind.all tr).trans
    (sameObjects_syncFlags m leaseChanged _)

theorem get?_facts (tr : Tracker) (ref : PolicyKey) :
    tr.facts.get? ref = (tr.policies.get? ref).map PolicyRecord.facts :=
  Table.get?_mapValues _ _ _

end Tables

section Edits

variable {tr : Tracker} {kind : PolicyKind} {ref : PolicyKey} {s : PolicyRecord}

/-- A kind that has policies. -/
def Has (tr : Tracker) (kind : PolicyKind) : Prop :=
  ∃ ref s, tr.policies.get? ref = some s ∧ ref.kind = kind

/-- A kind of policies that name `target`. -/
def Names (tr : Tracker) (target : Target) (kind : PolicyKind) : Prop :=
  ∃ ref s, tr.policies.get? ref = some s ∧ ref.kind = kind ∧ target ∈ s.facts.targets

/-- A kind is gone over if one of its policies asks for it. -/
theorem mem_kindsWith_iff {p : PolicyKey → PolicyRecord → Bool} :
    kind ∈ tr.kindsWith p ↔
      ∃ ref s, tr.policies.get? ref = some s ∧ ref.kind = kind ∧ p ref s = true := by
  simp only [kindsWith, List.mem_filter, PolicyKind.mem_all, true_and, List.any_eq_true,
    Bool.and_eq_true, beq_iff_eq, Prod.exists, Table.mem_entries_iff]

/-- Which kinds have policies of which some fact is true. -/
theorem kindsWith_of_facts {tr' : Tracker} (p : PolicyKey → PolicyFacts → Bool)
    (facts : tr'.facts = tr.facts) :
    tr'.kindsWith (fun ref s => p ref s.facts) = tr.kindsWith fun ref s => p ref s.facts := by
  have byFacts : ∀ tr : Tracker, (tr.kindsWith fun ref s => p ref s.facts) =
      PolicyKind.all.filter fun kind => tr.facts.entries.any fun e => e.1.kind == kind && p e.1 e.2 := by
    intro tr
    simp only [kindsWith, Tracker.facts, Table.mapValues, List.any_map, Function.comp_def]
  rw [byFacts, byFacts, facts]

/-- A policy of another kind does not matter to the statuses of this one. -/
theorem essences_insert_of_ne (h : ref.kind ≠ kind) :
    { tr with policies := tr.policies.insert ref s }.essences kind = tr.essences kind := by
  simp only [essences, Table.insert]
  split
  · simp only [Table.mapValues, List.map_map, List.filter_map]
    apply List.map_congr_left
    rintro ⟨other, t⟩ hm
    have hother : other.kind = kind := by simpa using (List.mem_filter.1 hm).2
    have : other ≠ ref := fun heq => h (heq ▸ hother)
    simp [this]
  · simp [Table.mapValues, List.filter_append, h]

/-- Setting the record of a policy owes a pass over its kind. -/
theorem turn_insert (ref : PolicyKey) (hs : s.register.Sound) :
    Turn (· = ref.kind) tr [] { tr with policies := tr.policies.insert ref s } where
  reporter := rfl
  sound sound := by
    refine ⟨?_, by simp⟩
    intro other t ht
    simp only [Table.get?_insert] at ht
    split at ht
    · cases ht
      exact hs
    · exact sound other t ht
  kept kind := by
    by_cases hk : kind = ref.kind
    · exact .inl hk
    · right
      exact
        { reporter := rfl, essences := essences_insert_of_ne (Ne.symm hk)
          targets := fun _ _ _ _ _ _ => rfl, routes := fun _ _ => rfl, marks := fun _ _ _ => rfl }

/-- A record that is the same in essence owes nothing. -/
theorem turn_insert_of_essence {old : PolicyRecord} (hold : tr.policies.get? ref = some old)
    (same : s.essence = old.essence) :
    Turn Nothing tr [] { tr with policies := tr.policies.insert ref s } where
  reporter := rfl
  sound sound := by
    refine ⟨?_, by simp⟩
    intro other t ht
    simp only [Table.get?_insert] at ht
    split at ht
    · cases ht
      rw [register_of_essence same]
      exact sound ref old hold
    · exact sound other t ht
  kept kind := by
    right
    have essences : { tr with policies := tr.policies.insert ref s }.essences kind =
        tr.essences kind := by
      unfold Tracker.essences
      rw [Table.mapValues_insert_of_same (fun _ s => s.essence) hold same]
    exact
      { reporter := rfl, essences
        targets := fun _ _ _ _ _ _ => rfl, routes := fun _ _ => rfl, marks := fun _ _ _ => rfl }

/-- A policy that goes leaves its kind owed a pass. -/
theorem turn_erase (tr : Tracker) (ref : PolicyKey) :
    Turn (· = ref.kind) tr [] { tr with policies := tr.policies.erase ref } where
  reporter := rfl
  sound sound := by
    refine ⟨?_, by simp⟩
    intro other t ht
    simp only [Table.get?_erase] at ht
    split at ht
    · cases ht
    · exact sound other t ht
  kept kind := by
    by_cases hk : kind = ref.kind
    · exact .inl hk
    · right
      have essences : { tr with policies := tr.policies.erase ref }.essences kind =
          tr.essences kind := by
        simp only [Tracker.essences, Table.erase, Table.filter, Table.mapValues, List.filter_map,
          List.filter_filter]
        congr 1
        apply List.filter_congr
        rintro ⟨other, t⟩ -
        by_cases heq : other = ref
        · simp [heq, Ne.symm hk]
        · simp [heq]
      exact
        { reporter := rfl, essences
          targets := fun _ _ _ _ _ _ => rfl, routes := fun _ _ => rfl, marks := fun _ _ _ => rfl }

/-- Another set of targets owes passes over the kinds that name a target which came or went. -/
theorem turn_targets (tr : Tracker) (target : Target) {targets : Table Target Unit}
    (h : ∀ other, other ≠ target → targets.contains other = tr.targets.contains other) :
    Turn (tr.Names target) tr [] { tr with targets } where
  reporter := rfl
  sound sound := ⟨sound, by simp⟩
  kept kind := by
    by_cases hn : tr.Names target kind
    · exact .inl hn
    · right
      refine ⟨rfl, rfl, ?_, fun _ _ => rfl, fun _ _ _ => rfl⟩
      intro ref s hs hk other hother
      apply h
      rintro rfl
      exact hn ⟨ref, s, hs, hk, hother⟩

/-- Other routes owe passes over the kinds that report per ancestor. -/
theorem turn_routes (tr : Tracker) (routes : Table Target RouteLinks) :
    Turn (fun kind => kind.reportsByAncestor = true ∧ tr.Has kind) tr [] { tr with routes } where
  reporter := rfl
  sound sound := ⟨sound, by simp⟩
  kept kind := by
    by_cases ho : kind.reportsByAncestor = true ∧ tr.Has kind
    · exact .inl ho
    · right
      exact ⟨rfl, rfl, fun _ _ _ _ _ _ => rfl, fun hr hh => absurd ⟨hr, hh⟩ ho, fun _ _ _ => rfl⟩

end Edits

section Handlers

/-- The record of a policy once it is seen, and whether anything about it changed. -/
def sighting (tr : Tracker) (ref : PolicyKey) (facts : PolicyFacts) : Bool × PolicyRecord :=
  match tr.policies.get? ref with
  | none => (true, PolicyRecord.first tr.reporter.controller ref.kind facts)
  | some old => old.seen tr.reporter.controller ref.kind facts

/-- The passes when a policy comes. -/
def putPolicyPasses (m : Moment) (tr : Tracker) (ref : PolicyKey) (facts : PolicyFacts) :
    List Pass :=
  if (tr.sighting ref facts).1 then
    passesOver m false [ref.kind]
      { tr with policies := tr.policies.insert ref (tr.sighting ref facts).2 }
  else []

def dropPolicyPasses (m : Moment) (tr : Tracker) (ref : PolicyKey) : List Pass :=
  if tr.policies.contains ref then
    passesOver m false [ref.kind] { tr with policies := tr.policies.erase ref }
  else []

def afterTargetPasses (m : Moment) (tr : Tracker) (target : Target) : List Pass :=
  passesOver m false (tr.kindsWith fun _ s => s.facts.targets.contains target) tr

def afterRoutePasses (m : Moment) (tr : Tracker) : List Pass :=
  passesOver m false (tr.kindsWith fun ref _ => ref.kind.reportsByAncestor) tr

def putTargetPasses (m : Moment) (tr : Tracker) (target : Target) : List Pass :=
  if tr.targets.contains target then []
  else afterTargetPasses m { tr with targets := tr.targets.insert target () } target

def dropTargetPasses (m : Moment) (tr : Tracker) (target : Target) : List Pass :=
  if tr.targets.contains target then
    afterTargetPasses m { tr with targets := tr.targets.erase target } target
  else []

def putRoutePasses (m : Moment) (tr : Tracker) (route : Target) (refs : RouteLinks) : List Pass :=
  let linked := { tr with routes := tr.routes.insert route refs }
  putTargetPasses m linked route ++
    if tr.routes.get? route != some refs then afterRoutePasses m (linked.putTarget m route) else []

def dropRoutePasses (m : Moment) (tr : Tracker) (route : Target) : List Pass :=
  let unlinked := { tr with routes := tr.routes.erase route }
  dropTargetPasses m unlinked route ++
    if tr.routes.contains route then afterRoutePasses m (unlinked.dropTarget m route) else []

def putObjectPasses (m : Moment) (tr : Tracker) (ns name : String) : WatchedObject → List Pass
  | .service _ => tr.putTargetPasses m ⟨"", "Service", ns, name⟩
  | .gateway _ => tr.putTargetPasses m ⟨gatewayGroup, "Gateway", ns, name⟩
  | .httpRoute _ spec =>
    tr.putRoutePasses m ⟨gatewayGroup, "HTTPRoute", ns, name⟩ (.ofSpec ns spec)
  | .policy p => tr.putPolicyPasses m ⟨p.kind, ⟨ns, name⟩⟩ (p.facts ns)

def dropObjectPasses (m : Moment) (tr : Tracker) (ns name : String) : WatchedKind → List Pass
  | .service => tr.dropTargetPasses m ⟨"", "Service", ns, name⟩
  | .gateway => tr.dropTargetPasses m ⟨gatewayGroup, "Gateway", ns, name⟩
  | .httpRoute => tr.dropRoutePasses m ⟨gatewayGroup, "HTTPRoute", ns, name⟩
  | .policy kind => tr.dropPolicyPasses m ⟨kind, ⟨ns, name⟩⟩

/-- The passes that an event leads to. -/
def handlePasses (m : Moment) (tr : Tracker) : Event → List Pass
  | .applied object =>
    match object.metadata.ns, object.metadata.name with
    | some ns, some name => tr.putObjectPasses m ns name object
    | _, _ => []
  | .deleted kind ns name => tr.dropObjectPasses m ns name kind

variable {tr tr' : Tracker} {m : Moment}

/-- An object without a namespace changes nothing, any other has a name. -/
theorem handle_applied {object : WatchedObject} (h : tr.handle m (.applied object) = .ok tr') :
    (object.metadata.ns = none ∧ tr' = tr) ∨
      ∃ ns name, object.metadata.ns = some ns ∧ object.metadata.name = some name ∧
        tr' = tr.putObject m ns name object := by
  cases hns : object.metadata.ns with
  | none =>
    simp only [handle, hns] at h
    cases h
    exact .inl ⟨rfl, rfl⟩
  | some ns =>
    cases hname : object.metadata.name with
    | none =>
      simp only [handle, hns, hname] at h
      cases h
    | some name =>
      simp only [handle, hns, hname] at h
      cases h
      exact .inr ⟨ns, name, rfl, rfl, rfl⟩

/-- A policy that comes is put into the table, and its kind is gone over if something changed. -/
theorem putPolicy_eq (m : Moment) (tr : Tracker) (ref : PolicyKey) (facts : PolicyFacts) :
    tr.putPolicy m ref facts =
      if (tr.sighting ref facts).1 then
        { tr with policies := tr.policies.insert ref (tr.sighting ref facts).2 }.pass m [ref.kind]
      else { tr with policies := tr.policies.insert ref (tr.sighting ref facts).2 } := rfl

end Handlers

section Objects

variable {tr tr' : Tracker} {m : Moment}

theorem facts_sighting (tr : Tracker) (ref : PolicyKey) (facts : PolicyFacts) :
    (tr.sighting ref facts).2.facts = facts := by
  unfold sighting
  cases tr.policies.get? ref <;> rfl

/-- Beyond the policy itself there is no news in its coming. -/
theorem sameObjects_putPolicy (m : Moment) (tr : Tracker) (ref : PolicyKey) (facts : PolicyFacts) :
    SameObjects { tr with policies := tr.policies.insert ref (tr.sighting ref facts).2 }
      (tr.putPolicy m ref facts) := by
  rw [putPolicy_eq]
  split
  · exact sameObjects_pass m _ _
  · exact .refl _

/-- A policy that comes changes its own facts alone. -/
theorem get?_facts_putPolicy (m : Moment) (tr : Tracker) (ref : PolicyKey) (facts : PolicyFacts)
    (other : PolicyKey) : (tr.putPolicy m ref facts).facts.get? other =
      if other = ref then some facts else tr.facts.get? other := by
  rw [(sameObjects_putPolicy m tr ref facts).facts, get?_facts, Table.get?_insert, get?_facts]
  split
  · rw [Option.map_some, facts_sighting]
  · rfl

theorem get?_facts_dropPolicy (m : Moment) (tr : Tracker) (ref other : PolicyKey) :
    (tr.dropPolicy m ref).facts.get? other =
      if other = ref then none else tr.facts.get? other := by
  unfold dropPolicy
  split
  · rw [(sameObjects_pass m _ _).facts, get?_facts, Table.get?_erase, get?_facts]
    split <;> rfl
  · rename_i absent
    split
    · rename_i heq
      have hnone : tr.policies.get? ref = none := by simpa [Table.contains] using absent
      rw [heq, get?_facts, hnone]
      rfl
    · rfl

theorem sameObjects_dropPolicy (m : Moment) (tr : Tracker) (ref : PolicyKey) :
    (tr.dropPolicy m ref).targets = tr.targets ∧ (tr.dropPolicy m ref).routes = tr.routes ∧
      (tr.dropPolicy m ref).reporter = tr.reporter := by
  unfold dropPolicy
  split
  · have h := sameObjects_pass m [ref.kind] { tr with policies := tr.policies.erase ref }
    exact ⟨h.targets, h.routes, h.reporter⟩
  · exact ⟨rfl, rfl, rfl⟩

theorem sameObjects_putTarget (m : Moment) (tr : Tracker) (target : Target) :
    SameObjects { tr with targets := tr.targets.insert target () } (tr.putTarget m target) := by
  unfold putTarget
  split
  · rename_i present
    obtain ⟨u, hu⟩ := Option.isSome_iff_exists.1 present
    rw [Table.insert_of_get? hu]
    exact .refl tr
  · exact sameObjects_pass m _ _

theorem sameObjects_dropTarget (m : Moment) (tr : Tracker) (target : Target) :
    SameObjects { tr with targets := tr.targets.erase target } (tr.dropTarget m target) := by
  unfold dropTarget
  split
  · exact sameObjects_pass m _ _
  · rename_i absent
    rw [Table.erase_of_not_contains (by simpa using absent)]
    exact .refl tr

theorem sameObjects_afterRoute (m : Moment) (tr : Tracker) (changed : Bool) :
    SameObjects tr (if changed then tr.passAfterRoute m else tr) := by
  split
  · exact sameObjects_pass m _ _
  · exact .refl tr

theorem sameObjects_putRoute (m : Moment) (tr : Tracker) (route : Target) (refs : RouteLinks) :
    SameObjects
      { tr with targets := tr.targets.insert route (), routes := tr.routes.insert route refs }
      (tr.putRoute m route refs) :=
  (sameObjects_putTarget m { tr with routes := tr.routes.insert route refs } route).trans
    (sameObjects_afterRoute m _ _)

theorem sameObjects_dropRoute (m : Moment) (tr : Tracker) (route : Target) :
    SameObjects { tr with targets := tr.targets.erase route, routes := tr.routes.erase route }
      (tr.dropRoute m route) :=
  (sameObjects_dropTarget m { tr with routes := tr.routes.erase route } route).trans
    (sameObjects_afterRoute m _ _)

end Objects

section Turns

variable {tr tr' : Tracker} {m : Moment}

/-- A policy that comes leaves nothing owed. -/
theorem turn_putPolicy (sound : tr.Sound) (ref : PolicyKey) (facts : PolicyFacts) :
    Turn Nothing tr (tr.putPolicyPasses m ref facts) (tr.putPolicy m ref facts) := by
  rw [putPolicy_eq, putPolicyPasses]
  cases hold : tr.policies.get? ref with
  | none =>
    have hsound : (tr.sighting ref facts).2.register.Sound := by
      simp only [sighting, hold]
      exact PolicyRecord.sound_first tr.reporter.controller ref.kind facts
    have changed : (tr.sighting ref facts).1 = true := by
      simp only [sighting, hold]
    rw [if_pos changed, if_pos changed]
    exact (turn_insert ref hsound).pass m [ref.kind] (by simp)
  | some old =>
    have hsight : tr.sighting ref facts = old.seen tr.reporter.controller ref.kind facts := by
      simp only [sighting, hold]
    rw [hsight]
    split
    · exact (turn_insert ref (PolicyRecord.sound_seen (sound ref old hold) _ _ facts)).pass m
        [ref.kind] (by simp)
    · rename_i same
      exact turn_insert_of_essence hold
        (PolicyRecord.essence_seen (sound ref old hold) (by simpa using same))

theorem turn_dropPolicy (m : Moment) (tr : Tracker) (ref : PolicyKey) :
    Turn Nothing tr (tr.dropPolicyPasses m ref) (tr.dropPolicy m ref) := by
  unfold dropPolicyPasses dropPolicy
  split
  · exact (turn_erase tr ref).pass m [ref.kind] (by simp)
  · exact .refl tr

/-- The kinds that name a target are passed over when it came or went. -/
theorem turn_afterTarget (m : Moment) (target : Target) {targets : Table Target Unit}
    (h : ∀ other, other ≠ target → targets.contains other = tr.targets.contains other) :
    Turn Nothing tr (afterTargetPasses m { tr with targets } target)
      ({ tr with targets }.passAfterTarget m target) := by
  apply (turn_targets tr target h).pass m
  rintro kind ⟨ref, s, hs, hk, ht⟩
  exact mem_kindsWith_iff.2 ⟨ref, s, hs, hk, by simpa using ht⟩

theorem turn_putTarget (m : Moment) (tr : Tracker) (target : Target) :
    Turn Nothing tr (tr.putTargetPasses m target) (tr.putTarget m target) := by
  unfold putTargetPasses putTarget
  split
  · exact .refl tr
  · apply turn_afterTarget
    intro other hne
    simp [Table.contains, Table.get?_insert, hne]

theorem turn_dropTarget (m : Moment) (tr : Tracker) (target : Target) :
    Turn Nothing tr (tr.dropTargetPasses m target) (tr.dropTarget m target) := by
  unfold dropTargetPasses dropTarget
  split
  · apply turn_afterTarget
    intro other hne
    simp [Table.contains, Table.get?_erase, hne]
  · exact .refl tr

/-- After the targets are dealt with, the routes are, if they changed. -/
theorem turn_afterRoute {routes : Table Target RouteLinks} {ps : List Pass} {mid : Tracker}
    (changed : Bool) (same : changed = false → routes = tr.routes)
    (h : Turn Nothing { tr with routes } ps mid) (facts : mid.facts = tr.facts) :
    Turn Nothing tr (ps ++ if changed then afterRoutePasses m mid else [])
      (if changed then mid.passAfterRoute m else mid) := by
  cases changed with
  | false =>
    rw [same rfl] at h
    rw [if_neg Bool.false_ne_true, if_neg Bool.false_ne_true, List.append_nil]
    exact h
  | true =>
    rw [if_pos rfl, if_pos rfl]
    have passes := (Turn.refl mid).pass m (mid.kindsWith fun ref _ => ref.kind.reportsByAncestor)
      (fun _ none => none.elim)
    refine (((turn_routes tr routes).append h).append passes).paid ?_
    rintro kind ⟨⟨⟨reports, ref, s, hs, hk⟩, -⟩, none⟩
    have hfacts : mid.facts.get? ref = some s.facts := by
      rw [facts, get?_facts, hs]
      rfl
    rw [get?_facts] at hfacts
    obtain ⟨s', hs', -⟩ := Option.map_eq_some_iff.1 hfacts
    have mem : kind ∈ mid.kindsWith fun ref _ => ref.kind.reportsByAncestor :=
      mem_kindsWith_iff.2 ⟨ref, s', hs', hk, hk ▸ reports⟩
    have := isSome_last?_passesOver m false mem mid
    rw [none] at this
    cases this

theorem turn_putRoute (m : Moment) (tr : Tracker) (route : Target) (refs : RouteLinks) :
    Turn Nothing tr (tr.putRoutePasses m route refs) (tr.putRoute m route refs) := by
  refine turn_afterRoute (tr.routes.get? route != some refs) ?_ (turn_putTarget m _ route)
    (sameObjects_putTarget m _ route).facts
  intro same
  exact Table.insert_of_get? (by simpa using same)

theorem turn_dropRoute (m : Moment) (tr : Tracker) (route : Target) :
    Turn Nothing tr (tr.dropRoutePasses m route) (tr.dropRoute m route) :=
  turn_afterRoute (tr.routes.contains route) Table.erase_of_not_contains
    (turn_dropTarget m _ route) (sameObjects_dropTarget m _ route).facts

/-- After an event, every kind is as the last pass over it left it. -/
theorem turn_handle (sound : tr.Sound) {e : Event} (h : tr.handle m e = .ok tr') :
    Turn Nothing tr (tr.handlePasses m e) tr' := by
  cases e with
  | applied object =>
    obtain ⟨hns, rfl⟩ | ⟨ns, name, hns, hname, rfl⟩ := handle_applied h
    · simp only [handlePasses, hns]
      exact .refl _
    · simp only [handlePasses, hns, hname]
      cases object with
      | service metadata => exact turn_putTarget m tr _
      | gateway metadata => exact turn_putTarget m tr _
      | httpRoute metadata spec => exact turn_putRoute m tr _ _
      | policy p => exact turn_putPolicy sound _ _
  | deleted kind ns name =>
    cases h
    cases kind with
    | service => exact turn_dropTarget m tr _
    | gateway => exact turn_dropTarget m tr _
    | httpRoute => exact turn_dropRoute m tr _
    | policy kind => exact turn_dropPolicy m tr _

end Turns

end Tracker
end PolicyAttachment
