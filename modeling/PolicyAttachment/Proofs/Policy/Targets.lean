import PolicyAttachment.Proofs.Session.Spelling

/-!
# The targets of valid policies

The validation of a policy takes each of its references for one to a kind of target,
`PolicyKind.Accepts`, and the same references are resolved to targets. For a kind that is watched, the
target is the one that its watch reports, except that the references of traffic distribution may spell
the core group in any case of its letters, and are then not resolved. A kind that is not watched stays
as it is spelled. `Policy.resolves_iff` says which references come to the same target.
-/

namespace PolicyAttachment
set_option autoImplicit false

namespace PolicyKind

/-- The kinds of targets that the validation of a policy admits. -/
def admitted : PolicyKind → List GroupKind
  | backend | healthCheck => [.service, .serviceImport]
  | gateway => [.gateway]
  | sessionAffinity => [.service, .serviceImport, .httpRoute]
  | trafficDistribution => [.service]

/-- Whether the validation of a policy compares a reference as equal to the kind `g`. -/
def takesFor (kind : PolicyKind) (ref : TargetRef) (g : GroupKind) : Bool :=
  match kind with
  | trafficDistribution => LocalTargetRef.isTo ⟨ref.group, ref.kind, ref.name⟩ g
  | _ => g.covers (GroupKind.normalGroup ref.group) ref.kind

/-- The validation of a policy accepts the reference as one to the kind `g`. -/
structure Accepts (kind : PolicyKind) (ref : TargetRef) (g : GroupKind) : Prop where
  admitted : g ∈ kind.admitted
  taken : kind.takesFor ref g = true

end PolicyKind

/-- The kind `g` is watched, and the reference spells its group as its watch does, up to the name of
the core group. -/
structure TargetRef.Resolves (ref : TargetRef) (g : GroupKind) : Prop where
  watched : g ∈ GroupKind.watched
  group : GroupKind.normalGroup ref.group = g.group

instance (ref : TargetRef) (g : GroupKind) : Decidable (ref.Resolves g) :=
  decidable_of_iff (g ∈ GroupKind.watched ∧ GroupKind.normalGroup ref.group = g.group)
    ⟨fun h => ⟨h.1, h.2⟩, fun h => ⟨h.1, h.2⟩⟩

/-- Strings that have one form in small letters are the same but for the case of their letters. -/
theorem Text.sameIgnoringCase_of_toLower {s t small : String} (hs : s.toLower = small)
    (ht : t.toLower = small) : sameIgnoringCase s t = true := by
  rw [sameIgnoringCase, hs, ht, beq_self_eq_true]

section Accepting

variable {ref : TargetRef} {g : GroupKind} {kind : PolicyKind}

/-- The targets that are accepted are all Services. -/
theorem TrafficDistributionPolicySpec.isTo_of_validateTargets {refs : List LocalTargetRef}
    (h : validateTargets refs = .ok ()) {t : LocalTargetRef} (ht : t ∈ refs) :
    t.isTo .service = true := by
  unfold validateTargets at h
  split at h
  · cases h
  · split at h
    · cases h
    · rename_i none
      simpa using List.find?_eq_none.1 none t ht

/-- Each reference of a valid policy is accepted as one to some kind. -/
theorem Policy.exists_accepts {p : Policy} (valid : p.validate = .ok ()) (href : ref ∈ p.targetRefs) :
    ∃ g, p.kind.Accepts ref g := by
  have required : ∀ (k : PolicyKind) (expected : String),
      k ≠ .trafficDistribution → ref.requireKind k.admitted expected = .ok () →
      ∃ g, k.Accepts ref g := by
    intro k expected hk ok
    obtain ⟨g, hg, covers⟩ := TargetRef.requireKind_eq_ok_iff.1 ok
    refine ⟨g, hg, ?_⟩
    cases k <;> first | exact covers | exact absurd rfl hk
  cases p with
  | backend o =>
    obtain rfl := List.mem_singleton.1 href
    exact required .backend _ (by decide) (bind_eq_ok_iff.1 valid).1
  | gateway o =>
    obtain rfl := List.mem_singleton.1 href
    exact required .gateway _ (by decide) (bind_eq_ok_iff.1 valid).1
  | healthCheck o =>
    obtain rfl := List.mem_singleton.1 href
    exact required .healthCheck _ (by decide) (bind_eq_ok_iff.1 valid).1
  | sessionAffinity o =>
    obtain rfl := List.mem_singleton.1 href
    exact required .sessionAffinity _ (by decide) (bind_eq_ok_iff.1 valid).1
  | trafficDistribution o =>
    obtain ⟨t, ht, rfl⟩ := List.mem_map.1 href
    exact ⟨.service, List.mem_singleton_self _,
      TrafficDistributionPolicySpec.isTo_of_validateTargets (bind_eq_ok_iff.1 valid).1 ht⟩

/-- A kind of the group of a watched one that reads like it is spelled as its watch does. -/
theorem GroupKind.properKind_of_covers (hg : g ∈ watched) {other : String}
    (covers : g.covers g.group other = true) : properKind g.group other = g.kind := by
  unfold properKind
  cases found : watched.find? fun g' => g'.covers g.group other with
  | none => exact absurd covers (List.find?_eq_none.1 found g hg)
  | some g' =>
    have spelled := List.find?_some found
    obtain ⟨group, same⟩ := covers_iff.1 spelled
    refine kind_eq_of_covers hg (List.mem_of_find?_eq_some found) group (covers_iff.2 ⟨rfl, ?_⟩)
    have same' := (covers_iff.1 covers).2
    rw [Text.sameIgnoringCase, beq_iff_eq] at same same' ⊢
    exact same'.trans same.symm

/-- A kind of a group that is not watched keeps its spelling. -/
theorem GroupKind.properKind_of_group {group other : String}
    (h : ∀ g ∈ watched, g.group ≠ group) : properKind group other = other := by
  have none : watched.find? (fun g => g.covers group other) = none := by
    rw [List.find?_eq_none]
    intro g hg covers
    exact h g hg (covers_iff.1 covers).1
  rw [properKind, none]

namespace PolicyKind

/-- Policies that do not distribute traffic compare groups as they are resolved. -/
theorem Accepts.normalGroup_eq (h : kind.Accepts ref g) (hk : kind ≠ .trafficDistribution) :
    GroupKind.normalGroup ref.group = g.group := by
  have taken := h.taken
  cases kind with
  | trafficDistribution => exact absurd rfl hk
  | _ => exact (GroupKind.covers_iff.1 taken).1.symm

/-- A reference is accepted as one to a kind that it spells in some case of its letters. -/
theorem Accepts.sameIgnoringCase (h : kind.Accepts ref g) :
    Text.sameIgnoringCase g.kind ref.kind = true := by
  have taken := h.taken
  cases kind with
  | trafficDistribution =>
    rw [takesFor, LocalTargetRef.isTo, Bool.and_eq_true] at taken
    rw [Text.sameIgnoringCase, beq_iff_eq] at taken ⊢
    exact (beq_iff_eq.1 taken.2).symm
  | _ => exact (GroupKind.covers_iff.1 taken).2

/-- What a kind of policies admits is watched, or of a group of its own. -/
theorem watched_or_apart (kind : PolicyKind) : ∀ g ∈ kind.admitted,
    g ∈ GroupKind.watched ∨ ∀ g' ∈ GroupKind.watched, g'.group ≠ g.group := by
  cases kind <;> decide

/-- A reference that does not resolve has the group of no watched kind: either its kind is not
watched, or it spells the name of the core group in another way. -/
theorem Accepts.group_ne_watched (h : kind.Accepts ref g) (unresolved : ¬ ref.Resolves g) :
    ∀ g' ∈ GroupKind.watched, g'.group ≠ GroupKind.normalGroup ref.group := by
  by_cases hk : kind = .trafficDistribution
  · subst hk
    obtain rfl := List.mem_singleton.1 h.admitted
    have notCore : GroupKind.normalGroup ref.group ≠ "" :=
      fun group => unresolved ⟨by decide, group⟩
    have notGateway : GroupKind.normalGroup ref.group ≠ gatewayGroup := by
      intro group
      have spelled : ref.group = gatewayGroup := by
        unfold GroupKind.normalGroup at group
        split at group
        · exact absurd group (by decide)
        · exact group
      have apart : Text.sameIgnoringCase (LocalTargetRef.groupName gatewayGroup)
          (LocalTargetRef.groupName GroupKind.service.group) = false := by decide +kernel
      have taken := h.taken
      rw [takesFor, LocalTargetRef.isTo, spelled, apart, Bool.false_and] at taken
      cases taken
    have groups : ∀ g' ∈ GroupKind.watched, g'.group = "" ∨ g'.group = gatewayGroup := by decide
    intro g' hg' same
    rcases groups g' hg' with core | group
    · exact notCore (same.symm.trans core)
    · exact notGateway (same.symm.trans group)
  · have group := h.normalGroup_eq hk
    rcases watched_or_apart kind g h.admitted with watched | apart
    · exact absurd ⟨watched, group⟩ unresolved
    · rw [group]
      exact apart

/-- A reference that resolves becomes the target of its kind, any other keeps its kind as it is
spelled. -/
theorem Accepts.target_eq (h : kind.Accepts ref g) (ns : String) :
    ref.target ns = ⟨GroupKind.normalGroup ref.group,
      if ref.Resolves g then g.kind else ref.kind, ref.nsOr ns, ref.name⟩ := by
  have kindOf : GroupKind.properKind (GroupKind.normalGroup ref.group) ref.kind =
      if ref.Resolves g then g.kind else ref.kind := by
    by_cases resolves : ref.Resolves g
    · rw [if_pos resolves, resolves.group]
      exact GroupKind.properKind_of_covers resolves.watched
        (GroupKind.covers_iff.2 ⟨rfl, h.sameIgnoringCase⟩)
    · rw [if_neg resolves]
      exact GroupKind.properKind_of_group (h.group_ne_watched resolves)
  rw [TargetRef.target, kindOf]

end PolicyKind

end Accepting

/-- What is watched is a watched kind, under the name of the object. -/
theorem GroupKind.watched_of_target? {g : GroupKind} {kind : WatchedKind} {ns name : String}
    {t : Target} (h : kind.target? ns name = some t) (group : t.group = g.group)
    (same : t.kind = g.kind) : g ∈ watched ∧ t = ⟨g.group, g.kind, ns, name⟩ := by
  obtain ⟨_, _⟩ := g
  cases kind <;> cases h <;> cases group <;> cases same <;> exact ⟨by decide, rfl⟩

namespace Policy

variable {p : Policy}

/-- The references of a valid policy are each accepted as one to some kind, and become targets.

Where the kind is watched, this is the target that the watch reports for the object, exactly if the
group is spelled as it is resolved; traffic distribution alone admits other spellings. Two references
accepted as one to the same kind, for one name in one namespace, become the same target exactly if
both resolve, or else are spelled alike. -/
theorem resolves_iff (valid : p.validate = .ok ()) (ns : String) {ref : TargetRef}
    (href : ref ∈ p.targetRefs) :
    ref.target ns ∈ (p.facts ns).targets ∧
    (∃ g, p.kind.Accepts ref g) ∧
    ∀ g, p.kind.Accepts ref g →
      (p.kind ≠ .trafficDistribution → GroupKind.normalGroup ref.group = g.group) ∧
      (∀ (kind : WatchedKind) (t : Target), kind.target? (ref.nsOr ns) ref.name = some t →
        t.group = g.group → t.kind = g.kind →
        (ref.target ns = t ↔ GroupKind.normalGroup ref.group = g.group)) ∧
      ∀ (q : Policy) (ns' : String) (ref' : TargetRef), q.validate = .ok () →
        ref' ∈ q.targetRefs → q.kind.Accepts ref' g → ref'.nsOr ns' = ref.nsOr ns →
        ref'.name = ref.name →
        (ref'.target ns' = ref.target ns ↔ ref.Resolves g ∧ ref'.Resolves g ∨
          GroupKind.normalGroup ref'.group = GroupKind.normalGroup ref.group ∧
            ref'.kind = ref.kind) := by
  refine ⟨?_, exists_accepts valid href, fun g accepts => ⟨accepts.normalGroup_eq, ?_, ?_⟩⟩
  · exact List.mem_eraseDups.2 (List.mem_map_of_mem href)
  · intro kind t watch group same
    obtain ⟨watched, rfl⟩ := GroupKind.watched_of_target? watch group same
    rw [accepts.target_eq, Target.mk.injEq]
    refine ⟨And.left, fun resolved => ⟨resolved, ?_, rfl, rfl⟩⟩
    exact if_pos ⟨watched, resolved⟩
  · intro q ns' ref' _ _ accepts' place name
    rw [accepts'.target_eq, accepts.target_eq, place, name, Target.mk.injEq]
    by_cases resolves : ref.Resolves g <;> by_cases resolves' : ref'.Resolves g
    · simp [resolves, resolves', resolves.group, resolves'.group]
    · have apart : GroupKind.normalGroup ref'.group ≠ GroupKind.normalGroup ref.group :=
        fun same => resolves' ⟨resolves.watched, same.trans resolves.group⟩
      simp [apart, resolves']
    · have apart : GroupKind.normalGroup ref'.group ≠ GroupKind.normalGroup ref.group :=
        fun same => resolves ⟨resolves'.watched, same.symm.trans resolves'.group⟩
      simp [apart, resolves]
    · simp [resolves, resolves']

end Policy

namespace Sample

/-- A policy for one backend, which is referred to in this group and kind. -/
def backendOf (group kind : String) : Policy :=
  .backend ⟨default, ⟨⟨group, kind, "a", none⟩, none⟩, none⟩

/-- A policy that distributes the traffic of one Service, whose group is spelled like this. -/
def distributionOf (group : String) : Policy :=
  .trafficDistribution ⟨default, ⟨[⟨group, "Service", "a"⟩], none⟩, none⟩

/-- A backend policy accepts what it admits, however the kind is spelled. -/
theorem accepts_backend (g : GroupKind) (group kind small : String)
    (hg : g ∈ PolicyKind.backend.admitted) (hgroup : GroupKind.normalGroup group = g.group)
    (hkind : kind.toLower = small) (proper : g.kind.toLower = small) :
    PolicyKind.backend.Accepts ⟨group, kind, "a", none⟩ g :=
  ⟨hg, GroupKind.covers_iff.2 ⟨hgroup.symm, Text.sameIgnoringCase_of_toLower proper hkind⟩⟩

/-- A policy for traffic distribution accepts Services of the group "core", however that is spelled.
-/
theorem accepts_distribution (group : String)
    (h : (LocalTargetRef.groupName group).toLower = "core") :
    PolicyKind.trafficDistribution.Accepts ⟨group, "Service", "a", none⟩ .service := by
  have core : (LocalTargetRef.groupName GroupKind.service.group).toLower = "core" := by
    decide +kernel
  refine ⟨List.mem_singleton_self _, ?_⟩
  rw [PolicyKind.takesFor, LocalTargetRef.isTo, Text.sameIgnoringCase_of_toLower h core,
    Bool.true_and]
  exact Text.sameIgnoringCase_of_toLower rfl rfl

theorem validate_backendOf {group kind : String} {g : GroupKind}
    (h : PolicyKind.backend.Accepts ⟨group, kind, "a", none⟩ g) :
    (backendOf group kind).validate = .ok () := by
  have taken : TargetRef.requireBackend ⟨group, kind, "a", none⟩ = .ok () :=
    TargetRef.requireKind_eq_ok_iff.2 ⟨g, h.admitted, h.taken⟩
  simp [backendOf, Policy.validate, BackendPolicySpec.validate, taken, bind, Except.bind]

theorem validate_distributionOf {group : String}
    (h : PolicyKind.trafficDistribution.Accepts ⟨group, "Service", "a", none⟩ .service) :
    (distributionOf group).validate = .ok () := by
  have taken : LocalTargetRef.isTo ⟨group, "Service", "a"⟩ .service = true := h.taken
  simp [distributionOf, Policy.validate, TrafficDistributionPolicySpec.validate,
    TrafficDistributionPolicySpec.validateTargets, TrafficDistributionPolicySpec.maxTargetRefs,
    taken, bind, Except.bind]

end Sample

namespace Policy

open Sample (backendOf distributionOf)

/-- Two spellings of a Service come to the target that is watched. -/
theorem resolves_core :
    (backendOf "core" "service").validate = .ok () ∧ (distributionOf "").validate = .ok () ∧
      TargetRef.target ⟨"core", "service", "a", none⟩ "ns" = ⟨"", "Service", "ns", "a"⟩ ∧
      TargetRef.target ⟨"", "Service", "a", none⟩ "ns" =
        TargetRef.target ⟨"core", "service", "a", none⟩ "ns" := by
  have accepts := Sample.accepts_backend .service "core" "service" "service" (by decide)
    (by decide) (by decide +kernel) (by decide +kernel)
  have accepts' := Sample.accepts_distribution "" (by decide +kernel)
  have valid := Sample.validate_backendOf accepts
  have valid' := Sample.validate_distributionOf accepts'
  obtain ⟨-, -, resolves⟩ := resolves_iff valid "ns" List.mem_cons_self
  obtain ⟨-, watch, alike⟩ := resolves .service accepts
  refine ⟨valid, valid', (watch .service _ rfl rfl rfl).2 (by decide), ?_⟩
  exact (alike (distributionOf "") "ns" _ valid' List.mem_cons_self accepts' rfl rfl).2
    (.inl ⟨⟨by decide, by decide⟩, ⟨by decide, by decide⟩⟩)

/-- The core group in capital letters is accepted and not resolved, and an imported Service that is
spelled in two ways becomes two targets. -/
theorem not_resolves :
    (∃ (p : Policy) (ref : TargetRef), p.validate = .ok () ∧ ref ∈ p.targetRefs ∧
      p.kind.Accepts ref .service ∧
      WatchedKind.service.target? (ref.nsOr "ns") ref.name ≠ some (ref.target "ns")) ∧
    ∃ (p q : Policy) (ref ref' : TargetRef), p.validate = .ok () ∧ q.validate = .ok () ∧
      ref ∈ p.targetRefs ∧ ref' ∈ q.targetRefs ∧ p.kind.Accepts ref .serviceImport ∧
      q.kind.Accepts ref' .serviceImport ∧ ref'.nsOr "ns" = ref.nsOr "ns" ∧
      ref'.name = ref.name ∧ ref'.target "ns" ≠ ref.target "ns" := by
  have loud := Sample.accepts_distribution "CORE" (by decide +kernel)
  have proper := Sample.accepts_backend .serviceImport "net.gke.io" "ServiceImport"
    "serviceimport" (by decide) rfl (by decide +kernel) (by decide +kernel)
  have small := Sample.accepts_backend .serviceImport "net.gke.io" "serviceimport"
    "serviceimport" (by decide) rfl (by decide +kernel) (by decide +kernel)
  constructor
  · refine ⟨distributionOf "CORE", _, Sample.validate_distributionOf loud, List.mem_cons_self, loud,
      fun same => ?_⟩
    have group : "" = GroupKind.normalGroup "CORE" := congrArg Target.group (Option.some.inj same)
    exact absurd group (by decide)
  · refine ⟨backendOf "net.gke.io" "ServiceImport", backendOf "net.gke.io" "serviceimport", _, _,
      Sample.validate_backendOf proper, Sample.validate_backendOf small, List.mem_cons_self,
      List.mem_cons_self, proper, small, rfl, rfl, ?_⟩
    have unwatched : ∀ kind,
        ¬ TargetRef.Resolves ⟨"net.gke.io", kind, "a", none⟩ GroupKind.serviceImport :=
      fun _ resolves => absurd resolves.watched (by decide)
    rw [small.target_eq, proper.target_eq, if_neg (unwatched _), if_neg (unwatched _)]
    intro same
    exact absurd (congrArg Target.kind same) (by decide)

end Policy
end PolicyAttachment
