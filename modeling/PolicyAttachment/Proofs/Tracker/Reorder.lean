import PolicyAttachment.Proofs.Tracker.Contest
import PolicyAttachment.Proofs.Tracker.Flags

/-!
# Tables in another order

A table lists its entries in some order, and everything that goes through one meets them in that order.
Two tables that differ in no more than the order are `Reorders` of each other, which is to say that
they hold the same value for every key. Contenders and the Gateways above a Service are sorted before
they matter, so the review of a policy is the same whatever order the tables are in:
`Tracker.SameContents.review`.
-/

namespace PolicyAttachment
set_option autoImplicit false

namespace Table

variable {κ ν μ : Type}

/-- Both tables have the same entries, each in an order of its own. -/
def Reorders (t t' : Table κ ν) : Prop := t.entries.Perm t'.entries

namespace Reorders

variable {t t' t'' : Table κ ν}

@[refl] theorem refl (t : Table κ ν) : Reorders t t := List.Perm.refl _

@[symm] theorem symm (h : Reorders t t') : Reorders t' t := List.Perm.symm h

@[trans] theorem trans (h : Reorders t t') (h' : Reorders t' t'') : Reorders t t'' :=
  List.Perm.trans h h'

theorem keys (h : Reorders t t') : t.keys.Perm t'.keys := List.Perm.map Prod.fst h

theorem values (h : Reorders t t') : t.values.Perm t'.values := List.Perm.map Prod.snd h

theorem mapValues {f g : κ → ν → μ} (h : Reorders t t') (same : ∀ key value, f key value = g key value) :
    Reorders (t.mapValues f) (t'.mapValues g) := by
  obtain rfl : f = g := funext fun key => funext (same key)
  exact List.Perm.map _ h

/-- Any order of the changed entries is an order in which they can be changed. -/
theorem exists_mapValues {f : κ → ν → μ} {u : Table κ μ} (h : Reorders u (t.mapValues f)) :
    ∃ t', Reorders t t' ∧ u = t'.mapValues f := by
  have both : Relation.Comp (· = List.map (fun e : κ × ν => (e.1, f e.1 e.2)) ·) List.Perm
      u.entries t.entries := by
    rw [List.eq_map_comp_perm]
    exact h
  obtain ⟨entries, hu, order⟩ := both
  have nodup : (entries.map Prod.fst).Nodup := (order.map Prod.fst).nodup_iff.2 t.nodup
  exact ⟨⟨entries, nodup⟩, order.symm, ext_entries hu⟩

variable [DecidableEq κ]

theorem get? (h : Reorders t t') (key : κ) : t'.get? key = t.get? key := by
  apply Option.ext
  intro value
  rw [← mem_entries_iff, ← mem_entries_iff, List.Perm.mem_iff h]

theorem contains (h : Reorders t t') (key : κ) : t'.contains key = t.contains key :=
  congrArg Option.isSome (h.get? key)

end Reorders

variable [DecidableEq κ] {t t' : Table κ ν}

/-- What cannot be told apart by looking keys up differs in its order alone. -/
theorem reorders_of_get? (h : ∀ key, t'.get? key = t.get? key) : Reorders t t' := by
  apply (List.perm_ext_iff_of_nodup t.nodup.of_map t'.nodup.of_map).2
  rintro ⟨key, value⟩
  rw [mem_entries_iff, mem_entries_iff, h]

theorem Reorders.insert (h : Reorders t t') (key : κ) (value : ν) :
    Reorders (t.insert key value) (t'.insert key value) :=
  reorders_of_get? fun other => by rw [get?_insert, get?_insert, h.get?]

theorem Reorders.erase (h : Reorders t t') (key : κ) : Reorders (t.erase key) (t'.erase key) :=
  reorders_of_get? fun other => by rw [get?_erase, get?_erase, h.get?]

end Table

open Table (Reorders)

section Sorting

instance : Std.TransOrd Instant :=
  inferInstanceAs (Std.TransCmp
    (compareLex (compareOn Instant.second) (compareOn Instant.nanosecond)))

instance : Std.TransOrd Target :=
  inferInstanceAs (Std.TransCmp (compareLex (compareOn Target.group) <|
    compareLex (compareOn Target.kind) <|
    compareLex (compareOn Target.ns) (compareOn Target.name)))

instance : Std.TransCmp Contender.precedence :=
  inferInstanceAs (Std.TransCmp (compareLex (compareOn fun c : Contender => c.created.isNone) <|
    compareLex (compareOn Contender.created) (compareOn Contender.id)))

theorem PolicyId.eq_of_compare {a b : PolicyId} (h : compare a b = .eq) : a = b := by
  obtain ⟨ns, name⟩ := a
  obtain ⟨ns', name'⟩ := b
  obtain ⟨hns, hname⟩ := compareLex_eq_eq.1 h
  obtain rfl : ns = ns' := Std.LawfulEqCmp.eq_of_compare hns
  obtain rfl : name = name' := Std.LawfulEqCmp.eq_of_compare hname
  rfl

theorem Target.eq_of_compare {a b : Target} (h : compare a b = .eq) : a = b := by
  obtain ⟨group, kind, ns, name⟩ := a
  obtain ⟨group', kind', ns', name'⟩ := b
  obtain ⟨hgroup, rest⟩ := compareLex_eq_eq.1 h
  obtain ⟨hkind, rest⟩ := compareLex_eq_eq.1 rest
  obtain ⟨hns, hname⟩ := compareLex_eq_eq.1 rest
  obtain rfl : group = group' := Std.LawfulEqCmp.eq_of_compare hgroup
  obtain rfl : kind = kind' := Std.LawfulEqCmp.eq_of_compare hkind
  obtain rfl : ns = ns' := Std.LawfulEqCmp.eq_of_compare hns
  obtain rfl : name = name' := Std.LawfulEqCmp.eq_of_compare hname
  rfl

/-- Contenders of the same precedence have the same id. -/
theorem Contender.id_eq_of_precedence {c d : Contender} (h : c.precedence d = .eq) : c.id = d.id :=
  PolicyId.eq_of_compare (compareLex_eq_eq.1 (compareLex_eq_eq.1 h).2).2

theorem isLE_total {α : Type} (cmp : α → α → Ordering) [Std.OrientedCmp cmp] (a b : α) :
    ((cmp a b).isLE || (cmp b a).isLE) = true := by
  cases h : cmp a b with
  | lt => rfl
  | eq => rfl
  | gt =>
    rw [Std.OrientedCmp.gt_iff_lt] at h
    rw [h]
    rfl

theorem pairwise_isLE_mergeSort {α : Type} (cmp : α → α → Ordering) [Std.TransCmp cmp] (l : List α) :
    (l.mergeSort fun a b => (cmp a b).isLE).Pairwise fun a b => (cmp a b).isLE = true :=
  List.pairwise_mergeSort (fun _ _ _ => Std.TransCmp.isLE_trans) (isLE_total cmp) l

/-- A list in which no two elements compare as equal is in strict order once it is sorted. -/
theorem pairwise_lt_mergeSort {α : Type} (cmp : α → α → Ordering) [Std.TransCmp cmp] {l : List α}
    (apart : l.Pairwise fun a b => cmp a b ≠ .eq) :
    (l.mergeSort fun a b => (cmp a b).isLE).Pairwise fun a b => cmp a b = .lt := by
  have symmetric : ∀ {a b : α}, cmp a b ≠ .eq → cmp b a ≠ .eq :=
    fun hab hba => hab (Std.OrientedCmp.eq_comm.1 hba)
  have apart' : (l.mergeSort fun a b => (cmp a b).isLE).Pairwise fun a b => cmp a b ≠ .eq :=
    ((List.mergeSort_perm l _).pairwise_iff symmetric).2 apart
  refine (apart'.and (pairwise_isLE_mergeSort cmp l)).imp ?_
  rintro a b ⟨ne, le⟩
  exact Ordering.isLE_iff_eq_lt_or_eq_eq.1 le |>.resolve_right ne

/-- The order in which a list is given does not show once it is sorted, if no two of its elements
compare as equal. -/
theorem mergeSort_eq_of_perm {α : Type} (cmp : α → α → Ordering) [Std.TransCmp cmp] {l l' : List α}
    (h : l.Perm l') (apart : ∀ a ∈ l, ∀ b ∈ l, cmp a b = .eq → a = b) :
    l'.mergeSort (fun a b => (cmp a b).isLE) = l.mergeSort fun a b => (cmp a b).isLE := by
  have perm : (l'.mergeSort fun a b => (cmp a b).isLE).Perm
      (l.mergeSort fun a b => (cmp a b).isLE) :=
    ((List.mergeSort_perm l' _).trans h.symm).trans (List.mergeSort_perm l _).symm
  refine List.Perm.eq_of_pairwise ?_ (pairwise_isLE_mergeSort cmp l') (pairwise_isLE_mergeSort cmp l)
    perm
  intro a b ha hb hab hba
  rw [List.mem_mergeSort] at ha hb
  exact apart a (h.mem_iff.2 ha) b hb (Std.OrientedCmp.isLE_antisymm hab hba)

theorem nodup_eraseDups {α : Type} [DecidableEq α] (l : List α) : l.eraseDups.Nodup := by
  induction hn : l.length using Nat.strongRecOn generalizing l with
  | ind n ih =>
    cases l with
    | nil => simp
    | cons a l =>
      rw [List.eraseDups_cons, List.nodup_cons, List.mem_eraseDups]
      refine ⟨by simp, ih _ ?_ _ rfl⟩
      rw [← hn]
      exact Nat.lt_succ_of_le (List.length_filter_le _ l)

/-- An element at the end stays if it is new. -/
theorem eraseDups_append_singleton {α : Type} [DecidableEq α] (l : List α) (a : α) :
    (l ++ [a]).eraseDups = if a ∈ l then l.eraseDups else l.eraseDups ++ [a] := by
  rw [List.eraseDups_append]
  split
  · rename_i known
    have nothing : [a].removeAll l = [] := by
      rw [List.removeAll, List.filter_cons_of_neg (by simpa using known), List.filter_nil]
    rw [nothing, List.eraseDups_nil, List.append_nil]
  · rename_i new
    have only : [a].removeAll l = [a] := by
      rw [List.removeAll, List.filter_cons_of_pos (by simpa using new), List.filter_nil]
    rw [only, List.eraseDups_cons, List.filter_nil, List.eraseDups_nil]

end Sorting

namespace Contest

variable {targetExists : Target → Bool} {target : Target} {contenders contenders' : List Contender}

/-- A contest comes out the same in whatever order the contenders come, if each has an id of its own. -/
theorem ofContenders_perm (h : contenders.Perm contenders')
    (distinct : ∀ c ∈ contenders, ∀ d ∈ contenders, c.id = d.id → c = d) :
    ofContenders targetExists target contenders' = ofContenders targetExists target contenders := by
  have valid : (contenders'.filter Contender.isValid).mergeSort
        (fun a b => (a.precedence b).isLE) =
      (contenders.filter Contender.isValid).mergeSort fun a b => (a.precedence b).isLE := by
    refine mergeSort_eq_of_perm Contender.precedence (h.filter _) ?_
    intro c hc d hd same
    exact distinct c (List.mem_of_mem_filter hc) d (List.mem_of_mem_filter hd)
      (Contender.id_eq_of_precedence same)
  have invalid : (contenders'.filter fun c => !c.isValid).mergeSort
        (fun a b => (compare a.id b.id).isLE) =
      (contenders.filter fun c => !c.isValid).mergeSort fun a b => (compare a.id b.id).isLE := by
    refine mergeSort_eq_of_perm (compareOn Contender.id) (h.filter _) ?_
    intro c hc d hd same
    exact distinct c (List.mem_of_mem_filter hc) d (List.mem_of_mem_filter hd)
      (PolicyId.eq_of_compare same)
  simp only [ofContenders, valid, invalid]

end Contest

namespace Target

variable {routes routes' : List RouteLinks}

/-- A Gateway leads to a Service if a route names both. -/
theorem mem_gatewaysOf {t g : Target} :
    g ∈ gatewaysOf routes t ↔ ∃ r ∈ routes, t ∈ r.backends ∧ g ∈ r.parents := by
  simp only [gatewaysOf, List.mem_mergeSort, List.mem_eraseDups, List.mem_flatMap, List.mem_filter,
    List.contains_iff_mem, and_assoc]

/-- The Gateways above a Service come in the order of targets, whatever order the routes are in. -/
theorem gatewaysOf_perm (h : routes.Perm routes') (t : Target) :
    gatewaysOf routes' t = gatewaysOf routes t := by
  refine mergeSort_eq_of_perm compare ?_ fun a _ b _ => eq_of_compare
  apply (List.perm_ext_iff_of_nodup (nodup_eraseDups _) (nodup_eraseDups _)).2
  intro a
  rw [List.mem_eraseDups, List.mem_eraseDups]
  exact ((h.filter _).flatMap_right _).mem_iff

/-- The ancestors of a target are sorted, so the order of the routes does not matter. -/
theorem ancestors_perm (h : routes.Perm routes') (t : Target) :
    t.ancestors routes' = t.ancestors routes := by
  unfold ancestors
  rw [gatewaysOf_perm h]

end Target

/-- What is reported for the ancestors does not depend on the order of the routes. -/
theorem AncestryEntry.ofAttachments_perm {routes routes' : List RouteLinks}
    (h : routes.Perm routes') (attachments : List (Target × Attachment)) :
    ofAttachments routes' attachments = ofAttachments routes attachments := by
  simp only [ofAttachments, Target.ancestors_perm h]

namespace Tracker

/-- The same ancestors are marked, each by the same policies with the same conditions. -/
structure SameMarks (marks marks' : Table Target Marks) : Prop where
  contains : ∀ a, marks'.contains a = marks.contains a
  markIn? : ∀ a ref, Tracker.markIn? marks' a ref = Tracker.markIn? marks a ref

theorem SameMarks.refl (marks : Table Target Marks) : SameMarks marks marks :=
  ⟨fun _ => rfl, fun _ _ => rfl⟩

theorem SameMarks.symm {marks marks' : Table Target Marks} (h : SameMarks marks marks') :
    SameMarks marks' marks :=
  ⟨fun a => (h.contains a).symm, fun a ref => (h.markIn? a ref).symm⟩

theorem SameMarks.trans {marks marks' marks'' : Table Target Marks} (h : SameMarks marks marks')
    (h' : SameMarks marks' marks'') : SameMarks marks marks'' :=
  ⟨fun a => (h'.contains a).trans (h.contains a),
    fun a ref => (h'.markIn? a ref).trans (h.markIn? a ref)⟩

/-- The condition to show on an ancestor is that of the smallest policy, wherever its mark stands. -/
theorem SameMarks.first? {marks marks' : Table Target Marks} (h : SameMarks marks marks')
    (a : Target) : (marks'.get? a).bind Marks.first? = (marks.get? a).bind Marks.first? := by
  apply Option.ext
  intro c
  rw [bind_first?_eq_some_iff, bind_first?_eq_some_iff]
  simp only [h.markIn?]

/-- Both trackers hold the same, their tables in whatever order, but for the queue. -/
structure SameContents (tr tr' : Tracker) : Prop where
  reporter : tr'.reporter = tr.reporter
  policies : Reorders tr.policies tr'.policies
  targets : Reorders tr.targets tr'.targets
  routes : Reorders tr.routes tr'.routes
  marks : SameMarks tr.marks tr'.marks
  flagged : Reorders tr.flagged tr'.flagged
  turnedAway : tr'.turnedAway = tr.turnedAway

namespace SameContents

variable {tr tr' tr'' : Tracker} (h : SameContents tr tr')

theorem refl (tr : Tracker) : SameContents tr tr := ⟨rfl, .refl _, .refl _, .refl _, .refl _, .refl _, rfl⟩

include h

theorem symm : SameContents tr' tr :=
  ⟨h.reporter.symm, h.policies.symm, h.targets.symm, h.routes.symm, h.marks.symm, h.flagged.symm,
    h.turnedAway.symm⟩

theorem trans (h' : SameContents tr' tr'') : SameContents tr tr'' :=
  ⟨h'.reporter.trans h.reporter, h.policies.trans h'.policies, h.targets.trans h'.targets,
    h.routes.trans h'.routes, h.marks.trans h'.marks, h.flagged.trans h'.flagged,
    h'.turnedAway.trans h.turnedAway⟩

/-- A contest comes to the same in every order of the policies. -/
theorem contest (kind : PolicyKind) (target : Target) :
    tr'.contest kind target = tr.contest kind target := by
  have order : (tr.contenders kind target).Perm (tr'.contenders kind target) :=
    List.Perm.filterMap _ h.policies
  have exists_eq : tr'.targets.contains = tr.targets.contains := funext h.targets.contains
  rw [Tracker.contest, Tracker.contest, exists_eq]
  exact Contest.ofContenders_perm order fun c hc d hd same => eq_of_mem_contenders hd hc same

theorem attachments (ref : PolicyKey) (facts : PolicyFacts) :
    tr'.attachments ref facts = tr.attachments ref facts := by
  simp only [Tracker.attachments, h.contest]

/-- The review of a policy does not depend on the order of any table. -/
theorem review (now : Instant) (ref : PolicyKey) (s : PolicyRecord) :
    tr'.review now ref s = tr.review now ref s := by
  simp only [Tracker.review, h.attachments, h.reporter,
    AncestryEntry.ofAttachments_perm h.routes.values]

/-- The review of a policy does not depend on the order. -/
theorem reviewIn (now : Instant) (kind : PolicyKind) (ref : PolicyKey) (s : PolicyRecord) :
    tr'.reviewIn now kind ref s = tr.reviewIn now kind ref s := by
  simp only [Tracker.reviewIn, h.review]

theorem reviewsIn (now : Instant) (kind : PolicyKind) :
    Reorders (tr.reviewsIn now kind) (tr'.reviewsIn now kind) :=
  h.policies.mapValues fun ref s => (h.reviewIn now kind ref s).symm

/-- Which kinds have a policy with some property does not depend on the order of the policies. -/
theorem kindsWith (p : PolicyKey → PolicyRecord → Bool) : tr'.kindsWith p = tr.kindsWith p := by
  unfold Tracker.kindsWith
  apply List.filter_congr
  intro kind _
  exact (List.Perm.any_eq h.policies).symm

end SameContents

end Tracker
end PolicyAttachment
