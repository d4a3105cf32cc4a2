import PolicyAttachment.Proofs.Tracker.Reorder
import Mathlib.Data.List.Induction

/-!
# One entry for each ancestor

The targets of a policy are gone through in order, and the ancestors of each target in theirs. No
ancestor is lost and none comes twice: the list has them in the order in which they are first met, each
with the first target below it that the policy is attached to, or else with the first one below it
(`AncestryEntry.ofAttachments_covers`).
-/

namespace PolicyAttachment
set_option autoImplicit false

namespace Target

/-- The ancestors of a target are in strict order. -/
theorem pairwise_ancestors (routes : List RouteLinks) (t : Target) :
    (t.ancestors routes).Pairwise fun a b => compare a b = .lt := by
  have sorted : (gatewaysOf routes t).Pairwise fun a b => compare a b = .lt := by
    refine pairwise_lt_mergeSort compare ((nodup_eraseDups _).imp ?_)
    intro a b ne same
    exact ne (eq_of_compare same)
  unfold ancestors
  split
  · split
    · exact List.pairwise_singleton _ _
    · rename_i heq
      exact sorted
  · exact List.pairwise_singleton _ _

/-- No target has an ancestor twice. -/
theorem nodup_ancestors (routes : List RouteLinks) (t : Target) : (t.ancestors routes).Nodup := by
  refine (pairwise_ancestors routes t).imp ?_
  rintro a b before rfl
  have same : compare a a = .eq := Std.ReflCmp.compare_self
  rw [same] at before
  nomatch before

end Target

namespace AncestryEntry

/-- The pairs whose target is below the ancestor `a`, in order. -/
def below (routes : List RouteLinks) (attachments : List (Target × Attachment)) (a : Target) :
    List (Target × Attachment) :=
  attachments.filter fun p => a ∈ p.1.ancestors routes

/-- The pair that is reported for the ancestor `a`: the first one below it that is attached, or else
the first one below it. -/
def reportedFor? (routes : List RouteLinks) (attachments : List (Target × Attachment)) (a : Target) :
    Option (Target × Attachment) :=
  ((below routes attachments a).find? fun p => p.2.isAttached).or (below routes attachments a).head?

/-- An entry for every ancestor of every target, in the order in which they are met. -/
def each (routes : List RouteLinks) (attachments : List (Target × Attachment)) :
    List AncestryEntry :=
  attachments.flatMap fun p => (p.1.ancestors routes).map fun a => ⟨a, p.1, p.2⟩

/-- The entry that is chosen for the ancestor `a` among the entries for it. -/
def chosen? (es : List AncestryEntry) (a : Target) : Option AncestryEntry :=
  let those := es.filter fun e => e.ancestor = a
  (those.find? fun e => e.attachment.isAttached).or those.head?

/-- The entry that an ancestor has once `new` has come beside the one it had. -/
def settled (old : Option AncestryEntry) (new : AncestryEntry) : AncestryEntry :=
  match old with
  | some e => if !e.attachment.isAttached ∧ new.attachment.isAttached then new else e
  | none => new

variable {routes : List RouteLinks} {attachments : List (Target × Attachment)} {a : Target}
  {es : List AncestryEntry} {e new : AncestryEntry}

theorem outdone_of_ancestor (h : e.ancestor = new.ancestor) :
    outdone new e = settled (some e) new := by
  rw [outdone, settled]
  simp only [h, true_and]

theorem outdone_of_ne (h : e.ancestor ≠ new.ancestor) : outdone new e = e :=
  if_neg fun same => h same.1

theorem find?_eq_none_iff_not_mem :
    es.find? (fun e => e.ancestor = a) = none ↔ a ∉ es.map ancestor := by
  simp [List.find?_eq_none]

/-- What an ancestor has after one more entry depends on what it had before. -/
theorem find?_add (es : List AncestryEntry) (new : AncestryEntry) (a : Target) :
    (add es new).find? (fun e => e.ancestor = a) =
      if new.ancestor = a then some (settled (es.find? fun e => e.ancestor = a) new)
      else es.find? fun e => e.ancestor = a := by
  have sameAncestor : (fun e : AncestryEntry => decide (e.ancestor = a)) ∘ outdone new =
      fun e => decide (e.ancestor = a) := by
    funext e
    rw [Function.comp, ancestor_outdone]
  rw [add_eq]
  by_cases ha : new.ancestor = a
  · subst ha
    rw [if_pos rfl]
    split
    · rename_i taken
      rw [List.find?_map, sameAncestor]
      cases he : es.find? fun e => e.ancestor = new.ancestor with
      | none => exact absurd taken (find?_eq_none_iff_not_mem.1 he)
      | some e =>
        have same : e.ancestor = new.ancestor := by simpa using List.find?_some he
        rw [Option.map_some, outdone_of_ancestor same]
    · rename_i free
      rw [List.find?_append, find?_eq_none_iff_not_mem.2 free, Option.none_or, List.find?_singleton,
        if_pos (decide_eq_true rfl), settled]
  · rw [if_neg ha]
    split
    · rw [List.find?_map, sameAncestor]
      cases he : es.find? fun e => e.ancestor = a with
      | none => rfl
      | some e =>
        have other : e.ancestor = a := by simpa using List.find?_some he
        rw [Option.map_some, outdone_of_ne (other.symm ▸ Ne.symm ha)]
    · rw [List.find?_append, List.find?_singleton, if_neg (by simpa using ha), Option.or_none]

/-- Going on by one entry, the choice is between the entry chosen so far and the new one. Nothing
outdoes one that is attached. -/
theorem chosen?_append_singleton (es : List AncestryEntry) (new : AncestryEntry) (a : Target) :
    chosen? (es ++ [new]) a =
      if new.ancestor = a then some (settled (chosen? es a) new) else chosen? es a := by
  simp only [chosen?, List.filter_append]
  by_cases ha : new.ancestor = a
  · rw [if_pos ha, List.filter_cons_of_pos (by simpa using ha), List.filter_nil]
    generalize es.filter (fun e => e.ancestor = a) = those
    cases hf : those.find? fun e => e.attachment.isAttached with
    | some d =>
      have attached : d.attachment.isAttached = true := by simpa using List.find?_some hf
      simp [List.find?_append, hf, settled, attached]
    | none =>
      cases those with
      | nil => cases h : new.attachment.isAttached <;> simp [settled, h]
      | cons e those =>
        have unattached : e.attachment.isAttached = false := by
          simpa using List.find?_eq_none.1 hf e List.mem_cons_self
        rw [List.find?_append, hf]
        cases h : new.attachment.isAttached <;> simp [settled, unattached, h]
  · rw [if_neg ha, List.filter_cons_of_neg (by simpa using ha), List.filter_nil, List.append_nil]

/-- After all entries, an ancestor has the one that is chosen among those for it. -/
theorem find?_foldl_add (es : List AncestryEntry) (a : Target) :
    (es.foldl add []).find? (fun e => e.ancestor = a) = chosen? es a := by
  induction es using List.reverseRecOn with
  | nil => rfl
  | append_singleton es new ih =>
    rw [List.foldl_append, List.foldl_cons, List.foldl_nil, find?_add, ih,
      chosen?_append_singleton]

/-- Ancestors come in the order in which they are first met. -/
theorem map_ancestor_foldl_add (es : List AncestryEntry) :
    (es.foldl add []).map ancestor = (es.map ancestor).eraseDups := by
  induction es using List.reverseRecOn with
  | nil => rfl
  | append_singleton es new ih =>
    rw [List.foldl_append, List.foldl_cons, List.foldl_nil, map_ancestor_add, ih, List.map_append,
      List.map_singleton, eraseDups_append_singleton]
    simp only [List.mem_eraseDups]

/-- The ancestors are met target by target. -/
theorem map_ancestor_each (routes : List RouteLinks) (attachments : List (Target × Attachment)) :
    (each routes attachments).map ancestor = attachments.flatMap fun p => p.1.ancestors routes := by
  rw [each, List.map_flatMap]
  congr 1
  funext p
  rw [List.map_map]
  exact List.map_id _

/-- The entries for the ancestor `a` are those of the targets below it, one of each. -/
theorem filter_each (routes : List RouteLinks) (attachments : List (Target × Attachment))
    (a : Target) : (each routes attachments).filter (fun e => e.ancestor = a) =
      (below routes attachments a).map fun p => ⟨a, p.1, p.2⟩ := by
  induction attachments with
  | nil => rfl
  | cons p attachments ih =>
    have once : ((p.1.ancestors routes).map fun b => (⟨b, p.1, p.2⟩ : AncestryEntry)).filter
        (fun e => e.ancestor = a) =
        if a ∈ p.1.ancestors routes then [⟨a, p.1, p.2⟩] else [] := by
      have only : (p.1.ancestors routes).filter (fun b => b = a) =
          List.replicate ((p.1.ancestors routes).count a) a := List.filter_beq a
      rw [List.filter_map, show (fun e : AncestryEntry => decide (e.ancestor = a)) ∘
        (fun b => ⟨b, p.1, p.2⟩) = fun b => decide (b = a) from rfl, only,
        (Target.nodup_ancestors routes p.1).count]
      split <;> rfl
    have split : each routes (p :: attachments) =
        ((p.1.ancestors routes).map fun b => ⟨b, p.1, p.2⟩) ++ each routes attachments :=
      List.flatMap_cons
    rw [split, List.filter_append, once, ih, below, below]
    by_cases h : a ∈ p.1.ancestors routes
    · rw [if_pos h, List.filter_cons_of_pos (by simpa using h)]
      rfl
    · rw [if_neg h, List.filter_cons_of_neg (by simpa using h)]
      rfl

/-- What is chosen for an ancestor is what is to be reported for it. -/
theorem chosen?_each (routes : List RouteLinks) (attachments : List (Target × Attachment))
    (a : Target) : chosen? (each routes attachments) a =
      (reportedFor? routes attachments a).map fun p => ⟨a, p.1, p.2⟩ := by
  simp only [chosen?, filter_each, reportedFor?, Option.map_or, List.find?_map, List.head?_map]
  rfl

theorem mem_iff_find? (nodup : (es.map ancestor).Nodup) :
    e ∈ es ↔ es.find? (fun d => d.ancestor = e.ancestor) = some e :=
  ⟨Entry.find?_of_nodup_map nodup, List.mem_of_find?_eq_some⟩

/-- The entries for a policy's targets have every ancestor of every target once, in the order in which
the ancestors are met when the targets are gone through one after the other, each with its ancestors in
order. An ancestor stands with the first target below it that is attached, or, if none is, with the
first one below it. -/
theorem ofAttachments_covers (routes : List RouteLinks)
    (attachments : List (Target × Attachment)) :
    ((ofAttachments routes attachments).map ancestor).Nodup ∧
    (∀ a, a ∈ (ofAttachments routes attachments).map ancestor ↔
      ∃ p ∈ attachments, a ∈ p.1.ancestors routes) ∧
    (∀ e, e ∈ ofAttachments routes attachments ↔
      reportedFor? routes attachments e.ancestor = some (e.target, e.attachment)) ∧
    (ofAttachments routes attachments).map ancestor =
      (attachments.flatMap fun p => p.1.ancestors routes).eraseDups ∧
    ∀ t : Target, (t.ancestors routes).Pairwise fun a b => compare a b = .lt := by
  have folded : ofAttachments routes attachments = (each routes attachments).foldl add [] := rfl
  have nodup := nodup_ofAttachments routes attachments
  have order : (ofAttachments routes attachments).map ancestor =
      (attachments.flatMap fun p => p.1.ancestors routes).eraseDups := by
    rw [folded, map_ancestor_foldl_add, map_ancestor_each]
  refine ⟨nodup, ?_, ?_, order, Target.pairwise_ancestors routes⟩
  · intro a
    rw [order, List.mem_eraseDups, List.mem_flatMap]
  · rintro ⟨a, target, attachment⟩
    rw [mem_iff_find? nodup, folded, find?_foldl_add, chosen?_each, Option.map_eq_some_iff]
    constructor
    · rintro ⟨⟨t, o⟩, hp, same⟩
      cases same
      exact hp
    · exact fun hp => ⟨_, hp, rfl⟩

end AncestryEntry
end PolicyAttachment
