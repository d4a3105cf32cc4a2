import PolicyAttachment.Proofs.Register.Reload

/-!
# The places of entries

The place of an entry is the reference and the writer that are written for it. Taking over what others
stored keeps the order of places where an entry is found again, and an entry is found again only if
it still reads, or still does not. So conditions that come to read, or cease to, move their entry to
the end: `Register.Reachable.keepsPlaces_iff`.
-/

namespace PolicyAttachment
set_option autoImplicit false

namespace AncestorStatus

/-- What names a stored entry: its reference and its writer. -/
def place (a : AncestorStatus) : ParentReference × String := (a.ancestorRef, a.controllerName)

/-- The entry `b` is the entry `a`, unless it is of another controller than `ours`: then its conditions
may be any. -/
structure Revised (ours : ControllerName) (a b : AncestorStatus) : Prop where
  place : b.place = a.place
  own : a.controllerName = ours.text → b = a

instance (ours : ControllerName) (a b : AncestorStatus) : Decidable (Revised ours a b) :=
  decidable_of_iff (b.place = a.place ∧ (a.controllerName = ours.text → b = a))
    ⟨fun h => ⟨h.1, h.2⟩, fun h => ⟨h.1, h.2⟩⟩

end AncestorStatus

namespace Entry

/-- What is written to name an entry. -/
def Label.place : Label → ParentReference × String
  | known key => (key.ancestor.toParent, key.controller.text)
  | verbatim writer ref => (ref, writer)

def Label.isKnown : Label → Bool
  | known _ => true
  | verbatim _ _ => false

/-- Whether the entry is one of another controller than `ours` that nothing stored in `l` describes. -/
def isStale (ours : ControllerName) (l : List AncestorStatus) (e : Entry) : Bool :=
  e.isByOther ours && !(others ours l).any (·.describesSame e)

/-- Of the labels `seen`, those that come in beside the ones there are: new ones, each of them once,
while there is room. -/
def newcomers : List Label → List Label → List Label
  | _, [] => []
  | there, x :: seen =>
    if x ∈ there ∨ maxAncestors ≤ there.length then newcomers there seen
    else x :: newcomers (there ++ [x]) seen

section Labels

theorem place_label (e : Entry) : e.label.place = e.toStatus.place := by
  cases e <;> rfl

/-- At one place there is at most one label that is known, and one that is not. -/
theorem Label.eq_of_place {x y : Label} (place : x.place = y.place)
    (same : x.isKnown = y.isKnown) : x = y := by
  cases x with
  | known key =>
    cases y with
    | known key' =>
      obtain ⟨ancestor, controller⟩ := key
      obtain ⟨ancestor', controller'⟩ := key'
      obtain ⟨ref, writer⟩ := Prod.mk.inj place
      have := congrArg AncestorRef.ofParent ref
      rw [AncestorRef.ofParent_toParent, AncestorRef.ofParent_toParent] at this
      obtain rfl : ancestor = ancestor' := this
      obtain rfl : controller = controller' := ControllerName.ext_text writer
      rfl
    | verbatim writer ref => cases same
  | verbatim writer ref =>
    cases y with
    | known key => cases same
    | verbatim writer' ref' =>
      obtain ⟨rfl, rfl⟩ := Prod.mk.inj place
      rfl

/-- Three labels at one place are not all different. -/
theorem Label.eq_or_eq_of_place {x y z : Label} (differ : x ≠ y) (place : x.place = y.place)
    (place' : z.place = y.place) : z = x ∨ z = y := by
  have other : x.isKnown ≠ y.isKnown := fun same => differ (eq_of_place place same)
  by_cases same : z.isKnown = y.isKnown
  · exact .inr (eq_of_place place' same)
  · refine .inl (eq_of_place (place'.trans place.symm) ?_)
    revert other same
    cases z.isKnown <;> cases x.isKnown <;> cases y.isKnown <;> simp

theorem map_label_adoptInto_of_mem {es : List Entry} {f : Entry} (h : f.label ∈ es.map label) :
    (adoptInto es f).map label = es.map label := by
  obtain ⟨i, hi⟩ := Option.isSome_iff_exists.1 (List.isSome_idxOf?.2 h)
  obtain ⟨hlt, hlabel, -⟩ := List.idxOf?_eq_some_iff.1 hi
  rw [adoptInto, findIdx?_describesSame, hi]
  show (es.set i f).map label = es.map label
  rw [List.map_set, ← hlabel, List.set_getElem_self]

/-- Adopting entries adds the labels of the newcomers at the end. -/
theorem map_label_foldl_adoptInto (es fs : List Entry) :
    (fs.foldl adoptInto es).map label = es.map label ++ newcomers (es.map label) (fs.map label) := by
  induction fs generalizing es with
  | nil => exact (List.append_nil _).symm
  | cons f fs ih =>
    rw [List.foldl_cons, ih, List.map_cons, newcomers]
    by_cases hf : f.label ∈ es.map label
    · rw [map_label_adoptInto_of_mem hf, if_pos (.inl hf)]
    · rw [adoptInto_of_not_mem hf, List.length_map]
      by_cases full : maxAncestors ≤ es.length
      · rw [if_pos full, if_pos (.inr full)]
      · rw [if_neg full, if_neg (not_or.2 ⟨hf, full⟩), List.map_append, List.map_singleton,
          List.append_assoc, List.singleton_append]

theorem mem_of_mem_newcomers {x : Label} {there seen : List Label} (h : x ∈ newcomers there seen) :
    x ∈ seen ∧ x ∉ there := by
  induction seen generalizing there with
  | nil => cases h
  | cons y seen ih =>
    rw [newcomers] at h
    split at h
    · obtain ⟨hs, ht⟩ := ih h
      exact ⟨List.mem_cons_of_mem _ hs, ht⟩
    · rename_i absent
      rcases List.mem_cons.1 h with rfl | h
      · exact ⟨List.mem_cons_self, (not_or.1 absent).1⟩
      · obtain ⟨hs, ht⟩ := ih h
        exact ⟨List.mem_cons_of_mem _ hs, fun hm => ht (List.mem_append_left _ hm)⟩

/-- Distinct labels that find room all come in. -/
theorem newcomers_of_nodup {there seen : List Label} (nodup : seen.Nodup)
    (room : there.length + (seen.filter fun x => x ∉ there).length ≤ maxAncestors) :
    newcomers there seen = seen.filter fun x => x ∉ there := by
  induction seen generalizing there with
  | nil => rfl
  | cons x seen ih =>
    obtain ⟨fresh, nodup⟩ := List.nodup_cons.1 nodup
    rw [newcomers]
    by_cases hx : x ∈ there
    · rw [List.filter_cons_of_neg (by simpa using hx)] at room ⊢
      rw [if_pos (.inl hx), ih nodup room]
    · have later : (seen.filter fun y => y ∉ there ++ [x]) = seen.filter fun y => y ∉ there := by
        apply List.filter_congr
        intro y hy
        have : y ≠ x := fun heq => fresh (heq ▸ hy)
        simp [this]
      rw [List.filter_cons_of_pos (by simpa using hx)] at room ⊢
      rw [List.length_cons] at room
      rw [if_neg (not_or.2 ⟨hx, by omega⟩), ih nodup, later]
      rw [later, List.length_append, List.length_singleton]
      omega

end Labels

section Order

variable {es : List Entry} {stale : Entry → Bool} {new : List Label}

/-- If what is stale stands at the end, taking it out splits the list. -/
theorem filter_append_of_pairwise {α : Type} {p : α → Bool} {l : List α}
    (h : l.Pairwise fun a b => p a = true → p b = true) :
    (l.filter fun a => !p a) ++ l.filter p = l := by
  induction h with
  | nil => rfl
  | @cons a l first _ ih =>
    by_cases ha : p a = true
    · have all : ∀ b ∈ l, p b = true := fun b hb => first b hb ha
      rw [List.filter_cons_of_neg (by simp [ha]), List.filter_cons_of_pos ha,
        List.filter_eq_self.2 all, List.filter_eq_nil_iff.2 (by simpa using all), List.nil_append]
    · rw [List.filter_cons_of_pos (by simpa using ha), List.filter_cons_of_neg ha, List.cons_append, ih]

/-- No entry that stays is at the place of one that goes: what comes has the places of what goes, and a
place knows just two labels. -/
theorem place_mem_iff_of_perm (factors : ∀ e ∈ es, ∀ f ∈ es, e.label = f.label → stale e = stale f)
    (fresh : ∀ x ∈ new, x ∉ es.map label)
    (count : (new.map Label.place).Perm ((es.filter stale).map (Label.place ∘ label))) {e : Entry}
    (he : e ∈ es) :
    e.label.place ∈ (es.filter stale).map (Label.place ∘ label) ↔ stale e = true := by
  constructor
  · intro hm
    obtain ⟨f, hf, hplace⟩ := List.mem_map.1 hm
    obtain ⟨hfe, hstale⟩ := List.mem_filter.1 hf
    obtain ⟨x, hx, hxplace⟩ := List.mem_map.1 (count.symm.subset hm)
    have notThere := fresh x hx
    have differ : x ≠ e.label := fun heq => notThere (heq ▸ List.mem_map_of_mem he)
    rcases Label.eq_or_eq_of_place differ hxplace hplace with heq | heq
    · exact absurd (heq ▸ List.mem_map_of_mem hfe) notThere
    · rw [← factors f hfe e he heq, hstale]
  · exact fun hs => List.mem_map.2 ⟨e, List.mem_filter.2 ⟨he, hs⟩, rfl⟩

/-- Places stay in order exactly if what goes stands at the end, and what comes has its places. -/
theorem places_append_iff (factors : ∀ e ∈ es, ∀ f ∈ es, e.label = f.label → stale e = stale f)
    (fresh : ∀ x ∈ new, x ∉ es.map label) :
    (es.filter fun e => !stale e).map (Label.place ∘ label) ++ new.map Label.place =
        es.map (Label.place ∘ label) ↔
      es.Pairwise (fun e f => stale e = true → stale f = true) ∧
        new.map Label.place = (es.filter stale).map (Label.place ∘ label) := by
  constructor
  · intro same
    have count : (new.map Label.place).Perm ((es.filter stale).map (Label.place ∘ label)) := by
      rw [← List.perm_append_left_iff, same, ← List.map_append]
      exact ((List.perm_append_comm).trans (List.filter_append_perm stale es)).symm.map _
    have gone := fun e he => place_mem_iff_of_perm factors fresh count (e := e) he
    have last : es.Pairwise fun e f => stale e = true → stale f = true := by
      have places : (es.map (Label.place ∘ label)).Pairwise fun p q =>
          p ∈ (es.filter stale).map (Label.place ∘ label) →
            q ∈ (es.filter stale).map (Label.place ∘ label) := by
        rw [← same, List.pairwise_append]
        have staying : ∀ p ∈ (es.filter fun e => !stale e).map (Label.place ∘ label),
            p ∉ (es.filter stale).map (Label.place ∘ label) := by
          intro p hp
          obtain ⟨e, he, rfl⟩ := List.mem_map.1 hp
          obtain ⟨he, hstays⟩ := List.mem_filter.1 he
          rw [Function.comp, gone e he]
          simpa using hstays
        refine ⟨?_, ?_, fun p hp q _ hgone => absurd hgone (staying p hp)⟩
        · exact List.pairwise_of_forall_mem_list fun p hp q _ hgone => absurd hgone (staying p hp)
        · exact List.pairwise_of_forall_mem_list fun p _ q hq _ => count.subset hq
      rw [List.pairwise_map] at places
      refine places.imp_of_mem ?_
      intro e f he hf later
      rw [Function.comp, Function.comp, gone e he, gone f hf] at later
      exact later
    refine ⟨last, ?_⟩
    have parts := congrArg (List.map (Label.place ∘ label)) (filter_append_of_pairwise last)
    rw [← same, List.map_append] at parts
    exact (List.append_cancel_left parts).symm
  · rintro ⟨last, same⟩
    rw [same, ← List.map_append, filter_append_of_pairwise last]

end Order

section Stale

variable {ours : ControllerName} {l : List AncestorStatus} {e f : Entry}

/-- An entry is stale if it is another controller's and no stored one has its label. -/
theorem isStale_iff : isStale ours l e = true ↔
    e.isByOther ours = true ∧ e.label ∉ (others ours l).map label := by
  rw [isStale, Bool.and_eq_true, Bool.not_eq_true', ← Bool.not_eq_true, List.any_eq_true,
    List.mem_map]
  simp only [describesSame_iff]

theorem isStale_of_label (h : e.label = f.label) : isStale ours l e = isStale ours l f := by
  rw [Bool.eq_iff_iff, isStale_iff, isStale_iff, h, isByOther_of_label h]

end Stale

end Entry

namespace Register

open Entry

/-- The places of the entries, as they are written. -/
def places (r : Register) : List (ParentReference × String) :=
  r.toStatus.ancestors.map AncestorStatus.place

/-- The labels that come in when `l` is taken over. -/
def arrivals (r : Register) (ours : ControllerName) (l : List AncestorStatus) : List Label :=
  newcomers ((r.entries.filter fun e => !isStale ours l e).map label) ((others ours l).map label)

variable {r : Register} {ours : ControllerName} {l : List AncestorStatus}

theorem places_eq (r : Register) : r.places = r.entries.map (Label.place ∘ label) := by
  rw [places, toStatus, List.map_map]
  exact List.map_congr_left fun e _ => (place_label e).symm

/-- The places after taking over: those of what stays, then those of what arrives. -/
theorem places_takeOver (h : r.Sound) (ours : ControllerName) (l : List AncestorStatus) :
    (r.takeOver ours ⟨l⟩).2.places =
      (r.entries.filter fun e => !isStale ours l e).map (Label.place ∘ label) ++
        (r.arrivals ours l).map Label.place := by
  have entries : (r.takeOver ours ⟨l⟩).2.entries =
      (others ours l).foldl adoptInto (r.entries.filter fun e => !isStale ours l e) :=
    (takeOver_eq h ours l).2
  rw [places_eq, entries, ← List.map_map, map_label_foldl_adoptInto, List.map_append, List.map_map,
    arrivals]

theorem not_mem_of_mem_arrivals {x : Label} (hx : x ∈ r.arrivals ours l) :
    x ∉ r.entries.map label := by
  obtain ⟨seen, absent⟩ := mem_of_mem_newcomers hx
  intro hm
  obtain ⟨e, he, rfl⟩ := List.mem_map.1 hm
  refine absent (List.mem_map_of_mem (List.mem_filter.2 ⟨he, ?_⟩))
  rw [Bool.not_eq_true', ← Bool.not_eq_true, isStale_iff]
  exact fun stale => stale.2 seen

/-- Taking over a stored list keeps the places in order exactly if the entries that it takes out are
the last ones, and those that it brings in have their places. -/
theorem places_takeOver_eq_iff (h : r.Sound) (ours : ControllerName) (l : List AncestorStatus) :
    (r.takeOver ours ⟨l⟩).2.places = r.places ↔
      r.entries.Pairwise (fun e f => isStale ours l e = true → isStale ours l f = true) ∧
        (r.arrivals ours l).map Label.place =
          (r.entries.filter (isStale ours l)).map (Label.place ∘ label) := by
  rw [places_takeOver h, places_eq]
  exact places_append_iff (fun _ _ _ _ => isStale_of_label) fun _ => not_mem_of_mem_arrivals

end Register

namespace Entry

/-- Whether a stored entry comes to read, or ceases to, when it is replaced with another. -/
def shifts (x : AncestorStatus × AncestorStatus) : Bool := (known? x.1).isSome != (known? x.2).isSome

/-- No two entries of other controllers than `ours` are about one ancestor for one writer. -/
def SingleOthers (ours : ControllerName) (l : List AncestorStatus) : Prop :=
  ((l.filter fun a => a.controllerName != ours.text).map AncestorStatus.identity).Nodup

section Shifting

theorem isKnown_label_ofStatus (a : AncestorStatus) :
    (ofStatus a).label.isKnown = (known? a).isSome := by
  unfold ofStatus
  cases hk : known? a with
  | none => rfl
  | some e =>
    obtain ⟨controller, cs, rfl, -⟩ := exists_of_known? hk
    rfl

/-- An entry keeps its label exactly if it reads as before. -/
theorem label_ofStatus_eq_iff {a b : AncestorStatus} (h : b.place = a.place) :
    (ofStatus a).label = (ofStatus b).label ↔ (known? a).isSome = (known? b).isSome := by
  obtain ⟨ref, writer⟩ : b.ancestorRef = a.ancestorRef ∧ b.controllerName = a.controllerName :=
    Prod.mk.inj h
  rw [← isKnown_label_ofStatus, ← isKnown_label_ofStatus]
  refine ⟨congrArg Label.isKnown, ?_⟩
  rcases ofStatus_cases a with ⟨controller, cs, ha, htext, -⟩ | ⟨-, ha⟩ <;>
    rcases ofStatus_cases b with ⟨controller', cs', hb, htext', -⟩ | ⟨-, hb⟩ <;> rw [ha, hb] <;>
    intro same
  · have : controller = controller' := ControllerName.ext_text (by rw [htext, htext', writer])
    rw [label, label, ref, this]
  · cases same
  · cases same
  · rw [label, label, ref, writer]

variable {ours : ControllerName} {ps : List (AncestorStatus × AncestorStatus)}
  {x y : AncestorStatus × AncestorStatus}

/-- A revised entry keeps its label exactly if it reads as before. -/
theorem not_shifts_iff (h : AncestorStatus.Revised ours x.1 x.2) :
    shifts x = false ↔ (ofStatus x.1).label = (ofStatus x.2).label := by
  rw [label_ofStatus_eq_iff h.place, shifts, bne_eq_false_iff_eq]

theorem controllerName_of_revised (h : AncestorStatus.Revised ours x.1 x.2) :
    x.2.controllerName = x.1.controllerName :=
  (Prod.mk.inj h.place).2

theorem identity_of_revised (h : AncestorStatus.Revised ours x.1 x.2) :
    x.2.identity = x.1.identity := by
  rw [AncestorStatus.identity, AncestorStatus.identity, controllerName_of_revised h,
    (Prod.mk.inj h.place).1]

/-- Only entries of others shift. -/
theorem isByOther_of_shifts (h : AncestorStatus.Revised ours x.1 x.2) (hs : shifts x = true) :
    x.1.controllerName ≠ ours.text := by
  intro own
  rw [shifts, h.own own, bne_self_eq_false] at hs
  cases hs

/-- Of what others store, an identity finds one entry. -/
theorem eq_of_identity (single : SingleOthers ours (ps.map Prod.fst)) (hx : x ∈ ps) (hy : y ∈ ps)
    (other : x.1.controllerName ≠ ours.text) (same : x.1.identity = y.1.identity) : x = y := by
  rw [SingleOthers, List.filter_map, List.map_map] at single
  refine List.inj_on_of_nodup_map single (List.mem_filter.2 ⟨hx, bne_iff_ne.2 other⟩)
    (List.mem_filter.2 ⟨hy, bne_iff_ne.2 ?_⟩) same
  rwa [← controllerName_of_identity same]

/-- Without two entries about one thing, an entry is seen with the label of another only if both are
the same. -/
theorem eq_of_label (revised : ∀ x ∈ ps, AncestorStatus.Revised ours x.1 x.2)
    (single : SingleOthers ours (ps.map Prod.fst)) (hx : x ∈ ps) (hy : y ∈ ps)
    (other : x.1.controllerName ≠ ours.text)
    (same : (ofStatus x.1).label = (ofStatus y.2).label) : x = y := by
  refine eq_of_identity single hx hy other ?_
  rw [← identity_of_revised (revised y hy)]
  exact identity_of_label same

/-- What becomes stale is what begins or ceases to read. -/
theorem isStale_iff_shifts (revised : ∀ x ∈ ps, AncestorStatus.Revised ours x.1 x.2)
    (single : SingleOthers ours (ps.map Prod.fst)) (hx : x ∈ ps) :
    isStale ours (ps.map Prod.snd) (ofStatus x.1) = shifts x := by
  rw [Bool.eq_iff_iff, isStale_iff, isByOther_ofStatus_iff, ← Bool.not_eq_false,
    not_shifts_iff (revised x hx)]
  constructor
  · rintro ⟨other, absent⟩ same
    refine absent (List.mem_map.2 ⟨_, mem_others_iff.2 ⟨x.2, List.mem_map_of_mem hx, ?_, rfl⟩,
      same.symm⟩)
    rwa [controllerName_of_revised (revised x hx)]
  · intro differ
    have shifted : shifts x = true := by
      rw [← Bool.not_eq_false, not_shifts_iff (revised x hx)]
      exact differ
    have other := isByOther_of_shifts (revised x hx) shifted
    refine ⟨other, ?_⟩
    intro hm
    obtain ⟨e, he, same⟩ := List.mem_map.1 hm
    obtain ⟨b, hb, -, rfl⟩ := mem_others_iff.1 he
    obtain ⟨y, hy, rfl⟩ := List.mem_map.1 hb
    obtain rfl := eq_of_label revised single hx hy other same.symm
    exact differ same.symm

/-- The labels of others in the list seen, pair by pair. -/
theorem map_label_others (revised : ∀ x ∈ ps, AncestorStatus.Revised ours x.1 x.2) :
    (others ours (ps.map Prod.snd)).map label =
      (ps.filter fun x => x.1.controllerName != ours.text).map fun x => (ofStatus x.2).label := by
  rw [others, foreign, List.map_map, List.filter_map, List.map_map]
  congr 1
  apply List.filter_congr
  intro x hx
  rw [Function.comp, Function.comp, isByOther_ofStatus, controllerName_of_revised (revised x hx)]

/-- Revised entries of others still have differing labels. -/
theorem nodup_label_others (revised : ∀ x ∈ ps, AncestorStatus.Revised ours x.1 x.2)
    (single : SingleOthers ours (ps.map Prod.fst)) :
    ((others ours (ps.map Prod.snd)).map label).Nodup := by
  have identities : ((ps.filter fun x => x.1.controllerName != ours.text).map Prod.snd).map
      AncestorStatus.identity =
      ((ps.map Prod.fst).filter fun a => a.controllerName != ours.text).map
        AncestorStatus.identity := by
    rw [List.filter_map, List.map_map, List.map_map]
    exact List.map_congr_left fun x hx => identity_of_revised (revised x (List.mem_filter.1 hx).1)
  rw [SingleOthers, ← identities] at single
  have distinct := distinct_of_identity single
  rw [Distinct, List.map_map, List.map_map] at distinct
  rw [map_label_others revised]
  exact distinct

/-- What is seen of another controller is there already exactly if it does not shift. -/
theorem label_mem_kept_iff (revised : ∀ x ∈ ps, AncestorStatus.Revised ours x.1 x.2)
    (single : SingleOthers ours (ps.map Prod.fst)) (hx : x ∈ ps)
    (other : x.1.controllerName ≠ ours.text) :
    (ofStatus x.2).label ∈ ((ps.filter fun y => !shifts y).map fun y => ofStatus y.1).map label ↔
      shifts x = false := by
  constructor
  · intro hm
    obtain ⟨e, he, same⟩ := List.mem_map.1 hm
    obtain ⟨y, hy, rfl⟩ := List.mem_map.1 he
    obtain ⟨hy, hs⟩ := List.mem_filter.1 hy
    have otherY : y.1.controllerName ≠ ours.text := by
      rw [← writer_ofStatus, ← writer_label, same, writer_label, writer_ofStatus,
        controllerName_of_revised (revised x hx)]
      exact other
    obtain rfl := eq_of_label revised single hy hx otherY same
    exact (Bool.not_eq_true' _).mp hs
  · intro hs
    refine List.mem_map.2 ⟨_, List.mem_map_of_mem (List.mem_filter.2 ⟨hx, by rw [hs]; rfl⟩), ?_⟩
    exact (not_shifts_iff (revised x hx)).1 hs

end Shifting

end Entry

namespace Register

open Entry

section Revising

variable {r : Register} {ours : ControllerName} {ps : List (AncestorStatus × AncestorStatus)}

/-- With no two entries of others about one thing, those that come in are those that shift. -/
theorem arrivals_of_revised (h : r.Sound)
    (entries : r.entries = ps.map fun x => Entry.ofStatus x.1)
    (revised : ∀ x ∈ ps, AncestorStatus.Revised ours x.1 x.2)
    (single : SingleOthers ours (ps.map Prod.fst)) :
    r.arrivals ours (ps.map Prod.snd) =
      (ps.filter shifts).map fun x => (Entry.ofStatus x.2).label := by
  have kept : (r.entries.filter fun e => !isStale ours (ps.map Prod.snd) e) =
      (ps.filter fun x => !shifts x).map fun x => Entry.ofStatus x.1 := by
    rw [entries, List.filter_map]
    congr 1
    apply List.filter_congr
    intro x hx
    rw [Function.comp, isStale_iff_shifts revised single hx]
  have come : (((others ours (ps.map Prod.snd)).map label).filter fun n =>
      n ∉ ((ps.filter fun x => !shifts x).map fun x => Entry.ofStatus x.1).map label) =
      (ps.filter shifts).map fun x => (Entry.ofStatus x.2).label := by
    rw [map_label_others revised, List.filter_map, List.filter_filter]
    congr 1
    apply List.filter_congr
    intro x hx
    by_cases other : x.1.controllerName = ours.text
    · have stays : shifts x = false := by
        rw [← Bool.not_eq_true]
        exact fun hs => isByOther_of_shifts (revised x hx) hs other
      rw [stays, bne_eq_false_iff_eq.2 other, Bool.and_false]
    · rw [bne_iff_ne.2 other, Bool.and_true, Function.comp, Bool.eq_iff_iff, decide_eq_true_eq,
        label_mem_kept_iff revised single hx other, Bool.not_eq_false]
  have bounded := h.bounded
  rw [size, entries, List.length_map, List.length_eq_length_filter_add shifts] at bounded
  rw [arrivals, kept, newcomers_of_nodup (nodup_label_others revised single), come]
  rw [come, List.length_map, List.length_map, List.length_map, Nat.add_comm]
  exact bounded

/-- If no entry comes to read or ceases to, then none is taken out and none comes in. -/
theorem places_of_none_shift (h : r.Sound)
    (entries : r.entries = ps.map fun x => Entry.ofStatus x.1)
    (revised : ∀ x ∈ ps, AncestorStatus.Revised ours x.1 x.2)
    (none : ∀ x ∈ ps, shifts x = false) :
    (r.takeOver ours ⟨ps.map Prod.snd⟩).2.places = r.places := by
  have same : ∀ x ∈ ps, (Entry.ofStatus x.1).label = (Entry.ofStatus x.2).label :=
    fun x hx => (not_shifts_iff (revised x hx)).1 (none x hx)
  have noneStale : ∀ e ∈ r.entries, isStale ours (ps.map Prod.snd) e = false := by
    intro e he
    rw [entries] at he
    obtain ⟨x, hx, rfl⟩ := List.mem_map.1 he
    rw [← Bool.not_eq_true, isStale_iff, isByOther_ofStatus_iff]
    rintro ⟨other, absent⟩
    refine absent (List.mem_map.2 ⟨_, mem_others_iff.2 ⟨x.2, List.mem_map_of_mem hx, ?_, rfl⟩,
      (same x hx).symm⟩)
    rwa [controllerName_of_revised (revised x hx)]
  have noneNew : r.arrivals ours (ps.map Prod.snd) = [] := by
    rw [List.eq_nil_iff_forall_not_mem]
    intro n hn
    have seen := (mem_of_mem_newcomers hn).1
    rw [map_label_others revised] at seen
    obtain ⟨x, hx, rfl⟩ := List.mem_map.1 seen
    have hx := (List.mem_filter.1 hx).1
    refine not_mem_of_mem_arrivals hn (List.mem_map.2 ⟨Entry.ofStatus x.1, ?_, same x hx⟩)
    rw [entries]
    exact List.mem_map_of_mem hx
  rw [places_takeOver h, noneNew, List.filter_eq_self.2 (by simpa using noneStale), List.map_nil,
    List.append_nil, places_eq]

/-- Giving group and kind changes nothing but the place. -/
theorem place_explicit_eq_iff {a : AncestorStatus} : (explicit a).place = a.place ↔ explicit a = a := by
  refine ⟨fun h => ?_, congrArg AncestorStatus.place⟩
  have ref := (Prod.mk.inj h).1
  revert ref
  unfold explicit
  split
  · intro ref
    exact congrArg (fun ref => { a with ancestorRef := ref }) ref
  · exact fun _ => rfl

/-- A revised entry that reads as before names group and kind as before. -/
theorem explicit_of_not_shifts {x : AncestorStatus × AncestorStatus}
    (revised : AncestorStatus.Revised ours x.1 x.2) (written : explicit x.1 = x.1)
    (hs : shifts x = false) : explicit x.2 = x.2 := by
  rw [explicit_eq_self_iff] at written ⊢
  rw [(Prod.mk.inj revised.place).1, ← bne_eq_false_iff_eq.1 hs]
  exact written

/-- With no two entries of others about one thing, places stay in order exactly if the entries that
shift are the last ones, and what reads of all that is seen gives group and kind. -/
theorem places_takeOver_eq_iff_of_single (h : r.Sound)
    (entries : r.entries = ps.map fun x => Entry.ofStatus x.1)
    (written : ∀ x ∈ ps, explicit x.1 = x.1)
    (revised : ∀ x ∈ ps, AncestorStatus.Revised ours x.1 x.2)
    (single : SingleOthers ours (ps.map Prod.fst)) :
    (r.takeOver ours ⟨ps.map Prod.snd⟩).2.places = r.places ↔
      ps.Pairwise (fun x y => shifts x = true → shifts y = true) ∧
        ∀ x ∈ ps, explicit x.2 = x.2 := by
  have place : ∀ x ∈ ps, (Label.place ∘ label) (Entry.ofStatus x.1) = x.1.place := by
    intro x hx
    rw [Function.comp, place_label, toStatus_ofStatus, written x hx]
  have stale : (r.entries.filter (isStale ours (ps.map Prod.snd))).map (Label.place ∘ label) =
      (ps.filter shifts).map fun x => x.1.place := by
    have goes : ps.filter (isStale ours (ps.map Prod.snd) ∘ fun x => Entry.ofStatus x.1) =
        ps.filter shifts := List.filter_congr fun x hx => isStale_iff_shifts revised single hx
    rw [entries, List.filter_map, List.map_map, goes]
    exact List.map_congr_left fun x hx => place x (List.mem_filter.1 hx).1
  have last : r.entries.Pairwise (fun e f => isStale ours (ps.map Prod.snd) e = true →
      isStale ours (ps.map Prod.snd) f = true) ↔
      ps.Pairwise fun x y => shifts x = true → shifts y = true := by
    rw [entries, List.pairwise_map]
    apply List.Pairwise.iff_of_mem
    intro x y hx hy
    rw [isStale_iff_shifts revised single hx, isStale_iff_shifts revised single hy]
  have come : ((ps.filter shifts).map fun x => (Entry.ofStatus x.2).label.place) =
      ((ps.filter shifts).map fun x => x.1.place) ↔ ∀ x ∈ ps, explicit x.2 = x.2 := by
    rw [List.map_inj_left]
    refine ⟨fun same x hx => ?_, fun given x hx => ?_⟩
    · by_cases hs : shifts x = true
      · have placed := same x (List.mem_filter.2 ⟨hx, hs⟩)
        rw [place_label, toStatus_ofStatus, ← (revised x hx).place] at placed
        exact place_explicit_eq_iff.1 placed
      · exact explicit_of_not_shifts (revised x hx) (written x hx) (by simpa using hs)
    · have hx := (List.mem_filter.1 hx).1
      rw [place_label, toStatus_ofStatus, given x hx, (revised x hx).place]
  rw [places_takeOver_eq_iff h, last, stale, arrivals_of_revised h entries revised single,
    List.map_map]
  exact and_congr_right fun _ => come

end Revising

/-- What others stored is taken over without moving an entry, as long as it reads where it read
before. In general places stay in order exactly if the entries that are taken out are the last ones
and those that come in have their places. With no two entries of others about one thing, these are
the entries that come to read, or cease to: places stay in order exactly if no other entry follows
them, and what reads gives group and kind. -/
theorem Reachable.keepsPlaces_iff {r : Register} (h : r.Reachable) {ours : ControllerName}
    {status : StatusByAncestor}
    (revised : List.Forall₂ (AncestorStatus.Revised ours) r.toStatus.ancestors status.ancestors) :
    ((∀ x ∈ r.toStatus.ancestors.zip status.ancestors, shifts x = false) →
      (r.takeOver ours status).2.places = r.places) ∧
    ((r.takeOver ours status).2.places = r.places ↔
      r.entries.Pairwise (fun e f =>
        isStale ours status.ancestors e = true → isStale ours status.ancestors f = true) ∧
      (r.arrivals ours status.ancestors).map Label.place =
        (r.entries.filter (isStale ours status.ancestors)).map (Label.place ∘ label)) ∧
    (SingleOthers ours r.toStatus.ancestors →
      ((r.takeOver ours status).2.places = r.places ↔
        (r.toStatus.ancestors.zip status.ancestors).Pairwise
          (fun x y => shifts x = true → shifts y = true) ∧
        ∀ b ∈ status.ancestors, (known? b).isSome →
          b.ancestorRef.group.isSome ∧ b.ancestorRef.kind.isSome)) := by
  have resumable := h.resumable
  obtain ⟨length, pairs⟩ := List.forall₂_iff_zip.1 revised
  have before : (r.toStatus.ancestors.zip status.ancestors).map Prod.fst = r.toStatus.ancestors :=
    List.map_fst_zip (Nat.le_of_eq length)
  have after : (r.toStatus.ancestors.zip status.ancestors).map Prod.snd = status.ancestors :=
    List.map_snd_zip (Nat.le_of_eq length.symm)
  have entries : r.entries =
      (r.toStatus.ancestors.zip status.ancestors).map fun x => Entry.ofStatus x.1 := by
    calc r.entries = r.toStatus.ancestors.map Entry.ofStatus :=
          (map_ofStatus_toStatus resumable.faithful).symm
      _ = _ := by
        conv_lhs => rw [← before]
        exact List.map_map
  have revised' : ∀ x ∈ r.toStatus.ancestors.zip status.ancestors,
      AncestorStatus.Revised ours x.1 x.2 := fun _ hx => pairs hx
  have written : ∀ x ∈ r.toStatus.ancestors.zip status.ancestors, explicit x.1 = x.1 := by
    intro x hx
    obtain ⟨e, he, heq⟩ := List.mem_map.1 (List.of_mem_zip hx).1
    rw [← heq, ← toStatus_ofStatus, ofStatus_toStatus (resumable.faithful e he)]
  obtain ⟨seen⟩ := status
  refine ⟨fun none => ?_, places_takeOver_eq_iff resumable.sound ours seen, fun single => ?_⟩
  · have same := places_of_none_shift resumable.sound entries revised' none
    rwa [after] at same
  · have same := places_takeOver_eq_iff_of_single resumable.sound entries written revised'
      (before.symm ▸ single)
    rw [after] at same
    rw [same, ← List.forall_mem_map (f := Prod.snd) (P := fun b => explicit b = b), after]
    simp only [explicit_eq_self_iff]

namespace Sample

/-- The list of the loaded register, with new conditions in the entry of `mesh`. -/
def revisedStatus (conditions : List StoredCondition) : StatusByAncestor where
  ancestors :=
    [⟨⟨some gatewayGroup, some "Gateway", none, "g", none, none⟩, "example.net/mesh", conditions⟩,
      ⟨⟨none, none, none, "g", none, none⟩, "example.net/gateway",
        [⟨"Accepted", "Maybe", "", "", ⟨0, 0⟩, none⟩]⟩]

/-- An entry that reads and gets conditions that read stays in its place. -/
theorem keepsPlaces_stored : ∃ r, ofStatus storedStatus = .ok r ∧
    (r.takeOver gateway (revisedStatus [ready])).2.places = r.places ∧
    (r.takeOver gateway (revisedStatus [ready])).2.toStatus ≠ r.toStatus := by
  have loaded : ofStatus storedStatus =
      .ok ((storedStatus.ancestors.map Entry.ofStatus).foldl push empty) := rfl
  have revised : List.Forall₂ (AncestorStatus.Revised gateway)
      (toStatus ((storedStatus.ancestors.map Entry.ofStatus).foldl push empty)).ancestors
      (revisedStatus [ready]).ancestors := by decide
  obtain ⟨kept, -⟩ := Reachable.keepsPlaces_iff (.loaded storedStatus loaded) revised
  exact ⟨_, loaded, kept (by decide), by decide +kernel⟩

/-- With a condition of an unknown status, the entry moves behind the one that followed it. -/
theorem not_keepsPlaces : ∃ r, ofStatus storedStatus = .ok r ∧ r.Reachable ∧
    List.Forall₂ (AncestorStatus.Revised gateway) r.toStatus.ancestors
      (revisedStatus [{ ready with status := "Maybe" }]).ancestors ∧
    (r.takeOver gateway (revisedStatus [{ ready with status := "Maybe" }])).2.places ≠ r.places := by
  have loaded : ofStatus storedStatus =
      .ok ((storedStatus.ancestors.map Entry.ofStatus).foldl push empty) := rfl
  exact ⟨_, loaded, .loaded storedStatus loaded, by decide, by decide +kernel⟩

end Sample

end Register

end PolicyAttachment
