import PolicyAttachment.Proofs.Register.Mirror
import PolicyAttachment.Proofs.Register.Resume
import PolicyAttachment.Proofs.Register.Search
import Mathlib.Data.List.Induction

/-!
# Loading a stored status

What a register is loaded from is written back entry by entry, each as it was, except that an entry
that reads gets the group and kind it leaves out: `Register.toStatus_of_ofStatus`. Taking over the
very status that a register was loaded from changes nothing, unless two entries of another
controller are at odds: neither reads, both are about one ancestor, and they say different things.
The first of such entries is then overwritten with the last: `Register.takeOver_of_ofStatus`.
-/

namespace PolicyAttachment
set_option autoImplicit false

namespace Entry

section Explicit

/-- A stored entry with group and kind given, if it reads. -/
def explicit (a : AncestorStatus) : AncestorStatus :=
  if (known? a).isSome then
    { a with
      ancestorRef :=
        { a.ancestorRef with
          group := some (a.ancestorRef.group.getD gatewayGroup)
          kind := some (a.ancestorRef.kind.getD "Gateway") } }
  else a

/-- Reading and writing back fills in the group and the kind. -/
theorem toStatus_ofStatus (a : AncestorStatus) : (ofStatus a).toStatus = explicit a := by
  unfold ofStatus explicit
  cases hk : known? a with
  | none => rfl
  | some e =>
    obtain ⟨controller, cs, rfl, htext, hcs⟩ := exists_of_known? hk
    simp only [Option.getD_some, toStatus, htext, hcs, Option.isSome_some, if_true]
    rfl

/-- An entry stays as it is exactly if it does not read, or has a group and a kind already. -/
theorem explicit_eq_self_iff {a : AncestorStatus} :
    explicit a = a ↔
      ((known? a).isSome → a.ancestorRef.group.isSome ∧ a.ancestorRef.kind.isSome) := by
  obtain ⟨⟨group, kind, ns, name, sectionName, port⟩, controllerName, conditions⟩ := a
  unfold explicit
  split
  · rename_i reads
    cases group <;> cases kind <;> simp [reads]
  · rename_i reads
    simp [reads]

end Explicit

section Adopting

/-- Whether the entry `e` at `i` is the first one about what it is about. -/
def IsFirst (es : List Entry) (i : Nat) (e : Entry) : Prop := (es.map label).idxOf? e.label = some i

instance (es : List Entry) (i : Nat) (e : Entry) : Decidable (IsFirst es i e) :=
  inferInstanceAs (Decidable (_ = _))

/-- The entry as the last of `fs` that describes the same has it. -/
def latest (fs : List Entry) (e : Entry) : Entry :=
  ((fs.filter fun f => f.label = e.label).getLast?).getD e

/-- Entries with the first one of each description brought up to date with the last of `fs`. -/
def refreshed (fs es : List Entry) : List Entry :=
  es.mapIdx fun i e => if IsFirst es i e then latest fs e else e

theorem latest_nil (e : Entry) : latest [] e = e := rfl

theorem latest_append_singleton (fs : List Entry) (f e : Entry) :
    latest (fs ++ [f]) e = if f.label = e.label then f else latest fs e := by
  unfold latest
  by_cases hl : f.label = e.label <;> simp [List.filter_append, hl]

theorem label_latest (fs : List Entry) (e : Entry) : (latest fs e).label = e.label := by
  unfold latest
  cases hf : (fs.filter fun f => f.label = e.label).getLast? with
  | none => rfl
  | some f => simpa using (List.mem_filter.1 (List.mem_of_getLast? hf)).2

/-- Only the first entry of a label is refreshed. -/
theorem getElem?_refreshed (fs es : List Entry) (i : Nat) :
    (refreshed fs es)[i]? = es[i]?.map fun e => if IsFirst es i e then latest fs e else e :=
  List.getElem?_mapIdx

theorem map_label_refreshed (fs es : List Entry) :
    (refreshed fs es).map label = es.map label := by
  apply List.ext_getElem?
  intro i
  rw [List.getElem?_map, List.getElem?_map, getElem?_refreshed, Option.map_map]
  congr 1
  funext e
  rw [Function.comp]
  split
  · exact label_latest fs e
  · rfl

/-- The search for an entry is one for its label. -/
theorem findIdx?_describesSame (es : List Entry) (f : Entry) :
    es.findIdx? (·.describesSame f) = (es.map label).idxOf? f.label := by
  rw [List.idxOf?, List.findIdx?_map]
  congr 1
  funext e
  rw [Function.comp, Bool.eq_iff_iff, describesSame_iff, beq_iff_eq]

/-- Adopting entries that are all described already: only the first of each description changes, and
the last entry adopted for it counts. -/
theorem foldl_adoptInto_of_described {es fs : List Entry}
    (h : ∀ f ∈ fs, f.label ∈ es.map label) : fs.foldl adoptInto es = refreshed fs es := by
  induction fs using List.reverseRecOn with
  | nil =>
    apply List.ext_getElem?
    intro j
    rw [List.foldl_nil, getElem?_refreshed]
    simp [latest_nil]
  | append_singleton fs f ih =>
    have hfs := ih fun g hg => h g (List.mem_append_left _ hg)
    obtain ⟨i, hi⟩ : ∃ i, (es.map label).idxOf? f.label = some i :=
      Option.isSome_iff_exists.1 (List.isSome_idxOf?.2 (h f (by simp)))
    have adopted : adoptInto (refreshed fs es) f = (refreshed fs es).set i f := by
      rw [adoptInto, findIdx?_describesSame, map_label_refreshed, hi]
    obtain ⟨hlt, hlabel, -⟩ := List.idxOf?_eq_some_iff.1 hi
    rw [List.length_map] at hlt
    rw [List.getElem_map] at hlabel
    rw [List.foldl_append, List.foldl_cons, List.foldl_nil, hfs, adopted]
    apply List.ext_getElem?
    intro j
    rw [List.getElem?_set, getElem?_refreshed, getElem?_refreshed]
    by_cases hj : i = j
    · subst hj
      have first : IsFirst es i es[i] := by rwa [IsFirst, hlabel]
      have inRange : i < (refreshed fs es).length := by rwa [refreshed, List.length_mapIdx]
      rw [if_pos rfl, if_pos inRange, List.getElem?_eq_getElem hlt, Option.map_some, if_pos first,
        latest_append_singleton, if_pos hlabel.symm]
    · rw [if_neg hj]
      congr 1
      funext e
      split
      · rename_i first
        have other : f.label ≠ e.label := by
          intro hl
          rw [IsFirst, ← hl, hi] at first
          exact hj (Option.some.inj first)
        rw [latest_append_singleton, if_neg other]
      · rfl

end Adopting

section Odds

variable {a b : AncestorStatus}

theorem ofStatus_of_unread (h : known? a = none) : ofStatus a = verbatim a := by
  rw [ofStatus, h, Option.getD_none]

/-- Both stored entries do not read, and they say different things of one ancestor for one writer. -/
structure AtOdds (a b : AncestorStatus) : Prop where
  unread : known? a = none ∧ known? b = none
  writer : a.controllerName = b.controllerName
  ref : a.ancestorRef = b.ancestorRef
  differ : a ≠ b

instance (a b : AncestorStatus) : Decidable (AtOdds a b) :=
  decidable_of_iff ((known? a = none ∧ known? b = none) ∧ a.controllerName = b.controllerName ∧
    a.ancestorRef = b.ancestorRef ∧ a ≠ b)
    ⟨fun h => ⟨h.1, h.2.1, h.2.2.1, h.2.2.2⟩, fun h => ⟨h.1, h.2, h.3, h.4⟩⟩

theorem AtOdds.label (h : AtOdds a b) : (ofStatus a).label = (ofStatus b).label := by
  rw [ofStatus_of_unread h.unread.1, ofStatus_of_unread h.unread.2, Entry.label, Entry.label,
    h.writer, h.ref]

theorem AtOdds.ofStatus_ne (h : AtOdds a b) : ofStatus a ≠ ofStatus b := by
  rw [ofStatus_of_unread h.unread.1, ofStatus_of_unread h.unread.2]
  exact fun same => h.differ (Entry.verbatim.inj same)

end Odds

end Entry

namespace Register

open Entry

/-- What is written for a loaded register are the stored entries in their order, with group and kind
given where an entry reads; so it is the stored status itself exactly if those that read give both. -/
theorem toStatus_of_ofStatus {status : StatusByAncestor} {r : Register}
    (h : ofStatus status = .ok r) :
    r.toStatus.ancestors = status.ancestors.map explicit ∧
      (r.toStatus = status ↔ ∀ a ∈ status.ancestors, (known? a).isSome →
        a.ancestorRef.group.isSome ∧ a.ancestorRef.kind.isSome) := by
  have ancestors : r.toStatus.ancestors = status.ancestors.map explicit := by
    rw [toStatus, (ofEntries_sound h).1, List.map_map]
    exact List.map_congr_left fun a _ => toStatus_ofStatus a
  refine ⟨ancestors, ?_⟩
  calc r.toStatus = status
      ↔ status.ancestors.map explicit = status.ancestors.map id := by
        rw [← ancestors, List.map_id]
        obtain ⟨l⟩ := status
        exact StatusByAncestor.mk.injEq .. ▸ Iff.rfl
    _ ↔ ∀ a ∈ status.ancestors, explicit a = a := List.map_inj_left
    _ ↔ _ := forall₂_congr fun a _ => explicit_eq_self_iff

namespace Sample

/-- Of the two entries the one that reads is written with the group and kind of a Gateway. -/
theorem toStatus_stored :
    ∃ r, ofStatus storedStatus = .ok r ∧ r.toStatus.ancestors =
      [⟨⟨some gatewayGroup, some "Gateway", none, "g", none, none⟩, "example.net/mesh", []⟩,
        ⟨⟨none, none, none, "g", none, none⟩, "example.net/gateway",
          [⟨"Accepted", "Maybe", "", "", ⟨0, 0⟩, none⟩]⟩] := by
  have loaded : ofStatus storedStatus =
      .ok ((storedStatus.ancestors.map Entry.ofStatus).foldl push empty) := rfl
  refine ⟨_, loaded, (toStatus_of_ofStatus loaded).1.trans ?_⟩
  decide

/-- What is written for a loaded register is not always what it was loaded from. -/
theorem toStatus_stored_ne : ∃ r, ofStatus storedStatus = .ok r ∧ r.toStatus ≠ storedStatus := by
  have loaded : ofStatus storedStatus =
      .ok ((storedStatus.ancestors.map Entry.ofStatus).foldl push empty) := rfl
  exact ⟨_, loaded, by decide⟩

end Sample

section Again

variable {r : Register} {ours : ControllerName}

/-- Adopting an entry changes nothing exactly if it is the first entry about what it is about. -/
theorem Sound.adopt_fst_eq_false_iff (h : r.Sound) {changed : Bool} {f : Entry}
    (described : f.label ∈ r.entries.map label) :
    (Register.adopt (changed, r) f).1 = false ↔
      changed = false ∧ r.entries.find? (·.describesSame f) = some f := by
  obtain ⟨i, hi⟩ := Option.isSome_iff_exists.1 (List.isSome_idxOf?.2 described)
  rw [← findIdx?_describesSame] at hi
  have found : r.entries.find? (·.describesSame f) = r.entries[i]? := by
    rw [List.find?_eq_getElem?_findIdx, (List.findIdx?_eq_some_iff_findIdx_eq.1 hi).2]
  rw [h.adopt_eq, hi, found]
  by_cases same : r.entries[i]? = some f <;> simp [same]

/-- Adopting entries that are all described already changes nothing exactly if each is the first of
its description. The note of a change is never taken back, so it has to be missing after every
single one. -/
theorem Sound.foldl_adopt_fst_eq_false_iff (h : r.Sound) {changed : Bool} {fs : List Entry}
    (described : ∀ f ∈ fs, f.label ∈ r.entries.map label) :
    (fs.foldl Register.adopt (changed, r)).1 = false ↔
      changed = false ∧ ∀ f ∈ fs, r.entries.find? (·.describesSame f) = some f := by
  induction fs generalizing changed with
  | nil => simp
  | cons f fs ih =>
    have hf := described f List.mem_cons_self
    have hfs := fun g hg => described g (List.mem_cons_of_mem f hg)
    obtain ⟨sound, -, same⟩ := h.adopt changed f
    have stays : (Register.adopt (changed, r) f).1 = false →
        Register.adopt (changed, r) f = (false, r) := fun first => Prod.ext first (same first).2
    rw [List.foldl_cons, List.forall_mem_cons, ← and_assoc, ← h.adopt_fst_eq_false_iff hf]
    constructor
    · intro unchanged
      obtain ⟨first, -⟩ := (sound.foldl_adopt (Register.adopt (changed, r) f).1 fs).2.2 unchanged
      rw [stays first] at unchanged
      exact ⟨first, ((ih hfs).1 unchanged).2⟩
    · rintro ⟨first, rest⟩
      rw [stays first]
      exact (ih hfs).2 ⟨rfl, rest⟩

/-- With nothing stale, nothing is dropped. -/
theorem dropStale_of_none {stale : Entry → Bool} (h : ∀ e ∈ r.entries, stale e = false) (i : Nat)
    (changed : Bool) : r.dropStale stale i changed = (changed, r) := by
  fun_induction Register.dropStale stale r i changed with
  | case1 r i changed lt e he hs =>
    rw [h e (List.mem_of_getElem? he)] at hs
    cases hs
  | case2 r i changed lt e he hs ih => exact ih h
  | case3 => rfl
  | case4 => rfl

/-- Where everything the register has of others is still seen, all that is seen is adopted and nothing
else happens. -/
theorem mergeForeign_of_covered {seen : List Entry} (covered : ∀ e ∈ foreign ours r.entries,
    ∃ f ∈ foreign ours seen, f.describesSame e = true) :
    r.mergeForeign ours seen = (foreign ours seen).foldl Register.adopt (false, r) := by
  have noneStale : ∀ e ∈ r.entries,
      (e.isByOther ours && !(foreign ours seen).any (·.describesSame e)) = false := by
    intro e he
    rw [Bool.and_eq_false_imp]
    intro other
    rw [Bool.not_eq_false', List.any_eq_true]
    exact covered e (mem_foreign_iff.2 ⟨he, other⟩)
  have nothing := dropStale_of_none noneStale 0 false
  unfold foreign at nothing ⊢
  simp only [mergeForeign, nothing]

/-- A register has two entries about one thing only if they do not read. -/
theorem Sound.atOdds (h : r.Sound) {a b : AncestorStatus} (ha : Entry.ofStatus a ∈ r.entries)
    (hb : Entry.ofStatus b ∈ r.entries)
    (same : (Entry.ofStatus a).label = (Entry.ofStatus b).label)
    (differ : Entry.ofStatus a ≠ Entry.ofStatus b) : AtOdds a b := by
  rcases ofStatus_cases a with ⟨controller, cs, known, -⟩ | ⟨unread, verbatim⟩
  · rw [known] at same ha differ
    obtain ⟨c, hc⟩ := key?_eq_some_iff.1 (key?_of_label same.symm)
    rw [hc] at hb differ
    exact absurd (congrArg _ (h.known_unique ha hb)) differ
  · rcases ofStatus_cases b with ⟨controller, cs, known, -⟩ | ⟨unread', verbatim'⟩
    · rw [known, verbatim] at same
      cases same
    · rw [verbatim, verbatim', label, label, Label.verbatim.injEq] at same
      exact ⟨⟨unread, unread'⟩, same.1, same.2, fun heq => differ (congrArg _ heq)⟩

/-- Each entry of others is the first about what it is about, exactly if none is at odds with
another: of two that are about the same, the search for either finds the first. -/
theorem Sound.forall_find?_eq_self_iff (h : r.Sound) {l : List AncestorStatus}
    (entries : r.entries = l.map Entry.ofStatus) :
    (∀ f ∈ others ours l, r.entries.find? (·.describesSame f) = some f) ↔
      ∀ a ∈ l, ∀ b ∈ l, a.controllerName ≠ ours.text → ¬ AtOdds a b := by
  constructor
  · intro first a ha b hb other odds
    have foundA := first _ (mem_others_iff.2 ⟨a, ha, other, rfl⟩)
    have foundB := first _ (mem_others_iff.2 ⟨b, hb, odds.writer ▸ other, rfl⟩)
    have search : (fun e : Entry => e.describesSame (Entry.ofStatus a)) =
        (·.describesSame (Entry.ofStatus b)) := by
      funext e
      rw [Bool.eq_iff_iff, describesSame_iff, describesSame_iff, odds.label]
    rw [search, foundB] at foundA
    exact odds.ofStatus_ne (Option.some.inj foundA).symm
  · intro agree f hf
    obtain ⟨a, ha, other, rfl⟩ := mem_others_iff.1 hf
    have hmem : Entry.ofStatus a ∈ r.entries := entries ▸ List.mem_map_of_mem ha
    obtain ⟨g, hg⟩ : ∃ g, r.entries.find? (·.describesSame (Entry.ofStatus a)) = some g :=
      Option.isSome_iff_exists.1 (List.find?_isSome.2 ⟨_, hmem, describesSame_iff.2 rfl⟩)
    have found := List.mem_of_find?_eq_some hg
    obtain ⟨b, hb, rfl⟩ := List.mem_map.1 (entries ▸ found)
    have accepted := List.find?_some hg
    have same := describesSame_iff.1 accepted
    rw [hg, Option.some.injEq]
    by_contra differ
    exact agree a ha b hb other (h.atOdds hmem found same.symm fun heq => differ heq.symm)

end Again

/-- Taking over the status that a register was loaded from answers that nothing changed exactly if no
two entries of another controller are at odds, and then nothing did. In any case every entry stays in
its place as it is, but for the first of those of others about one thing, which becomes the last of
them. -/
theorem takeOver_of_ofStatus {status : StatusByAncestor} {r : Register}
    (h : ofStatus status = .ok r) (ours : ControllerName) :
    ((r.takeOver ours status).1 = false ↔ ∀ a ∈ status.ancestors, ∀ b ∈ status.ancestors,
      a.controllerName ≠ ours.text → ¬ AtOdds a b) ∧
    ((r.takeOver ours status).1 = false → (r.takeOver ours status).2 = r) ∧
    (r.takeOver ours status).2.entries = refreshed (foreign ours r.entries) r.entries := by
  obtain ⟨entries, sound⟩ := ofEntries_sound h
  have own : others ours status.ancestors = foreign ours r.entries := by rw [others, entries]
  have described : ∀ f ∈ foreign ours r.entries, f.label ∈ r.entries.map label :=
    fun f hf => List.mem_map_of_mem (mem_foreign_iff.1 hf).1
  have seen := (foreign_filter_others status.ancestors).trans own
  have adopted : r.takeOver ours status =
      (foreign ours r.entries).foldl Register.adopt (false, r) := by
    rw [takeOver, mergeForeign_of_covered, seen]
    exact fun e he => ⟨e, seen ▸ he, describesSame_iff.2 rfl⟩
  obtain ⟨-, after, unchanged⟩ := sound.foldl_adopt false (foreign ours r.entries)
  rw [adopted, after, foldl_adoptInto_of_described described]
  refine ⟨?_, fun flag => (unchanged flag).2, rfl⟩
  calc ((foreign ours r.entries).foldl Register.adopt (false, r)).1 = false
      ↔ ∀ f ∈ foreign ours r.entries, r.entries.find? (·.describesSame f) = some f := by
        rw [sound.foldl_adopt_fst_eq_false_iff described, eq_self, true_and]
    _ ↔ _ := by
        rw [← own]
        exact sound.forall_find?_eq_self_iff entries

namespace Sample

/-- An entry of another controller whose name does not read. -/
def unreadOf (conditions : List StoredCondition) : AncestorStatus :=
  ⟨⟨none, none, none, "g", none, none⟩, "Example.NET/mesh", conditions⟩

def ready : StoredCondition := ⟨"Ready", "True", "", "", ⟨0, 0⟩, none⟩

/-- Two entries at odds, and between them one of ours. -/
def crossed : StatusByAncestor where
  ancestors :=
    [unreadOf [], ⟨⟨some gatewayGroup, some "Gateway", none, "g", none, none⟩, gateway.text,
      [ready]⟩, unreadOf [ready]]

/-- With none at odds nothing changes; otherwise the first one becomes the last. -/
theorem takeOver_stored :
    (∃ r, ofStatus storedStatus = .ok r ∧ r.takeOver gateway storedStatus = (false, r)) ∧
    ∃ r, ofStatus crossed = .ok r ∧ (r.takeOver gateway crossed).2.entries.map Entry.toStatus =
      [unreadOf [ready], ⟨⟨some gatewayGroup, some "Gateway", none, "g", none, none⟩, gateway.text,
        [ready]⟩, unreadOf [ready]] := by
  have loaded : ofStatus storedStatus =
      .ok ((storedStatus.ancestors.map Entry.ofStatus).foldl push empty) := rfl
  have loaded' : ofStatus crossed =
      .ok ((crossed.ancestors.map Entry.ofStatus).foldl push empty) := rfl
  obtain ⟨answer, unchanged, -⟩ := takeOver_of_ofStatus loaded gateway
  have agree := answer.2 (by decide)
  refine ⟨⟨_, loaded, Prod.ext agree (unchanged agree)⟩, _, loaded', ?_⟩
  rw [(takeOver_of_ofStatus loaded' gateway).2.2]
  decide

/-- Seeing again what a register was loaded from can change it. -/
theorem takeOver_crossed_ne : ∃ r, ofStatus crossed = .ok r ∧
    (r.takeOver gateway crossed).1 = true ∧
    (r.takeOver gateway crossed).2.toStatus ≠ r.toStatus := by
  have loaded : ofStatus crossed =
      .ok ((crossed.ancestors.map Entry.ofStatus).foldl push empty) := rfl
  exact ⟨_, loaded, by decide +kernel, by decide +kernel⟩

end Sample

end Register
end PolicyAttachment
