import PolicyAttachment.Tracker.Pass
import PolicyAttachment.Proofs.Register.Foreign

/-!
# Recording a policy's reports

A review records one report per ancestor and then takes out our entries for all other ancestors.
`Recording` is what the first part makes of a register, `Reviewed` what both make of it: an ancestor is
left out only while the register is full, and what was to be taken out still counted then.
-/

namespace PolicyAttachment
set_option autoImplicit false

/-- Both conditions say the same, perhaps since different times. -/
structure Condition.SaysSame (c d : Condition) : Prop where
  type : c.type = d.type
  status : c.status = d.status
  reason : c.reason = d.reason
  message : c.message = d.message
  generation : c.generation = d.generation

theorem Condition.saysSame_refl (c : Condition) : c.SaysSame c := ⟨rfl, rfl, rfl, rfl, rfl⟩

theorem Condition.SaysSame.trans {c d e : Condition} (h : c.SaysSame d) (h' : d.SaysSame e) :
    c.SaysSame e :=
  ⟨h.type.trans h'.type, h.status.trans h'.status, h.reason.trans h'.reason,
    h.message.trans h'.message, h.generation.trans h'.generation⟩

namespace ConditionSet

/-- A condition is the only one of its type. -/
theorem filter_type {s : ConditionSet} {c : Condition} (h : c ∈ s.conditions) :
    (s.conditions.filter fun d => d.type = c.type) = [c] := by
  have distinct := s.distinct
  revert h distinct
  induction s.conditions with
  | nil =>
    intro h
    cases h
  | cons d ds ih =>
    intro h distinct
    obtain ⟨fresh, distinct⟩ := List.nodup_cons.1 distinct
    rcases List.mem_cons.1 h with rfl | h
    · rw [List.filter_cons_of_pos (by simp), List.filter_eq_nil_iff.2]
      intro d hd
      simp only [decide_eq_true_eq]
      exact fun heq => fresh (heq ▸ List.mem_map_of_mem hd)
    · rw [List.filter_cons_of_neg, ih h distinct]
      simp only [decide_eq_true_eq]
      exact fun heq => fresh (heq ▸ List.mem_map_of_mem h)

theorem get?_of_mem {s : ConditionSet} {c : Condition} (h : c ∈ s.conditions) :
    s.get? c.type = some c := by
  have only : (s.conditions.filter fun d => d.type == c.type) = [c] := filter_type h
  rw [get?, ← List.head?_filter, only, List.head?_cons]

/-- Looking up a type finds the condition of the set that has it. -/
theorem get?_eq_some_iff {s : ConditionSet} {type : String} {c : Condition} :
    s.get? type = some c ↔ c ∈ s.conditions ∧ c.type = type := by
  constructor
  · intro h
    exact ⟨List.mem_of_find?_eq_some h, by simpa using List.find?_some h⟩
  · rintro ⟨h, rfl⟩
    exact get?_of_mem h

/-- The set with a single condition. -/
def single (c : Condition) : ConditionSet := ⟨[c], by simp, by simp [maxConditions]⟩

/-- The set has a single condition, and it says what `c` says. -/
def SaysOnly (s : ConditionSet) (c : Condition) : Prop := ∃ d, s.conditions = [d] ∧ d.SaysSame c

theorem insert_empty (c : Condition) (overflow : OverflowRule) :
    empty.insert c overflow = .ok (single c) := by
  have absent : c.type ∉ empty.types := by simp [empty, types]
  have room : empty.size < maxConditions := by simp [empty, size, maxConditions]
  rw [insert, dif_neg absent, dif_pos room]
  exact congrArg Except.ok (ext_conditions rfl)

theorem saysOnly_single (c : Condition) : (single c).SaysOnly c := ⟨c, rfl, c.saysSame_refl⟩

/-- Inheriting times changes nothing that is said. -/
theorem exists_inheritTimes (s previous : ConditionSet) :
    ∃ f : Condition → Condition, (∀ c, (f c).SaysSame c) ∧
      (s.inheritTimes previous).conditions = s.conditions.map f := by
  refine ⟨_, ?_, rfl⟩
  intro c
  split
  · split <;> exact ⟨rfl, rfl, rfl, rfl, rfl⟩
  · exact c.saysSame_refl

/-- Inheriting a time does not change what is said. -/
theorem saysOnly_inheritTimes (c : Condition) (previous : ConditionSet) :
    ((single c).inheritTimes previous).SaysOnly c := by
  obtain ⟨f, same, conditions⟩ := exists_inheritTimes (single c) previous
  exact ⟨f c, conditions, same c⟩

/-- A list is made into the one it is paired with by a function that does so with every pair. -/
theorem map_eq_of_forall₂ {α β : Type} {R : α → β → Prop} {f : β → α} {as : List α} {bs : List β}
    (h : List.Forall₂ R as bs) (pair : ∀ a ∈ as, ∀ b, R a b → f b = a) : bs.map f = as := by
  induction h with
  | nil => rfl
  | @cons a b as bs hab _ ih =>
    rw [List.map_cons, pair a List.mem_cons_self b hab,
      ih fun c hc => pair c (List.mem_cons_of_mem a hc)]

/-- A set that says what the previous one says becomes the previous one: each condition finds its own
status there, and takes over its time. -/
theorem inheritTimes_eq_previous {s previous : ConditionSet}
    (same : List.Forall₂ Condition.SaysSame previous.conditions s.conditions) :
    s.inheritTimes previous = previous := by
  refine ext_conditions (map_eq_of_forall₂ same fun c hc d alike => ?_)
  have found : previous.get? d.type = some c := by
    rw [← alike.type, get?_of_mem hc]
  have taken : { d with lastTransition := c.lastTransition } = c := by
    rw [← alike.type, ← alike.status, ← alike.reason, ← alike.message, ← alike.generation]
  simp only [found, alike.status, if_true, taken]

/-- A set that says the same already is inherited as it is. -/
theorem SaysOnly.inheritTimes {previous : ConditionSet} {c : Condition} (h : previous.SaysOnly c) :
    (single c).inheritTimes previous = previous := by
  obtain ⟨d, hd, same⟩ := h
  apply inheritTimes_eq_previous
  rw [hd]
  exact .cons same .nil

end ConditionSet

namespace Entry

/-- The ancestor of a known entry of `ours`. -/
def ancestorOf? (ours : ControllerName) (e : Entry) : Option AncestorRef :=
  (e.key?.filter fun key => key.controller = ours).map EntryKey.ancestor

/-- An entry is about an ancestor for a controller if its key is made up of the two. -/
theorem ancestorOf?_eq_some_iff {ours : ControllerName} {e : Entry} {a : AncestorRef} :
    e.ancestorOf? ours = some a ↔ e.key? = some ⟨a, ours⟩ := by
  cases e with
  | verbatim v => simp [ancestorOf?]
  | known key cs =>
    obtain ⟨b, controller⟩ := key
    by_cases hc : controller = ours
    · simp [ancestorOf?, Option.filter, hc]
    · simp [ancestorOf?, Option.filter, hc]

theorem ancestorOf?_revise (ours : ControllerName) (key : EntryKey) (cs : ConditionSet)
    (e : Entry) : (e.revise key cs).ancestorOf? ours = e.ancestorOf? ours := by
  rw [ancestorOf?, ancestorOf?, key?_revise]

theorem label_revise (key : EntryKey) (cs : ConditionSet) (e : Entry) :
    (e.revise key cs).label = e.label := by
  unfold revise
  split
  · rename_i h
    obtain ⟨c, rfl⟩ := key?_eq_some_iff.1 h
    rfl
  · rfl

/-- Revising a key changes what is recorded for it and nothing else. -/
theorem known_mem_map_revise_iff {es : List Entry} {key other : EntryKey} {cs c : ConditionSet} :
    .known other c ∈ es.map (revise key cs) ↔
      (other = key ∧ c = cs ∧ ∃ old, .known key old ∈ es) ∨ other ≠ key ∧ .known other c ∈ es := by
  rw [List.mem_map]
  constructor
  · rintro ⟨e, he, heq⟩
    unfold revise at heq
    split at heq
    · rename_i hk
      obtain ⟨old, rfl⟩ := key?_eq_some_iff.1 hk
      cases heq
      exact .inl ⟨rfl, rfl, old, he⟩
    · rename_i hk
      subst heq
      exact .inr ⟨fun h => hk (congrArg some h), he⟩
  · rintro (⟨rfl, rfl, old, he⟩ | ⟨hne, he⟩)
    · exact ⟨_, he, by simp [revise]⟩
    · exact ⟨_, he, by simp [revise, hne]⟩

/-- The stored entry that is kept verbatim. -/
def verbatim? : Entry → Option AncestorStatus
  | known _ _ => none
  | verbatim v => some v

/-- The stored entries that are kept verbatim. -/
def unread (es : List Entry) : List AncestorStatus := es.filterMap verbatim?

theorem mem_unread_iff {es : List Entry} {v : AncestorStatus} : v ∈ unread es ↔ verbatim v ∈ es := by
  rw [unread, List.mem_filterMap]
  constructor
  · rintro ⟨e, he, hv⟩
    cases e with
    | known key cs => cases hv
    | verbatim w =>
      cases hv
      exact he
  · exact fun h => ⟨_, h, rfl⟩

theorem unread_append_known (es : List Entry) (key : EntryKey) (cs : ConditionSet) :
    unread (es ++ [known key cs]) = unread es := by
  rw [unread, List.filterMap_append]
  exact List.append_nil _

theorem unread_map_revise (key : EntryKey) (cs : ConditionSet) (es : List Entry) :
    unread (es.map (revise key cs)) = unread es := by
  rw [unread, List.filterMap_map]
  apply List.filterMap_congr
  intro e _
  cases e with
  | verbatim v => rfl
  | known k c =>
    rw [Function.comp, revise]
    split <;> rfl

/-- Taking out known entries leaves the others alone. -/
theorem unread_filter {p : Entry → Bool} (h : ∀ v, p (verbatim v) = true) (es : List Entry) :
    unread (es.filter p) = unread es := by
  rw [unread, List.filterMap_filter]
  apply List.filterMap_congr
  intro e _
  cases e with
  | verbatim v => rw [if_pos (h v)]
  | known key cs => exact ite_self _

/-- Revising the entry of a key leaves alone whatever does not select it. -/
theorem filter_map_revise {key : EntryKey} {p : Entry → Bool} (h : ∀ cs, p (known key cs) = false)
    (cs : ConditionSet) (es : List Entry) : (es.map (revise key cs)).filter p = es.filter p := by
  induction es with
  | nil => rfl
  | cons e es ih =>
    rw [List.map_cons, List.filter_cons, List.filter_cons, ih, revise]
    split
    · rename_i hk
      obtain ⟨old, rfl⟩ := key?_eq_some_iff.1 hk
      rw [h, h]
      rfl
    · rfl

/-- Revising an entry of ours leaves those of others alone. -/
theorem foreign_map_revise {ours : ControllerName} (key : EntryKey) (hkey : key.controller = ours)
    (cs : ConditionSet) (es : List Entry) :
    foreign ours (es.map (revise key cs)) = foreign ours es := by
  subst hkey
  exact filter_map_revise (isByOther_known_self key.ancestor key.controller) cs es

/-- Only entries of its own have an ancestor that a controller reported on. -/
theorem ancestorOf?_of_isByOther {ours : ControllerName} {e : Entry} (h : e.isByOther ours = true) :
    e.ancestorOf? ours = none := by
  rw [Option.eq_none_iff_forall_ne_some]
  intro a ha
  obtain ⟨cs, rfl⟩ := key?_eq_some_iff.1 (ancestorOf?_eq_some_iff.1 ha)
  rw [isByOther_known_self] at h
  cases h

/-- Filtering by our ancestors leaves the entries of others alone. -/
theorem foreign_filter_ancestorOf? {ours : ControllerName} {p : Option AncestorRef → Bool}
    (h : p none = true) (es : List Entry) :
    foreign ours (es.filter fun e => p (e.ancestorOf? ours)) = foreign ours es := by
  rw [foreign, foreign, List.filter_filter]
  apply List.filter_congr
  intro e _
  cases hother : e.isByOther ours with
  | false => rw [Bool.false_and]
  | true => rw [ancestorOf?_of_isByOther hother, h, Bool.true_and]

end Entry

namespace Register

open Entry

/-- What was put in is there, in the place of the entry of its key or else at the end. -/
theorem Sound.of_put {r r' : Register} (h : r.Sound) {key : EntryKey} {cs : ConditionSet}
    {how : Recorded} (ok : r.put key cs = .ok (how, r')) :
    r'.Sound ∧ .known key cs ∈ r'.entries ∧
      (r'.entries = r.entries.map (revise key cs) ∨ r'.entries = r.entries ++ [.known key cs]) := by
  rcases h.put_cases key cs with ⟨old, how', s, hold, hs, sound, entries, -⟩ | ⟨-, -, hs, sound⟩ |
    ⟨-, -, hs⟩
  · rw [hs] at ok
    cases ok
    refine ⟨sound, ?_, .inl entries⟩
    rw [entries]
    exact known_mem_map_revise_iff.2 (.inl ⟨rfl, rfl, old, hold⟩)
  · rw [hs] at ok
    cases ok
    exact ⟨sound, List.mem_append_right _ (List.mem_singleton_self _), .inr rfl⟩
  · rw [hs] at ok
    cases ok

/-- The conditions that come to be recorded for `key`. -/
def carried (r : Register) (key : EntryKey) (cs : ConditionSet) : ConditionSet :=
  match r.get? key with
  | some previous => cs.inheritTimes previous
  | none => cs

/-- A report is recorded by putting in what it says, perhaps since other times. -/
theorem report_eq_ok_iff {r : Register} {controller : ControllerName} {ancestor : AncestorRef}
    {cs : ConditionSet} {out : Recorded × Register} :
    r.report controller ancestor cs = .ok out ↔
      r.put ⟨ancestor, controller⟩ (r.carried ⟨ancestor, controller⟩ cs) = .ok out := by
  rw [show r.report controller ancestor cs = (r.put ⟨ancestor, controller⟩
    (r.carried ⟨ancestor, controller⟩ cs)).mapError Unrecordable.mk from rfl]
  cases r.put ⟨ancestor, controller⟩ (r.carried ⟨ancestor, controller⟩ cs) <;>
    simp [Except.mapError]

section Withdrawing

variable {r : Register} {ours : ControllerName}

theorem ancestorsOf_eq (r : Register) (ours : ControllerName) :
    r.ancestorsOf ours = r.entries.filterMap (ancestorOf? ours) := by
  unfold ancestorsOf known
  rw [← List.filterMap_eq_filter, List.filterMap_filterMap, List.map_filterMap]
  apply List.filterMap_congr
  intro e _
  cases e with
  | verbatim v => rfl
  | known key cs =>
    by_cases hc : key.controller = ours <;> simp [ancestorOf?, Option.filter, Option.guard, hc]

/-- Each ancestor that we have an entry for is listed once. -/
theorem Sound.nodup_ancestorsOf (h : r.Sound) (ours : ControllerName) :
    (r.ancestorsOf ours).Nodup := by
  rw [ancestorsOf_eq, List.Nodup, List.pairwise_filterMap, List.pairwise_iff_getElem]
  intro i j hi hj hij a ha b hb hab
  subst hab
  obtain ⟨c, hc⟩ := key?_eq_some_iff.1 (ancestorOf?_eq_some_iff.1 ha)
  obtain ⟨d, hd⟩ := key?_eq_some_iff.1 (ancestorOf?_eq_some_iff.1 hb)
  have := h.position_unique (List.getElem?_eq_some_iff.2 ⟨hi, hc⟩)
    (List.getElem?_eq_some_iff.2 ⟨hj, hd⟩)
  omega

/-- Withdrawing takes out the entry of the key and keeps the register sound. -/
theorem Sound.withdraw (h : r.Sound) (controller : ControllerName) (a : AncestorRef) :
    (r.withdraw controller a).2.Sound ∧
    (r.withdraw controller a).2.entries =
      r.entries.filter fun e => e.ancestorOf? controller != some a := by
  have same : (fun e : Entry => e.ancestorOf? controller != some a) =
      fun e => e.key? != some ⟨a, controller⟩ := by
    funext e
    rw [Bool.eq_iff_iff, bne_iff_ne, bne_iff_ne]
    exact not_congr ancestorOf?_eq_some_iff
  unfold Register.withdraw
  rw [same]
  rcases h.extract?_eq ⟨a, controller⟩ with ⟨absent, he⟩ | ⟨cs, r', -, he, sound, entries⟩
  · rw [he]
    refine ⟨h, (List.filter_eq_self.2 ?_).symm⟩
    intro e hm
    rw [bne_iff_ne]
    intro hk
    obtain ⟨c, rfl⟩ := key?_eq_some_iff.1 hk
    exact absent c hm
  · rw [he]
    exact ⟨sound, entries⟩

theorem Sound.foldl_withdraw (h : r.Sound) (ours : ControllerName) (stale : List AncestorRef) :
    (stale.foldl (fun r a => (r.withdraw ours a).2) r).Sound ∧
    (stale.foldl (fun r a => (r.withdraw ours a).2) r).entries =
      r.entries.filter fun e => !(e.ancestorOf? ours).any stale.contains := by
  induction stale generalizing r with
  | nil =>
    refine ⟨h, (List.filter_eq_self.2 ?_).symm⟩
    intro e _
    cases e.ancestorOf? ours <;> rfl
  | cons a stale ih =>
    obtain ⟨sound, entries⟩ := h.withdraw ours a
    obtain ⟨sound', entries'⟩ := ih sound
    refine ⟨sound', ?_⟩
    rw [List.foldl_cons, entries', entries, List.filter_filter]
    congr 1
    funext e
    cases e.ancestorOf? ours with
    | none => rfl
    | some b =>
      rw [Bool.eq_iff_iff]
      simp [and_comm, bne_iff_ne]

/-- What is taken out are our entries for ancestors that are not kept, and nothing else. -/
theorem Sound.withdrawExcept (h : r.Sound) (ours : ControllerName) (keep : AncestorRef → Bool) :
    (r.withdrawExcept ours keep).2.Sound ∧
    (r.withdrawExcept ours keep).2.entries =
      r.entries.filter fun e => !(e.ancestorOf? ours).any fun a => !keep a := by
  obtain ⟨sound, entries⟩ := h.foldl_withdraw ours ((r.ancestorsOf ours).filter fun a => !keep a)
  refine ⟨sound, entries.trans ?_⟩
  apply List.filter_congr
  intro e he
  cases ha : e.ancestorOf? ours with
  | none => rfl
  | some a =>
    have : a ∈ r.ancestorsOf ours := by
      rw [ancestorsOf_eq, List.mem_filterMap]
      exact ⟨e, he, ha⟩
    simp [this]

/-- As many entries go as there are ancestors to take out. -/
theorem length_filter_add_length_stale (r : Register) (ours : ControllerName)
    (keep : AncestorRef → Bool) :
    (r.entries.filter fun e => !(e.ancestorOf? ours).any fun a => !keep a).length +
      ((r.ancestorsOf ours).filter fun a => !keep a).length = r.size := by
  rw [ancestorsOf_eq, size]
  induction r.entries with
  | nil => rfl
  | cons e es ih =>
    cases ha : e.ancestorOf? ours with
    | none =>
      rw [List.filterMap_cons_none ha, List.filter_cons_of_pos (by simp [ha]), List.length_cons,
        List.length_cons]
      omega
    | some a =>
      rw [List.filterMap_cons_some ha, List.length_cons]
      cases hk : keep a with
      | false =>
        rw [List.filter_cons_of_neg (by simp [ha, hk]), List.filter_cons_of_pos (by simp [hk]),
          List.length_cons]
        omega
      | true =>
        rw [List.filter_cons_of_pos (by simp [ha, hk]), List.filter_cons_of_neg (by simp [hk]),
          List.length_cons]
        omega

section Except

variable {ours : ControllerName} {keep : AncestorRef → Bool}

/-- Of our entries those that are to be kept stay, each as it was. -/
theorem Sound.known_mem_withdrawExcept_iff (h : r.Sound) {a : AncestorRef} {cs : ConditionSet} :
    .known ⟨a, ours⟩ cs ∈ (r.withdrawExcept ours keep).2.entries ↔
      .known ⟨a, ours⟩ cs ∈ r.entries ∧ keep a = true := by
  have ha : (Entry.known ⟨a, ours⟩ cs).ancestorOf? ours = some a := ancestorOf?_eq_some_iff.2 rfl
  rw [(h.withdrawExcept ours keep).2, List.mem_filter, ha, Option.any_some, Bool.not_not]

/-- The ancestors that are left are those that are to be kept. -/
theorem Sound.mem_ancestorsOf_withdrawExcept_iff (h : r.Sound) {a : AncestorRef} :
    a ∈ (r.withdrawExcept ours keep).2.ancestorsOf ours ↔
      a ∈ r.ancestorsOf ours ∧ keep a = true := by
  simp only [mem_ancestorsOf_iff, h.known_mem_withdrawExcept_iff, exists_and_right]

/-- The entries of others stay. -/
theorem Sound.foreign_withdrawExcept (h : r.Sound) :
    foreign ours (r.withdrawExcept ours keep).2.entries = foreign ours r.entries := by
  rw [(h.withdrawExcept ours keep).2]
  exact foreign_filter_ancestorOf? (p := fun a => !a.any fun a => !keep a) rfl _

/-- The register shrinks by one for each ancestor that is not kept. -/
theorem Sound.size_withdrawExcept_add (h : r.Sound) (ours : ControllerName)
    (keep : AncestorRef → Bool) :
    (r.withdrawExcept ours keep).2.size +
      ((r.ancestorsOf ours).filter fun a => !keep a).length = r.size := by
  rw [Register.size, (h.withdrawExcept ours keep).2]
  exact r.length_filter_add_length_stale ours keep

end Except

end Withdrawing

end Register

/-- Where our report for an ancestor is recorded. -/
def AncestryEntry.key (ours : ControllerName) (e : AncestryEntry) : EntryKey :=
  ⟨e.ancestor.ancestorRef, ours⟩

/-- The condition to report for an ancestor. -/
def AncestryEntry.condition (generation : Option Int) (now : Instant) (e : AncestryEntry) :
    Condition :=
  e.attachment.condition e.target generation now

/-- A report says the outcome first, and then takes in the further conditions one after the other. -/
theorem Reporter.reportUnder_eq (reporter : Reporter) (ancestor : AncestorRef) (target : Target)
    (attachment : Attachment) (extra : List Condition) (generation : Option Int) (now : Instant) :
    reporter.reportUnder ancestor target attachment extra generation now =
      (extra.foldlM (addExtra reporter.overflow generation)
        (.single (attachment.condition target generation now))).map fun conditions =>
          ⟨⟨ancestor, reporter.controller⟩, conditions⟩ := by
  simp only [reportUnder, ConditionSet.insert_empty, bind, Except.bind]
  cases extra.foldlM (addExtra reporter.overflow generation)
    (.single (attachment.condition target generation now)) <;> rfl

namespace Review

open Entry

variable {reporter : Reporter} {ref : PolicyKey} {generation : Option Int} {now : Instant}

/-- A report without extras says the outcome alone and is never refused. -/
theorem reportUnder_nil (a : AncestorRef) (target : Target) (attachment : Attachment) :
    reporter.reportUnder a target attachment [] generation now =
      .ok ⟨⟨a, reporter.controller⟩, .single (attachment.condition target generation now)⟩ :=
  reporter.reportUnder_eq a target attachment [] generation now

/-- The conditions that are recorded for `key`, with the times of those recorded before. -/
def withTimes (r : Register) (key : EntryKey) (c : Condition) : ConditionSet :=
  match r.get? key with
  | some previous => (ConditionSet.single c).inheritTimes previous
  | none => .single c

/-- Recording the outcome for an ancestor puts one condition into its entry, or blocks the ancestor.
-/
theorem record_eq (r : Register) (blocked : List (Target × Condition)) (e : AncestryEntry) :
    record reporter ref generation now (r, blocked) e =
      match r.put (e.key reporter.controller)
        (withTimes r (e.key reporter.controller) (e.condition generation now)) with
      | .ok (_, r') => (r', blocked)
      | .error _ => (r, blocked ++ [(e.ancestor, Unrecordable.condition ref.kind.name ref.id now)]) := by
  simp only [record, reportUnder_nil, Register.record, Register.report, withTimes,
    AncestryEntry.key, AncestryEntry.condition]
  cases r.get? ⟨e.ancestor.ancestorRef, reporter.controller⟩ with
  | none =>
    cases r.put ⟨e.ancestor.ancestorRef, reporter.controller⟩
      (.single (e.attachment.condition e.target generation now)) <;> rfl
  | some previous =>
    cases r.put ⟨e.ancestor.ancestorRef, reporter.controller⟩
      ((ConditionSet.single (e.attachment.condition e.target generation now)).inheritTimes previous)
      <;> rfl

/-- Recording one report revises our entry for the ancestor, else adds one while there is room, else
leaves the ancestor out. -/
theorem record_cases (ref : PolicyKey) (generation : Option Int) (now : Instant) {r : Register}
    (h : r.Sound) (blocked : List (Target × Condition)) (e : AncestryEntry) :
    (∃ old cs r', .known (e.key reporter.controller) old ∈ r.entries ∧
      cs.SaysOnly (e.condition generation now) ∧
      record reporter ref generation now (r, blocked) e = (r', blocked) ∧ r'.Sound ∧
      r'.entries = r.entries.map (revise (e.key reporter.controller) cs) ∧
      (old.SaysOnly (e.condition generation now) → r' = r)) ∨
    ((∀ c, .known (e.key reporter.controller) c ∉ r.entries) ∧ r.size < maxAncestors ∧
      ∃ r', record reporter ref generation now (r, blocked) e = (r', blocked) ∧ r'.Sound ∧
        r'.entries =
          r.entries ++ [.known (e.key reporter.controller) (.single (e.condition generation now))]) ∨
    ((∀ c, .known (e.key reporter.controller) c ∉ r.entries) ∧ r.size = maxAncestors ∧
      record reporter ref generation now (r, blocked) e =
        (r, blocked ++ [(e.ancestor, Unrecordable.condition ref.kind.name ref.id now)])) := by
  rw [record_eq]
  rcases h.put_cases (e.key reporter.controller)
      (withTimes r (e.key reporter.controller) (e.condition generation now)) with
    ⟨old, how, r', hm, hput, sound, entries, -, same⟩ | ⟨absent, room, hput, sound⟩ |
    ⟨absent, full, hput⟩
  · rw [hput]
    have inherited : withTimes r (e.key reporter.controller) (e.condition generation now) =
        (ConditionSet.single (e.condition generation now)).inheritTimes old := by
      rw [withTimes, h.get?_eq_some_iff.2 hm]
    refine .inl ⟨old, _, r', hm, ?_, rfl, sound, entries, ?_⟩
    · rw [inherited]
      exact ConditionSet.saysOnly_inheritTimes _ old
    · intro already
      rw [inherited, already.inheritTimes] at same
      exact same rfl
  · rw [hput]
    refine .inr (.inl ⟨absent, room, _, rfl, sound, ?_⟩)
    rw [withTimes, h.get?_eq_none_iff.2 absent]
    rfl
  · rw [hput]
    exact .inr (.inr ⟨absent, full, rfl⟩)

/-- What recording the reports `es` of `ours` makes of the register `r`. Only our entries for the
ancestors of `es` come or change; each of these ancestors has been recorded with its condition `c`,
or is among the `left` ones that found no room. -/
structure Recording (ours : ControllerName) (c : AncestryEntry → Condition)
    (es : List AncestryEntry) (r r' : Register) (left : List Target) : Prop where
  sound : r'.Sound
  grows : r.size ≤ r'.size
  others : foreign ours r'.entries = foreign ours r.entries
  distinct : Distinct r.entries → Distinct r'.entries
  elsewhere : ∀ key, (∀ e ∈ es, key ≠ e.key ours) →
    ∀ cs, .known key cs ∈ r'.entries ↔ .known key cs ∈ r.entries
  keeps : ∀ key, (∃ cs, .known key cs ∈ r.entries) → ∃ cs, .known key cs ∈ r'.entries
  unread : Entry.unread r'.entries = Entry.unread r.entries
  stale : ∀ p : AncestorRef → Bool, (∀ e ∈ es, p e.ancestor.ancestorRef = false) →
    (r'.ancestorsOf ours).filter p = (r.ancestorsOf ours).filter p
  left_subset : ∀ a ∈ left, a ∈ es.map AncestryEntry.ancestor
  each : ∀ e ∈ es,
    (e.ancestor ∉ left ∧ ∃ cs, .known (e.key ours) cs ∈ r'.entries ∧ cs.SaysOnly (c e)) ∨
    (e.ancestor ∈ left ∧ (∀ cs, .known (e.key ours) cs ∉ r'.entries) ∧ r'.size = maxAncestors)

namespace Recording

variable {ours : ControllerName} {c : AncestryEntry → Condition} {e : AncestryEntry}
  {es : List AncestryEntry} {r r' : Register}

theorem nil (h : r.Sound) : Recording ours c [] r r [] where
  sound := h
  grows := Nat.le_refl _
  others := rfl
  distinct := id
  elsewhere _ _ _ := .rfl
  keeps _ := id
  unread := rfl
  stale _ _ := rfl
  left_subset _ ha := nomatch ha
  each _ he := nomatch he

/-- Our entry for the ancestor is revised in its place. -/
theorem revised (h : r'.Sound) {old cs : ConditionSet} (hold : .known (e.key ours) old ∈ r.entries)
    (hcs : cs.SaysOnly (c e)) (entries : r'.entries = r.entries.map (revise (e.key ours) cs)) :
    Recording ours c [e] r r' [] where
  sound := h
  grows := by
    have same : r'.size = r.size := by rw [Register.size, entries, List.length_map, Register.size]
    exact Nat.le_of_eq same.symm
  others := by
    rw [entries]
    exact foreign_map_revise (e.key ours) rfl cs r.entries
  distinct hd := by
    rw [Distinct, entries, List.map_map]
    rwa [show label ∘ revise (e.key ours) cs = label from funext (label_revise _ _)]
  elsewhere key hkey c := by
    rw [entries, known_mem_map_revise_iff]
    have := hkey e List.mem_cons_self
    simp [this]
  keeps key := by
    rintro ⟨c, hm⟩
    rw [entries]
    by_cases hk : key = e.key ours
    · exact ⟨cs, known_mem_map_revise_iff.2 (.inl ⟨hk, rfl, old, hold⟩)⟩
    · exact ⟨c, known_mem_map_revise_iff.2 (.inr ⟨hk, hm⟩)⟩
  unread := by
    rw [entries]
    exact unread_map_revise (e.key ours) cs r.entries
  stale p _ := by
    rw [Register.ancestorsOf_eq, Register.ancestorsOf_eq, entries, List.filterMap_map,
      show ancestorOf? ours ∘ revise (e.key ours) cs = ancestorOf? ours from
        funext (ancestorOf?_revise _ _ _)]
  left_subset _ ha := nomatch ha
  each d hd := by
    obtain rfl := List.mem_singleton.1 hd
    refine .inl ⟨List.not_mem_nil, cs, ?_, hcs⟩
    rw [entries, known_mem_map_revise_iff]
    exact .inl ⟨rfl, rfl, old, hold⟩

/-- An entry of ours for the ancestor is added. -/
theorem added (h : r'.Sound) {cs : ConditionSet} (absent : ∀ c, .known (e.key ours) c ∉ r.entries)
    (hcs : cs.SaysOnly (c e)) (entries : r'.entries = r.entries ++ [.known (e.key ours) cs]) :
    Recording ours c [e] r r' [] where
  sound := h
  grows := by
    rw [Register.size, Register.size, entries, List.length_append]
    omega
  others := by
    have ownEntry : (Entry.known (e.key ours) cs).isByOther ours = false :=
      isByOther_known_self _ _ _
    simp [Entry.foreign, entries, ownEntry]
  distinct hd := by
    rw [entries]
    apply hd.append_singleton
    intro hl
    obtain ⟨d, hm, hlabel⟩ := List.mem_map.1 hl
    obtain ⟨c', rfl⟩ := key?_eq_some_iff.1 (key?_of_label hlabel)
    exact absent c' hm
  elsewhere key hkey c := by
    have := hkey e List.mem_cons_self
    simp [entries, this]
  keeps key := by
    rintro ⟨c, hm⟩
    exact ⟨c, by rw [entries]; exact List.mem_append_left _ hm⟩
  unread := by
    rw [entries]
    exact unread_append_known r.entries (e.key ours) cs
  stale p hp := by
    have hownAncestor : (Entry.known (e.key ours) cs).ancestorOf? ours =
        some e.ancestor.ancestorRef := ancestorOf?_eq_some_iff.2 rfl
    rw [Register.ancestorsOf_eq, Register.ancestorsOf_eq, entries, List.filterMap_append,
      List.filter_append]
    simp [hownAncestor, hp e List.mem_cons_self]
  left_subset _ ha := nomatch ha
  each d hd := by
    obtain rfl := List.mem_singleton.1 hd
    exact .inl ⟨List.not_mem_nil, cs, by simp [entries], hcs⟩

/-- The ancestor is left out for lack of room. -/
theorem leftOut (h : r.Sound) (absent : ∀ c, .known (e.key ours) c ∉ r.entries)
    (full : r.size = maxAncestors) : Recording ours c [e] r r [e.ancestor] where
  sound := h
  grows := Nat.le_refl _
  others := rfl
  distinct := id
  elsewhere _ _ _ := .rfl
  keeps _ := id
  unread := rfl
  stale _ _ := rfl
  left_subset a ha := by simpa using ha
  each d hd := by
    obtain rfl := List.mem_singleton.1 hd
    exact .inr ⟨List.mem_singleton_self _, absent, full⟩

/-- Recordings follow one another. -/
theorem append {ds : List AncestryEntry} {r₁ : Register} {left left' : List Target}
    (first : Recording ours c ds r r₁ left) (second : Recording ours c es r₁ r' left')
    (apart : ∀ d ∈ ds, ∀ e ∈ es, d.ancestor ≠ e.ancestor) :
    Recording ours c (ds ++ es) r r' (left ++ left') where
  sound := second.sound
  grows := Nat.le_trans first.grows second.grows
  others := second.others.trans first.others
  distinct := second.distinct ∘ first.distinct
  elsewhere key hkey cs := by
    rw [second.elsewhere key (fun e he => hkey e (List.mem_append_right _ he)),
      first.elsewhere key (fun d hd => hkey d (List.mem_append_left _ hd))]
  keeps key h := second.keeps key (first.keeps key h)
  unread := second.unread.trans first.unread
  stale p hp := by
    rw [second.stale p (fun e he => hp e (List.mem_append_right _ he)),
      first.stale p (fun d hd => hp d (List.mem_append_left _ hd))]
  left_subset a ha := by
    rw [List.map_append, List.mem_append]
    rcases List.mem_append.1 ha with h | h
    · exact .inl (first.left_subset a h)
    · exact .inr (second.left_subset a h)
  each e he := by
    have keys : ∀ d ∈ ds, ∀ e ∈ es, d.key ours ≠ e.key ours := by
      intro d hd e he hk
      exact apart d hd e he (Target.ancestorRef_inj.1 (congrArg EntryKey.ancestor hk))
    rcases List.mem_append.1 he with he | he
    · have notLater : e.ancestor ∉ left' := by
        intro hl
        obtain ⟨d, hd, heq⟩ := List.mem_map.1 (second.left_subset _ hl)
        exact apart e he d hd heq.symm
      have same := second.elsewhere (e.key ours) (keys e he)
      rcases first.each e he with ⟨hnot, cs, hm, hcs⟩ | ⟨hl, absent, full⟩
      · refine .inl ⟨?_, cs, (same cs).2 hm, hcs⟩
        rw [List.mem_append]
        exact fun h => h.elim hnot notLater
      · refine .inr ⟨List.mem_append_left _ hl, fun cs hm => absent cs ((same cs).1 hm), ?_⟩
        have := second.grows
        have := second.sound.bounded
        omega
    · have notBefore : e.ancestor ∉ left := by
        intro hl
        obtain ⟨d, hd, heq⟩ := List.mem_map.1 (first.left_subset _ hl)
        exact apart d hd e he heq
      rcases second.each e he with ⟨hnot, cs, hm, hcs⟩ | ⟨hl, absent, full⟩
      · refine .inl ⟨?_, cs, hm, hcs⟩
        rw [List.mem_append]
        exact fun h => h.elim notBefore hnot
      · exact .inr ⟨List.mem_append_right _ hl, absent, full⟩

end Recording

/-- Every report of a policy finds its ancestor recorded or left out. -/
theorem recording_foldl {r : Register} (h : r.Sound) (blocked : List (Target × Condition))
    {es : List AncestryEntry} (nodup : (es.map AncestryEntry.ancestor).Nodup) :
    ∃ r' left, es.foldl (record reporter ref generation now) (r, blocked) = (r', blocked ++ left) ∧
      Recording reporter.controller (AncestryEntry.condition generation now) es r r'
        (left.map Prod.fst) := by
  induction es generalizing r blocked with
  | nil => exact ⟨r, [], by simp, .nil h⟩
  | cons e es ih =>
    obtain ⟨hnew, nodup⟩ := List.nodup_cons.1 nodup
    have apart : ∀ d ∈ [e], ∀ e' ∈ es, d.ancestor ≠ e'.ancestor := by
      intro d hd e' he' heq
      rw [List.mem_singleton.1 hd] at heq
      exact hnew (heq ▸ List.mem_map_of_mem he')
    rw [List.foldl_cons]
    rcases record_cases ref generation now h blocked e with
      ⟨old, cs, r₁, hold, hcs, step, sound, entries, -⟩ | ⟨absent, -, r₁, step, sound, entries⟩ |
      ⟨absent, full, step⟩
    · rw [step]
      obtain ⟨r', left, run, later⟩ := ih sound blocked nodup
      exact ⟨r', left, run, (Recording.revised sound hold hcs entries).append later apart⟩
    · rw [step]
      obtain ⟨r', left, run, later⟩ := ih sound blocked nodup
      exact ⟨r', left, run, (Recording.added sound absent (ConditionSet.saysOnly_single _) entries).append
        later apart⟩
    · rw [step]
      obtain ⟨r', left, run, later⟩ := ih h (blocked ++ [_]) nodup
      refine ⟨r', _ :: left, run.trans (by rw [List.append_assoc, List.singleton_append]), ?_⟩
      exact (Recording.leftOut h absent full).append later apart

/-- A register in which every ancestor is recorded already, or finds no room, stays as it is. -/
theorem foldl_record_of_settled (ref : PolicyKey) {r : Register} (h : r.Sound)
    (blocked : List (Target × Condition)) {es : List AncestryEntry} (settled : ∀ e ∈ es,
      (∃ cs, .known (e.key reporter.controller) cs ∈ r.entries ∧
        cs.SaysOnly (e.condition generation now)) ∨
      (∀ cs, .known (e.key reporter.controller) cs ∉ r.entries) ∧ r.size = maxAncestors) :
    (es.foldl (record reporter ref generation now) (r, blocked)).1 = r := by
  induction es generalizing blocked with
  | nil => rfl
  | cons e es ih =>
    have settled' := fun d hd => settled d (List.mem_cons_of_mem _ hd)
    rw [List.foldl_cons]
    rcases record_cases ref generation now h blocked e with
      ⟨old, cs, r₁, hold, -, step, -, -, same⟩ | ⟨absent, room, -⟩ | ⟨-, -, step⟩
    · rw [step]
      rcases settled e List.mem_cons_self with ⟨cs', hm, hcs⟩ | ⟨absent, -⟩
      · obtain rfl := h.known_unique hold hm
        rw [same hcs]
        exact ih _ settled'
      · exact absurd hold (absent old)
    · rcases settled e List.mem_cons_self with ⟨cs', hm, -⟩ | ⟨-, full⟩
      · exact absurd hm (absent cs')
      · omega
    · rw [step]
      exact ih _ settled'

/-- What a review makes of the register `r` of a policy with the ancestry `es`: our entries are those
for the ancestors of `es` except the `left` ones, each with its condition `c`. If an ancestor is left
out, then the entries and those of ours that were taken out fill a register. -/
structure Reviewed (ours : ControllerName) (c : AncestryEntry → Condition)
    (es : List AncestryEntry) (r r' : Register) (left : List Target) : Prop where
  sound : r'.Sound
  others : foreign ours r'.entries = foreign ours r.entries
  distinct : Distinct r.entries → Distinct r'.entries
  unread : Entry.unread r'.entries = Entry.unread r.entries
  left_subset : ∀ a ∈ left, a ∈ es.map AncestryEntry.ancestor
  mem_ancestorsOf : ∀ a, a ∈ r'.ancestorsOf ours ↔
    ∃ e ∈ es, e.ancestor ∉ left ∧ e.ancestor.ancestorRef = a
  keeps : ∀ e ∈ es, e.ancestor.ancestorRef ∈ r.ancestorsOf ours →
    e.ancestor.ancestorRef ∈ r'.ancestorsOf ours
  reports : ∀ e ∈ es, e.ancestor ∉ left →
    ∃ cs, r'.get? (e.key ours) = some cs ∧ cs.SaysOnly (c e)
  full : left ≠ [] →
    r'.size + ((r.ancestorsOf ours).filter fun a => a ∉ r'.ancestorsOf ours).length = maxAncestors

namespace Recording

variable {ours : ControllerName} {c : AncestryEntry → Condition} {es : List AncestryEntry}
  {r r' : Register} {left : List Target}

/-- Whether an ancestor is reported in `es`. -/
def listed (es : List AncestryEntry) (a : AncestorRef) : Bool :=
  (es.map fun e => e.ancestor.ancestorRef).contains a

theorem listed_iff {a : AncestorRef} :
    listed es a = true ↔ ∃ e ∈ es, e.ancestor.ancestorRef = a := by
  rw [listed, List.contains_iff_mem, List.mem_map]

/-- What is not left over has an entry that says the outcome. -/
theorem exists_known (h : Recording ours c es r r' left) {e : AncestryEntry} (he : e ∈ es)
    (hleft : e.ancestor ∉ left) : ∃ cs, .known (e.key ours) cs ∈ r'.entries ∧ cs.SaysOnly (c e) := by
  rcases h.each e he with ⟨-, known⟩ | ⟨hl, -⟩
  · exact known
  · exact absurd hl hleft

/-- Of the ancestors that were to be recorded, those that are left over have no entry. -/
theorem mem_ancestorsOf_iff (h : Recording ours c es r r' left) {e : AncestryEntry} (he : e ∈ es) :
    e.ancestor.ancestorRef ∈ r'.ancestorsOf ours ↔ e.ancestor ∉ left := by
  rw [Register.mem_ancestorsOf_iff]
  constructor
  · rintro ⟨cs, hm⟩
    rcases h.each e he with ⟨hleft, -⟩ | ⟨-, absent, -⟩
    · exact hleft
    · exact absurd hm (absent cs)
  · intro hleft
    obtain ⟨cs, hm, -⟩ := h.exists_known he hleft
    exact ⟨cs, hm⟩

/-- Recording takes no ancestor away. -/
theorem ancestorsOf_subset (h : Recording ours c es r r' left) :
    r.ancestorsOf ours ⊆ r'.ancestorsOf ours :=
  fun _ ha => Register.mem_ancestorsOf_iff.2 (h.keeps _ (Register.mem_ancestorsOf_iff.1 ha))

/-- Something is left over only when the register is full. -/
theorem full (h : Recording ours c es r r' left) (hne : left ≠ []) : r'.size = maxAncestors := by
  obtain ⟨a, ha⟩ := List.exists_mem_of_ne_nil left hne
  obtain ⟨e, he, rfl⟩ := List.mem_map.1 (h.left_subset a ha)
  rcases h.each e he with ⟨hnot, -⟩ | ⟨-, -, full⟩
  · exact absurd ha hnot
  · exact full

/-- Taking out what is stale completes a recording. An entry of ours that was there before goes for no
other reason. -/
theorem reviewed (h : Recording ours c es r r' left) :
    Reviewed ours c es r (r'.withdrawExcept ours (listed es)).2 left where
  sound := (h.sound.withdrawExcept ours (listed es)).1
  others := h.sound.foreign_withdrawExcept.trans h.others
  distinct hd := by
    rw [(h.sound.withdrawExcept ours (listed es)).2]
    exact (h.distinct hd).filter _
  unread := by
    rw [(h.sound.withdrawExcept ours (listed es)).2, unread_filter fun _ => rfl]
    exact h.unread
  left_subset := h.left_subset
  mem_ancestorsOf a := by
    rw [h.sound.mem_ancestorsOf_withdrawExcept_iff, listed_iff]
    constructor
    · rintro ⟨ha, e, he, rfl⟩
      exact ⟨e, he, (h.mem_ancestorsOf_iff he).1 ha, rfl⟩
    · rintro ⟨e, he, hleft, rfl⟩
      exact ⟨(h.mem_ancestorsOf_iff he).2 hleft, e, he, rfl⟩
  keeps e he ha := h.sound.mem_ancestorsOf_withdrawExcept_iff.2
    ⟨h.ancestorsOf_subset ha, listed_iff.2 ⟨e, he, rfl⟩⟩
  reports e he hleft := by
    obtain ⟨cs, hm, hcs⟩ := h.exists_known he hleft
    have sound := (h.sound.withdrawExcept ours (listed es)).1
    refine ⟨cs, sound.get?_eq_some_iff.2 ?_, hcs⟩
    exact h.sound.known_mem_withdrawExcept_iff.2 ⟨hm, listed_iff.2 ⟨e, he, rfl⟩⟩
  full hne := by
    have count := h.sound.size_withdrawExcept_add ours (listed es)
    have stale := h.stale (fun a => !listed es a) fun e he => by
      rw [listed_iff.2 ⟨e, he, rfl⟩, Bool.not_true]
    rw [h.full hne, stale] at count
    rw [← count]
    congr 2
    apply List.filter_congr
    intro a ha
    have kept : a ∈ (r'.withdrawExcept ours (listed es)).2.ancestorsOf ours ↔ _ :=
      h.sound.mem_ancestorsOf_withdrawExcept_iff
    rw [and_iff_right (h.ancestorsOf_subset ha)] at kept
    rw [Bool.eq_iff_iff, decide_eq_true_eq, Bool.not_eq_true', ← Bool.not_eq_true, kept]

end Recording

/-- Recording all outcomes and taking out what is stale is a review, whatever the reporter does with
further conditions. -/
theorem reviewed_recordAll (reporter : Reporter) (ref : PolicyKey) (generation : Option Int)
    (now : Instant) {r : Register} (h : r.Sound) {es : List AncestryEntry}
    (nodup : (es.map AncestryEntry.ancestor).Nodup) :
    Reviewed reporter.controller (AncestryEntry.condition generation now) es r
      (recordAll reporter ref generation now r es).1
      ((recordAll reporter ref generation now r es).2.map Prod.fst) := by
  obtain ⟨r', left, run, recording⟩ := recording_foldl h [] nodup
  unfold recordAll
  rw [run]
  exact recording.reviewed

/-- A register that shows the ancestry already, as far as there is room, stays as it is. -/
theorem recordAll_of_settled {r : Register} (h : r.Sound) {es : List AncestryEntry}
    (settled : ∀ e ∈ es,
      (∃ cs, .known (e.key reporter.controller) cs ∈ r.entries ∧
        cs.SaysOnly (e.condition generation now)) ∨
      (∀ cs, .known (e.key reporter.controller) cs ∉ r.entries) ∧ r.size = maxAncestors)
    (current : ∀ a ∈ r.ancestorsOf reporter.controller, ∃ e ∈ es, e.ancestor.ancestorRef = a) :
    (recordAll reporter ref generation now r es).1 = r := by
  have unchanged := foldl_record_of_settled ref h [] settled
  have noneStale : (r.ancestorsOf reporter.controller).filter
      (fun a => !Recording.listed es a) = [] := by
    rw [List.filter_eq_nil_iff]
    intro a ha
    rw [Bool.not_eq_true', Bool.not_eq_false, Recording.listed_iff]
    exact current a ha
  unfold Recording.listed at noneStale
  simp only [recordAll, unchanged, Register.withdrawExcept, noneStale, List.foldl_nil]

end Review

namespace AncestryEntry

/-- What stands in the place of an entry once `new` has come: what is attached takes the place of what
is not. -/
def outdone (new e : AncestryEntry) : AncestryEntry :=
  if e.ancestor = new.ancestor ∧ !e.attachment.isAttached ∧ new.attachment.isAttached then new else e

theorem ancestor_outdone (new e : AncestryEntry) : (outdone new e).ancestor = e.ancestor := by
  unfold outdone
  split
  · rename_i same
    exact same.1.symm
  · rfl

/-- An entry for a new ancestor comes at the end. -/
theorem add_eq (es : List AncestryEntry) (new : AncestryEntry) :
    add es new =
      if new.ancestor ∈ es.map ancestor then es.map (outdone new) else es ++ [new] := by
  have taken : (es.any fun e => e.ancestor == new.ancestor) = true ↔
      new.ancestor ∈ es.map ancestor := by
    simp only [List.any_eq_true, beq_iff_eq, List.mem_map]
  by_cases h : new.ancestor ∈ es.map ancestor
  · rw [add, if_pos (taken.2 h), if_pos h]
    rfl
  · rw [add, if_neg (mt taken.1 h), if_neg h]

/-- An outcome for an ancestor that is listed does not list it again. -/
theorem map_ancestor_add (es : List AncestryEntry) (new : AncestryEntry) :
    (add es new).map ancestor =
      if new.ancestor ∈ es.map ancestor then es.map ancestor
      else es.map ancestor ++ [new.ancestor] := by
  rw [add_eq]
  split
  · rw [List.map_map]
    exact List.map_congr_left fun e _ => ancestor_outdone new e
  · rw [List.map_append, List.map_singleton]

theorem nodup_add {es : List AncestryEntry} (h : (es.map ancestor).Nodup) (new : AncestryEntry) :
    ((add es new).map ancestor).Nodup := by
  rw [map_ancestor_add]
  split
  · exact h
  · rename_i fresh
    rw [List.nodup_append]
    refine ⟨h, List.nodup_singleton _, ?_⟩
    intro a ha b hb hab
    rw [List.mem_singleton] at hb
    exact fresh (hb ▸ hab ▸ ha)

/-- Each ancestor is reported once. -/
theorem nodup_ofAttachments (routes : List RouteLinks) (attachments : List (Target × Attachment)) :
    ((ofAttachments routes attachments).map ancestor).Nodup := by
  have run : ∀ (new es : List AncestryEntry), (es.map ancestor).Nodup →
      ((new.foldl add es).map ancestor).Nodup := by
    intro new
    induction new with
    | nil => exact fun es h => h
    | cons e new ih => exact fun es h => ih _ (nodup_add h e)
  exact run _ [] List.nodup_nil

end AncestryEntry
end PolicyAttachment
