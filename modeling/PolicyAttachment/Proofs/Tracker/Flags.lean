import PolicyAttachment.Proofs.Tracker.Channel

/-!
# Conditions on ancestors

An ancestor that can carry a condition has to show the one of the smallest policy that is marked on
it: `Wanted`. Whenever the conditions are brought up to date, `flagsDue` is what is offered for an
ancestor; if it finds a place in the queue, then the ancestor shows what it has to.
-/

namespace PolicyAttachment
set_option autoImplicit false

section Order

theorem PolicyKind.rank_inj {k l : PolicyKind} (h : k.rank = l.rank) : k = l := by
  cases k <;> cases l <;> first | rfl | cases h

instance : Std.TransCmp (compareOn PolicyKind.rank) := inferInstance

instance : Std.TransOrd PolicyKind := inferInstanceAs (Std.TransCmp (compareOn PolicyKind.rank))

instance : Std.TransOrd PolicyId :=
  inferInstanceAs (Std.TransCmp (compareLex (compareOn PolicyId.ns) (compareOn PolicyId.name)))

instance : Std.TransOrd PolicyKey :=
  inferInstanceAs (Std.TransCmp (compareLex (compareOn PolicyKey.kind) (compareOn PolicyKey.id)))

/-- Policies that compare as equal are the same. -/
theorem PolicyKey.eq_of_compare {a b : PolicyKey} (h : compare a b = .eq) : a = b := by
  obtain ⟨kind, ns, name⟩ := a
  obtain ⟨kind', ns', name'⟩ := b
  obtain ⟨hkind, hid⟩ := compareLex_eq_eq.1 h
  obtain ⟨hns, hname⟩ := compareLex_eq_eq.1 hid
  obtain rfl := PolicyKind.rank_inj (Nat.compare_eq_eq.1 hkind)
  obtain rfl : ns = ns' := Std.LawfulEqCmp.eq_of_compare hns
  obtain rfl : name = name' := Std.LawfulEqCmp.eq_of_compare hname
  rfl

/-- The order of policies is antisymmetric. -/
theorem PolicyKey.eq_of_isLE {a b : PolicyKey} (h : (compare a b).isLE) (h' : (compare b a).isLE) :
    a = b :=
  eq_of_compare (Std.OrientedCmp.isLE_antisymm h h')

end Order

namespace Marks

theorem isLE_smaller_left (a b : PolicyKey × Condition) :
    (compare (smaller a b).1 a.1).isLE := by
  unfold smaller
  split
  · rename_i h
    exact Ordering.isLE_of_eq_lt (Ordering.isLT_iff_eq_lt.1 h)
  · exact Std.ReflCmp.isLE_rfl

theorem isLE_smaller_right (a b : PolicyKey × Condition) :
    (compare (smaller a b).1 b.1).isLE := by
  unfold smaller
  split
  · exact Std.ReflCmp.isLE_rfl
  · rename_i h
    cases hc : compare a.1 b.1 with
    | lt => rfl
    | eq => rfl
    | gt =>
      rw [Std.OrientedCmp.gt_iff_lt] at hc
      rw [hc] at h
      exact absurd rfl h

theorem smaller_mem (a b : PolicyKey × Condition) : smaller a b = a ∨ smaller a b = b := by
  unfold smaller
  split
  · exact .inr rfl
  · exact .inl rfl

/-- The fold ends at one of the marks, and at none that is greater than another. -/
theorem foldl_smaller (ms : List (PolicyKey × Condition)) (a : PolicyKey × Condition) :
    ms.foldl smaller a ∈ a :: ms ∧
      ∀ b ∈ a :: ms, (compare (ms.foldl smaller a).1 b.1).isLE := by
  induction ms generalizing a with
  | nil =>
    refine ⟨List.mem_cons_self, ?_⟩
    intro b hb
    rw [List.mem_singleton.1 hb]
    exact Std.ReflCmp.isLE_rfl
  | cons c ms ih =>
    obtain ⟨mem, least⟩ := ih (smaller a c)
    have head := least _ List.mem_cons_self
    constructor
    · rw [List.foldl_cons]
      obtain heq | hm := List.mem_cons.1 mem
      · rw [heq]
        rcases smaller_mem a c with h | h <;> simp [h]
      · exact List.mem_cons_of_mem _ (List.mem_cons_of_mem _ hm)
    · intro b hb
      rw [List.foldl_cons]
      obtain rfl | hb := List.mem_cons.1 hb
      · exact Std.TransOrd.isLE_trans head (isLE_smaller_left _ c)
      · obtain rfl | hb := List.mem_cons.1 hb
        · exact Std.TransOrd.isLE_trans head (isLE_smaller_right a _)
        · exact least b (List.mem_cons_of_mem _ hb)

/-- The first of the marks is that of the smallest policy. -/
theorem first?_eq_some_iff {marks : Marks} {c : Condition} : marks.first? = some c ↔
    ∃ ref, marks.get? ref = some c ∧
      ∀ other d, marks.get? other = some d → (compare ref other).isLE := by
  have once : ∀ {ref c d}, (ref, c) ∈ marks.entries → (ref, d) ∈ marks.entries → c = d := by
    intro ref c d hc hd
    rw [Table.mem_entries_iff] at hc hd
    exact Option.some.inj (hc.symm.trans hd)
  simp only [← Table.mem_entries_iff]
  unfold first?
  cases hm : marks.entries with
  | nil => simp
  | cons m ms =>
    rw [hm] at once
    obtain ⟨mem, least⟩ := foldl_smaller ms m
    simp only [Option.some.injEq]
    constructor
    · rintro rfl
      exact ⟨_, mem, fun other d hd => least (other, d) hd⟩
    · rintro ⟨ref, hc, smallest⟩
      obtain rfl := PolicyKey.eq_of_isLE (least (ref, c) hc) (smallest _ _ mem)
      exact once mem hc

theorem isSome_first? {marks : Marks} (h : marks.isEmpty = false) : marks.first?.isSome := by
  unfold first?
  unfold Table.isEmpty at h
  cases hm : marks.entries with
  | nil => simp [hm] at h
  | cons m ms => rfl

end Marks

namespace Tracker

open Channel (Relays relays_of_idle relays_offer relays_foldl relays_foldl_nil)

/-- The target can carry a condition, and `c` is that of the smallest policy marked on it. -/
structure Wanted (tr : Tracker) (t : Target) (c : Condition) : Prop where
  carries : t.apiVersion?.isSome
  least : ∃ ref, tr.markOf? t ref = some c ∧
    ∀ other d, tr.markOf? t other = some d → (compare ref other).isLE

/-- The condition that a target has to show. -/
def wanted? (tr : Tracker) (t : Target) : Option Condition :=
  if t.apiVersion?.isSome then (tr.marks.get? t).bind Marks.first? else none

/-- What is offered for a target when the conditions are brought up to date. -/
def flagsDue (force : Bool) (tr : Tracker) (t : Target) : List (Option Condition) :=
  if tr.marks.contains t then
    match tr.wanted? t with
    | some c => if !force && tr.flagged.get? t == some c.message then [] else [some c]
    | none => []
  else if (tr.flagged.get? t).isSome then [none]
  else []

/-- Every ancestor with a place among the marks has a mark. -/
def MarksFilled (tr : Tracker) : Prop := ∀ t ms, tr.marks.get? t = some ms → ms.isEmpty = false

/-- Whatever shows a condition can carry it. -/
def FlaggedCarry (tr : Tracker) : Prop :=
  ∀ t, (tr.flagged.get? t).isSome → t.apiVersion?.isSome

variable {leads force : Bool} {m : Moment} {tr : Tracker} {t : Target} {c : Condition}

/-- The condition of the smallest policy that is marked on an ancestor. -/
theorem bind_first?_eq_some_iff {marks : Table Target Marks} :
    (marks.get? t).bind Marks.first? = some c ↔
      ∃ ref, markIn? marks t ref = some c ∧
        ∀ other d, markIn? marks t other = some d → (compare ref other).isLE := by
  unfold markIn?
  cases marks.get? t with
  | none => simp
  | some ms => exact Marks.first?_eq_some_iff

/-- What a target has to show is what is wanted on it. -/
theorem wanted?_eq_some_iff : tr.wanted? t = some c ↔ tr.Wanted t c := by
  unfold wanted?
  split
  · rename_i carries
    rw [bind_first?_eq_some_iff]
    constructor
    · exact fun least => ⟨carries, least⟩
    · exact fun wanted => wanted.least
  · rename_i no
    constructor
    · exact fun none => by cases none
    · exact fun wanted => absurd wanted.carries no

/-- A target without marks has to show nothing. -/
theorem wanted?_of_not_contains (h : tr.marks.contains t = false) : tr.wanted? t = none := by
  have absent : tr.marks.get? t = none := by
    rwa [Table.contains, Option.isSome_eq_false_iff, Option.isNone_iff_eq_none] at h
  rw [wanted?, absent]
  exact ite_self none

/-- A marked target that can carry a condition has to show one. -/
theorem MarksFilled.isSome_wanted? (filled : tr.MarksFilled) (h : tr.marks.contains t = true)
    (carries : t.apiVersion?.isSome) : (tr.wanted? t).isSome := by
  obtain ⟨ms, hms⟩ := Option.isSome_iff_exists.1 h
  rw [wanted?, if_pos carries, hms]
  exact Marks.isSome_first? (filled t ms hms)

section Offered

/-- A pass enqueues statuses alone. -/
theorem relays_flag_passOver (m : Moment) (retry : Bool) (tr : Tracker) (kind : PolicyKind)
    (t : Target) : Relays (.flag t) m.leads [] tr (tr.passOver m retry kind) := by
  have sends : ∀ (tr : Tracker) (due : Due),
      Relays (.flag t) m.leads [] tr (send m.leads tr due) := by
    intro tr due
    refine relays_offer due.change ?_ ?_
    · unfold send
      rw [← Due.change]
      generalize tr.queue.offer m.leads due.change = out
      obtain ⟨sent, queue⟩ := out
      cases sent with
      | false => rfl
      | true => cases tr.policies.get? due.ref <;> rfl
    · unfold send
      rw [← Due.change]
      generalize tr.queue.offer m.leads due.change = out
      obtain ⟨sent, queue⟩ := out
      cases sent with
      | false => rfl
      | true => cases tr.policies.get? due.ref <;> rfl
  let reviewed : Tracker :=
    { tr with
      policies := (tr.reviewsIn m.now kind).mapValues fun _ r => r.state
      marks := remark tr.marks kind (allBlocked (tr.reviewsIn m.now kind))
      turnedAway := tr.turnedAway + (allBlocked (tr.reviewsIn m.now kind)).length }
  have start : Relays (.flag t) m.leads [] tr reviewed := relays_of_idle rfl rfl
  exact start.append (relays_foldl_nil (fun due _ tr => sends tr due) reviewed)

/-- A condition for a target is offered, and `shown` is what is flagged if it is taken in. -/
theorem relays_flag_offer (tr : Tracker) (apiVersion : String) (target : Target)
    (condition : Option Condition) (shown : Table Target String) (t : Target)
    (same : t ≠ target → shown.get? t = tr.flagged.get? t)
    (new : shown.get? target = condition.map Condition.message) :
    Relays (.flag t) leads (if target = t then [condition] else []) tr
      (if (tr.queue.offer leads (.ancestor apiVersion target condition)).1 then
        { tr with
          queue := (tr.queue.offer leads (.ancestor apiVersion target condition)).2
          flagged := shown }
      else
        { tr with queue := (tr.queue.offer leads (.ancestor apiVersion target condition)).2 }) := by
  have pick : (Channel.flag t).pick (.ancestor apiVersion target condition) =
      if target = t then some condition else none := rfl
  have offered : ((Channel.flag t).pick (.ancestor apiVersion target condition)).toList =
      if target = t then [condition] else [] := by
    rw [pick]
    split <;> rfl
  rw [← offered]
  apply relays_offer
  · split <;> rfl
  · rw [offered]
    split
    · by_cases ht : target = t
      · subst ht
        rw [if_pos rfl]
        exact new
      · rw [if_neg ht]
        exact same (Ne.symm ht)
    · rfl

/-- What is shown on a target, unless it is there already or cannot be. -/
theorem relays_flag_flag (force : Bool) (tr : Tracker) (target : Target) (c : Condition)
    (t : Target) :
    Relays (.flag t) leads
      (if target = t ∧ t.apiVersion?.isSome ∧ (!force && tr.flagged.get? t == some c.message) = false
        then [some c] else [])
      tr (flag leads force tr (target, c)) := by
  simp only [flag]
  cases there : (!force && tr.flagged.get? target == some c.message) with
  | true =>
    rw [if_neg, if_pos rfl]
    · exact .refl _ leads tr
    · rintro ⟨rfl, -, missing⟩
      rw [there] at missing
      cases missing
  | false =>
    rw [if_neg (show ¬ false = true from Bool.false_ne_true)]
    cases hv : target.apiVersion? with
    | none =>
      rw [if_neg]
      · simp only [StatusChange.flag?, hv]
        exact .refl _ leads tr
      · rintro ⟨rfl, carries, -⟩
        rw [hv] at carries
        cases carries
    | some apiVersion =>
      have relays : Relays (.flag t) leads _ tr _ :=
        relays_flag_offer tr apiVersion target (some c) (tr.flagged.insert target c.message) t
          (fun ht => by rw [Table.get?_insert, if_neg ht])
          (by rw [Table.get?_insert, if_pos rfl]; rfl)
      simp only [StatusChange.flag?, hv]
      by_cases ht : target = t
      · subst ht
        rw [if_pos rfl] at relays
        rw [if_pos ⟨rfl, by rw [hv]; rfl, there⟩]
        exact relays
      · rw [if_neg ht] at relays
        rw [if_neg fun h => ht h.1]
        exact relays

/-- Clearing a condition relays this to its own target alone. -/
theorem relays_flag_unflag (tr : Tracker) (target t : Target)
    (carries : target = t → t.apiVersion?.isSome) :
    Relays (.flag t) leads (if target = t then [none] else []) tr (unflag leads tr target) := by
  have same : t ≠ target → (tr.flagged.erase target).get? t = tr.flagged.get? t := by
    intro ht
    rw [Table.get?_erase, if_neg ht]
  simp only [unflag]
  cases hv : target.apiVersion? with
  | none =>
    have ht : target ≠ t := by
      rintro rfl
      rw [hv] at carries
      cases carries rfl
    simp only [StatusChange.flag?, hv, if_neg ht]
    exact ⟨⟨[], (List.append_nil _).symm, .refl _, fun _ => rfl, same (Ne.symm ht)⟩,
      Nat.le_refl _, rfl⟩
  | some apiVersion =>
    simp only [StatusChange.flag?, hv]
    apply relays_flag_offer tr apiVersion target none _ t same
    rw [Table.get?_erase, if_pos rfl]
    rfl

/-- The ancestors with the conditions that they have to show. -/
def desired (tr : Tracker) : List (Target × Condition) :=
  tr.marks.entries.filterMap fun (ancestor, marks) =>
    marks.first?.map fun condition => (ancestor, condition)

/-- A condition is asked for on an ancestor if it is the first of its marks. -/
theorem mem_desired_iff : (t, c) ∈ tr.desired ↔ (tr.marks.get? t).bind Marks.first? = some c := by
  simp only [desired, List.mem_filterMap, Prod.exists, Option.map_eq_some_iff, Prod.mk.injEq,
    Option.bind_eq_some_iff, ← Table.mem_entries_iff]
  constructor
  · rintro ⟨a, ms, hm, d, hd, rfl, rfl⟩
    exact ⟨ms, hm, hd⟩
  · rintro ⟨ms, hm, hd⟩
    exact ⟨t, ms, hm, c, hd, rfl, rfl⟩

theorem nodup_desired (tr : Tracker) : (tr.desired.map Prod.fst).Nodup := by
  have apart : tr.marks.entries.Pairwise fun a b => a.1 ≠ b.1 := List.pairwise_map.1 tr.marks.nodup
  rw [List.Nodup, List.pairwise_map, desired, List.pairwise_filterMap]
  refine apart.imp ?_
  rintro ⟨a, ms⟩ ⟨b, ms'⟩ hne x hx y hy
  obtain ⟨c, -, rfl⟩ := Option.map_eq_some_iff.1 hx
  obtain ⟨d, -, rfl⟩ := Option.map_eq_some_iff.1 hy
  exact hne

theorem marks_foldl_flag (leads force : Bool) (ds : List (Target × Condition)) (tr : Tracker) :
    (ds.foldl (flag leads force) tr).marks = tr.marks := by
  obtain ⟨offered, -, sends, -⟩ := sendsFlags_foldl (sendsFlags_flag leads force) ds tr
  exact sends.marks

/-- First the conditions that the marks ask for are shown. -/
theorem relays_flag_shown (leads force : Bool) (tr : Tracker) (t : Target) :
    Relays (.flag t) leads (if tr.marks.contains t then tr.flagsDue force t else []) tr
      (tr.desired.foldl (flag leads force) tr) := by
  cases hd : (tr.marks.get? t).bind Marks.first? with
  | none =>
    have none : (if tr.marks.contains t then tr.flagsDue force t else []) = [] := by
      split
      · rename_i contains
        rw [flagsDue, if_pos contains, wanted?, hd, ite_self]
      · rfl
    rw [none]
    refine relays_foldl_nil ?_ tr
    rintro ⟨target, c⟩ hm tr'
    have ht : target ≠ t := by
      rintro rfl
      rw [mem_desired_iff, hd] at hm
      cases hm
    have relays : Relays (.flag t) leads _ tr' _ := relays_flag_flag force tr' target c t
    rwa [if_neg fun h => ht h.1] at relays
  | some c =>
    have contains : tr.marks.contains t = true := Table.contains_of_bind hd
    rw [if_pos contains]
    refine relays_foldl (mem_desired_iff.2 hd) tr.nodup_desired ?_ ?_
    · rintro ⟨target, d⟩ - ht tr'
      have relays : Relays (.flag t) leads _ tr' _ := relays_flag_flag force tr' target d t
      rwa [if_neg fun h => ht h.1] at relays
    · intro tr' memory
      have flagged : tr'.flagged.get? t = tr.flagged.get? t := memory
      have relays : Relays (.flag t) leads _ tr' _ := relays_flag_flag force tr' t c t
      convert relays using 1
      rw [flagsDue, if_pos contains, wanted?, hd, flagged]
      by_cases carries : t.apiVersion?.isSome
      · cases hm : (!force && tr.flagged.get? t == some c.message) <;> simp [carries, hm]
      · simp [carries]

/-- First the desired conditions are shown, then those of other targets are cleared. -/
theorem syncFlags_eq (m : Moment) (force : Bool) (tr : Tracker) :
    tr.syncFlags m force =
      ((tr.desired.foldl (flag m.leads force) tr).flagged.keys.filter fun target =>
        !tr.marks.contains target).foldl (unflag m.leads) (tr.desired.foldl (flag m.leads force) tr) := by
  conv_rhs => rw [← marks_foldl_flag m.leads force tr.desired tr]
  rfl

/-- What is offered for a target when the conditions on ancestors are brought up to date. -/
theorem relays_flag_syncFlags (m : Moment) (force : Bool) (carry : tr.FlaggedCarry) (t : Target) :
    Relays (.flag t) m.leads (tr.flagsDue force t) tr (tr.syncFlags m force) := by
  have shown := relays_flag_shown m.leads force tr t
  rw [syncFlags_eq]
  generalize tr.desired.foldl (flag m.leads force) tr = mid at shown ⊢
  have idle : ∀ target, target ≠ t → ∀ tr',
      Relays (.flag t) m.leads [] tr' (unflag m.leads tr' target) := by
    intro target ht tr'
    have relays : Relays (.flag t) m.leads _ tr' _ :=
      relays_flag_unflag tr' target t fun heq => absurd heq ht
    rwa [if_neg ht] at relays
  cases contains : tr.marks.contains t with
  | true =>
    rw [if_pos contains] at shown
    rw [← List.append_nil (tr.flagsDue force t)]
    refine shown.append (relays_foldl_nil ?_ mid)
    intro target hm
    refine idle target ?_
    rintro rfl
    simp [contains] at hm
  | false =>
    rw [contains, if_neg Bool.false_ne_true] at shown
    have flagged : mid.flagged.get? t = tr.flagged.get? t := shown.memory_of_nil
    rw [← List.nil_append (tr.flagsDue force t), flagsDue, contains, if_neg Bool.false_ne_true]
    refine shown.append ?_
    split
    · rename_i was
      have stale : t ∈ mid.flagged.keys.filter fun target => !tr.marks.contains target := by
        rw [List.mem_filter, Table.mem_keys_iff, flagged, contains]
        exact ⟨was, rfl⟩
      have nodup : ((mid.flagged.keys.filter fun target => !tr.marks.contains target).map id).Nodup := by
        rw [List.map_id]
        exact mid.flagged.nodup.filter _
      refine relays_foldl stale nodup (fun target _ ht tr' => idle target ht tr') ?_
      intro tr' _
      have relays : Relays (.flag t) m.leads _ tr' _ :=
        relays_flag_unflag tr' t t fun _ => carry t was
      rwa [if_pos rfl] at relays
    · rename_i never
      refine relays_foldl_nil ?_ mid
      intro target hm
      refine idle target ?_
      rintro rfl
      rw [List.mem_filter, Table.mem_keys_iff, flagged] at hm
      exact never hm.1

end Offered

section Due

/-- Only a target that can carry a condition is due one. -/
theorem carries_of_mem_flagsDue (h : some c ∈ tr.flagsDue force t) : t.apiVersion?.isSome := by
  unfold flagsDue at h
  split at h
  · cases hw : tr.wanted? t with
    | none => simp [hw] at h
    | some d => exact (wanted?_eq_some_iff.1 hw).carries
  · split at h
    · cases List.mem_singleton.1 h
    · cases h

/-- If what is due is enqueued, then the target shows what it has to. A target that cannot carry a
condition shows none to begin with. -/
theorem after_flagsDue (filled : tr.MarksFilled) (carry : tr.FlaggedCarry) (force : Bool)
    (t : Target) : (Channel.flag t).after (tr.flagged.get? t) (tr.flagsDue force t) =
      (tr.wanted? t).map Condition.message := by
  unfold flagsDue
  cases contains : tr.marks.contains t with
  | true =>
    rw [if_pos rfl]
    cases hw : tr.wanted? t with
    | none =>
      cases hf : tr.flagged.get? t with
      | none => rfl
      | some message =>
        have shown := filled.isSome_wanted? contains (carry t (by rw [hf]; rfl))
        rw [hw] at shown
        cases shown
    | some c =>
      simp only
      split
      · rename_i there
        simp only [Bool.and_eq_true, beq_iff_eq] at there
        exact there.2
      · rfl
  | false =>
    rw [if_neg Bool.false_ne_true, wanted?_of_not_contains contains]
    cases tr.flagged.get? t <;> rfl

/-- Unless it is repeated, nothing is due for a target that shows what it has to. -/
theorem flagsDue_of_shown
    (shown : tr.flagged.get? t = (tr.wanted? t).map Condition.message) :
    tr.flagsDue false t = [] := by
  unfold flagsDue
  split
  · cases hw : tr.wanted? t with
    | none => rfl
    | some c =>
      rw [hw] at shown
      simp [shown]
  · rename_i contains
    rw [wanted?_of_not_contains (by simpa using contains)] at shown
    rw [shown]
    rfl

/-- If conditions are repeated, then just what is wanted is due, and whatever else is flagged is cleared.
-/
theorem flagsDue_repeated (tr : Tracker) (t : Target) :
    tr.flagsDue true t =
      match tr.wanted? t with
      | some c => [some c]
      | none => if (tr.flagged.get? t).isSome ∧ tr.marks.contains t = false then [none] else [] := by
  unfold flagsDue
  cases contains : tr.marks.contains t with
  | true => cases tr.wanted? t <;> simp
  | false => simp [wanted?_of_not_contains contains]

end Due

section Kept

/-- No stage leaves an ancestor with a place and no mark. -/
theorem keeps_marksFilled (m : Moment) : Stage.Keeps m MarksFilled where
  place h _ _ := h
  pass {tr} _ retry kind t ms hms := by
    have marks : (tr.passOver m retry kind).marks =
        remark tr.marks kind (allBlocked (tr.reviewsIn m.now kind)) :=
      (sends_foldl_send m.leads _ _).marks
    rw [marks, remark, Table.get?_filter, Option.filter_eq_some_iff] at hms
    simpa using hms.2
  sync {tr} h force t ms hms := by
    obtain ⟨offered, -, sends, -⟩ := sendsFlags_syncFlags m force tr
    rw [sends.marks] at hms
    exact h t ms hms

/-- No stage shows a condition on what cannot carry it. -/
theorem keeps_flaggedCarry (m : Moment) : Stage.Keeps m FlaggedCarry where
  place h _ _ := h
  pass {tr} h retry kind t shown := by
    have flagged : (tr.passOver m retry kind).flagged.get? t = tr.flagged.get? t :=
      (relays_flag_passOver m retry tr kind t).memory_of_nil
    rw [flagged] at shown
    exact h t shown
  sync {tr} h force t shown := by
    obtain ⟨new, -, sub, -, memory⟩ := (relays_flag_syncFlags m force h t).taken
    have after : (tr.syncFlags m force).flagged.get? t =
        (Channel.flag t).after (tr.flagged.get? t) (new.filterMap (Channel.flag t).pick) := memory
    rw [after, Channel.after] at shown
    cases hl : (new.filterMap (Channel.flag t).pick).getLast? with
    | none =>
      rw [hl] at shown
      exact h t shown
    | some condition =>
      rw [hl] at shown
      obtain ⟨message, hm⟩ := Option.isSome_iff_exists.1 shown
      obtain ⟨c, rfl, -⟩ := Option.map_eq_some_iff.1 hm
      exact carries_of_mem_flagsDue (sub.subset (List.mem_of_getLast? hl))

end Kept

end Tracker
end PolicyAttachment
