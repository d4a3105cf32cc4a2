import PolicyAttachment.Proofs.Tracker.Course
import PolicyAttachment.Proofs.Tracker.Reorder

/-!
# Going through tables in any order

`Stage.AnyOrder` is what a stage can lead to if every table may be in any order each time that it is
gone through: for the review of each policy, for the list of policies and their marks, for the
conditions to show and for those to clear. Two trackers that hold the same go in step through a stage
as long as nothing is lost: they hold the same after it, and they have put the same changes into the
queue, each in some order. By induction the same holds of a whole course: `Stage.Course.alike`.
-/

namespace PolicyAttachment
set_option autoImplicit false

open Table (Reorders)

namespace Queue

variable {leads : Bool} {q q' q'' : Queue} {changes changes' : List StatusChange}

/-- As many changes wait in one queue as in the other, and as many were taken in and lost. -/
structure SameCounts (q q' : Queue) : Prop where
  capacity : q'.capacity = q.capacity
  isOpen : q'.isOpen = q.isOpen
  waiting : q'.waiting.length = q.waiting.length
  enqueued : q'.enqueued = q.enqueued
  overflowed : q'.overflowed = q.overflowed

theorem SameCounts.refl (q : Queue) : SameCounts q q := ⟨rfl, rfl, rfl, rfl, rfl⟩

/-- The queue after some changes were offered to it one by one. -/
def offerAll (q : Queue) (leads : Bool) (changes : List StatusChange) : Queue :=
  changes.foldl (fun q change => (q.offer leads change).2) q

/-- Whether there is room does not depend on what is offered. -/
theorem SameCounts.offer (h : SameCounts q q') (leads : Bool) (change change' : StatusChange) :
    SameCounts (q.offer leads change).2 (q'.offer leads change').2 := by
  unfold Queue.offer
  rw [h.isOpen, h.waiting, h.capacity]
  split
  · exact h
  · split
    · exact
        { capacity := rfl, isOpen := rfl, overflowed := h.overflowed
          waiting := by simp [h.waiting], enqueued := by simp [h.enqueued] }
    · exact
        { capacity := rfl, isOpen := rfl, waiting := h.waiting, enqueued := h.enqueued
          overflowed := by simp [h.overflowed] }

theorem SameCounts.offerAll (h : SameCounts q q') (leads : Bool)
    (length : changes'.length = changes.length) :
    SameCounts (q.offerAll leads changes) (q'.offerAll leads changes') := by
  induction changes generalizing q q' changes' with
  | nil =>
    rw [List.length_nil, List.length_eq_zero_iff] at length
    rw [length]
    exact h
  | cons change changes ih =>
    cases changes' with
    | nil => cases length
    | cons change' changes' =>
      have rest := ih (h.offer leads change change') (Nat.succ.inj length)
      exact rest

theorem offerAll_append (q : Queue) (leads : Bool) (changes changes' : List StatusChange) :
    q.offerAll leads (changes ++ changes') = (q.offerAll leads changes).offerAll leads changes' :=
  List.foldl_append

theorem takes_offerAll (leads : Bool) (q : Queue) (changes : List StatusChange) :
    q.Takes leads changes (q.offerAll leads changes) := by
  induction changes generalizing q with
  | nil => exact .nil leads q
  | cons change changes ih => exact (takes_offer leads q change).append (ih _)

/-- Where nothing is lost in the end, nothing was lost on the way. -/
theorem Lossless.of_takes (h : Lossless leads q q'') (first : q.Takes leads changes q')
    (later : q'.Takes leads changes' q'') : Lossless leads q q' ∧ Lossless leads q' q'' := by
  obtain ⟨hleads, isOpen, none⟩ := h
  have := first.dropped
  have := later.dropped
  exact ⟨⟨hleads, isOpen, by omega⟩, hleads, first.isOpen.trans isOpen, by omega⟩

/-- If one queue had room for all that was offered to it, then so has the other for as much. -/
theorem SameCounts.lossless {r r' : Queue} (h : SameCounts q q') (hr : r = q.offerAll leads changes)
    (hr' : r' = q'.offerAll leads changes') (perm : changes.Perm changes')
    (lossless : Lossless leads q r) : Lossless leads q' r' := by
  have after := h.offerAll leads perm.length_eq.symm
  rw [← hr, ← hr'] at after
  exact ⟨lossless.1, h.isOpen.trans lossless.2.1,
    by rw [after.overflowed, lossless.2.2, h.overflowed]⟩

end Queue

/-- A record is known by its parts at rest and by what is pending. -/
theorem PolicyRecord.eq_of_atRest {o o' : Option PolicyRecord}
    (rest : o'.map atRest = o.map atRest) (same : o'.bind pending = o.bind pending) : o' = o := by
  cases o with
  | none => simpa using rest
  | some s =>
    obtain ⟨s', rfl, hs⟩ := Option.map_eq_some_iff.1 rest
    rw [Option.bind_some, Option.bind_some] at same
    rw [atRest_eq_iff.1 hs, same]

/-- What is blocked in one review is all marked with one condition. -/
theorem Review.condition_of_mem_recordAll {reporter : Reporter} {ref : PolicyKey}
    {generation : Option Int} {now : Instant} {register : Register} {entries : List AncestryEntry}
    {b : Target × Condition} (h : b ∈ (recordAll reporter ref generation now register entries).2) :
    b.2 = Unrecordable.condition ref.kind.name ref.id now := by
  let Told (acc : Register × List (Target × Condition)) : Prop :=
    ∀ b ∈ acc.2, b.2 = Unrecordable.condition ref.kind.name ref.id now
  have told : Told (entries.foldl (record reporter ref generation now) (register, [])) := by
    apply List.foldlRecOn entries (record reporter ref generation now) (motive := Told)
    · simp [Told]
    · rintro ⟨register, blocked⟩ ih e -
      rw [record_eq]
      split
      · exact ih
      · intro b hb
        rcases List.mem_append.1 hb with hb | hb
        · exact ih b hb
        · rw [List.mem_singleton.1 hb]
  exact told b h

namespace Tracker

variable {leads force retry : Bool} {m : Moment} {kind : PolicyKind} {tr tr' tr'' : Tracker}

/-- `tr'` is `tr`, its tables in whatever order. -/
structure Shuffled (tr tr' : Tracker) : Prop where
  contents : SameContents tr tr'
  queue : tr'.queue = tr.queue

/-- Both trackers hold the same in whatever order, and as many changes wait in their queues. -/
structure Alike (tr tr' : Tracker) : Prop where
  contents : SameContents tr tr'
  queue : tr.queue.SameCounts tr'.queue

theorem Shuffled.refl (tr : Tracker) : Shuffled tr tr := ⟨.refl tr, rfl⟩

/-- The order of the tables does not matter to being alike. -/
theorem Alike.shuffle {start start' : Tracker} (h : Alike tr tr') (order : Shuffled tr start)
    (order' : Shuffled tr' start') : Alike start start' where
  contents := (order.contents.symm.trans h.contents).trans order'.contents
  queue := by
    rw [order.queue, order'.queue]
    exact h.queue

/-- `tr` became `mid` and `tr'` became `mid'`: they are alike, and the same changes came into the
queues, each in some order. -/
structure InStep (tr tr' mid mid' : Tracker) : Prop where
  alike : Alike mid mid'
  batches : ∃ batch batch', mid.queue.waiting = tr.queue.waiting ++ batch ∧
    mid'.queue.waiting = tr'.queue.waiting ++ batch' ∧ batch.Perm batch'

/-- The queues took in what was offered to them. -/
theorem inStep_of_queue {mid mid' : Tracker} {changes changes' : List StatusChange}
    (h : tr.queue.SameCounts tr'.queue) (contents : SameContents mid mid')
    (queue : mid.queue = tr.queue.offerAll leads changes)
    (queue' : mid'.queue = tr'.queue.offerAll leads changes') (perm : changes.Perm changes')
    (lossless : Queue.Lossless leads tr.queue mid.queue) : InStep tr tr' mid mid' := by
  have counts : mid.queue.SameCounts mid'.queue := by
    rw [queue, queue']
    exact h.offerAll leads perm.length_eq.symm
  obtain ⟨-, isOpen', none'⟩ := h.lossless queue queue' perm lossless
  obtain ⟨hleads, isOpen, none⟩ := lossless
  refine ⟨⟨contents, counts⟩, changes, changes', ?_, ?_, perm⟩
  · rw [queue] at none ⊢
    exact (Queue.takes_offerAll leads tr.queue changes).all hleads isOpen none
  · rw [queue'] at none' ⊢
    exact (Queue.takes_offerAll leads tr'.queue changes').all hleads isOpen' none'

theorem InStep.trans {mid mid' last last' : Tracker} (h : InStep tr tr' mid mid')
    (h' : InStep mid mid' last last') : InStep tr tr' last last' where
  alike := h'.alike
  batches := by
    obtain ⟨batch, batch', waiting, waiting', perm⟩ := h.batches
    obtain ⟨more, more', waiting₁, waiting₁', perm'⟩ := h'.batches
    exact ⟨batch ++ more, batch' ++ more', by rw [waiting₁, waiting, List.append_assoc],
      by rw [waiting₁', waiting', List.append_assoc], perm.append perm'⟩

section Marking

variable {marks marks' : Table Target Marks} {blocked blocked' : List (Target × PolicyKey × Condition)}

/-- The marks that were just made, if there is one for each policy and ancestor, else the marks that
were there before. -/
theorem markIn?_foldl_mark_of_mem (once : ∀ {a ref c d}, (a, ref, c) ∈ blocked →
      (a, ref, d) ∈ blocked → c = d) {a : Target} {ref : PolicyKey} {c : Condition}
    (h : (a, ref, c) ∈ blocked) (marks : Table Target Marks) :
    markIn? (blocked.foldl (fun marks (ancestor, ref, condition) =>
        mark marks ancestor ref condition) marks) a ref = some c := by
  induction blocked generalizing marks with
  | nil => nomatch h
  | cons b blocked ih =>
    rw [List.foldl_cons]
    by_cases later : ∃ d, (a, ref, d) ∈ blocked
    · obtain ⟨d, hd⟩ := later
      obtain rfl := once h (List.mem_cons_of_mem _ hd)
      exact ih (fun hc hd => once (List.mem_cons_of_mem _ hc) (List.mem_cons_of_mem _ hd)) hd _
    · rw [not_exists] at later
      obtain rfl := (List.mem_cons.1 h).resolve_right (later c)
      rw [markIn?_foldl_mark_of_not_mem later, markIn?_mark, if_pos ⟨rfl, rfl⟩]

/-- If every marked ancestor has a mark, then it is one on which some policy is marked. -/
theorem contains_iff_markIn? (filled : ∀ a ms, marks.get? a = some ms → ms.isEmpty = false)
    (a : Target) : marks.contains a = true ↔ ∃ ref, (markIn? marks a ref).isSome := by
  unfold Table.contains markIn?
  cases hms : marks.get? a with
  | none => simp
  | some ms =>
    obtain ⟨⟨ref, c⟩, entries, heq⟩ : ∃ e es, ms.entries = e :: es := by
      have nonempty := filled a ms hms
      rwa [Table.isEmpty, List.isEmpty_eq_false_iff, List.ne_nil_iff_exists_cons] at nonempty
    have held : ms.get? ref = some c := Table.mem_entries_iff.1 (heq ▸ List.mem_cons_self)
    simp only [Option.isSome_some, Option.bind_some, true_iff]
    exact ⟨ref, by rw [held, Option.isSome_some]⟩

/-- The marks after a pass do not depend on the order in which the policies were blocked. -/
theorem SameMarks.remark (h : SameMarks marks marks') (kind : PolicyKind)
    (perm : blocked.Perm blocked') (once : ∀ {a ref c d}, (a, ref, c) ∈ blocked →
      (a, ref, d) ∈ blocked → c = d) :
    SameMarks (remark marks kind blocked) (Tracker.remark marks' kind blocked') := by
  have once' : ∀ {a ref c d}, (a, ref, c) ∈ blocked' → (a, ref, d) ∈ blocked' → c = d :=
    fun hc hd => once (perm.mem_iff.2 hc) (perm.mem_iff.2 hd)
  have same : ∀ a ref, Tracker.markIn? (Tracker.remark marks' kind blocked') a ref =
      Tracker.markIn? (Tracker.remark marks kind blocked) a ref := by
    intro a ref
    unfold Tracker.remark
    rw [markIn?_filter_nonempty, markIn?_filter_nonempty]
    by_cases made : ∃ c, (a, ref, c) ∈ blocked
    · obtain ⟨c, hc⟩ := made
      rw [markIn?_foldl_mark_of_mem once hc, markIn?_foldl_mark_of_mem once' (perm.mem_iff.1 hc)]
    · have absent : ∀ c, (a, ref, c) ∉ blocked := not_exists.1 made
      rw [markIn?_foldl_mark_of_not_mem fun c hc => absent c (perm.mem_iff.2 hc),
        markIn?_foldl_mark_of_not_mem absent, markIn?_unmarked, markIn?_unmarked, h.markIn?]
  have filled : ∀ (marks : Table Target Marks) blocked a ms,
      (Tracker.remark marks kind blocked).get? a = some ms → ms.isEmpty = false := by
    intro marks blocked a ms hms
    rw [Tracker.remark, Table.get?_filter, Option.filter_eq_some_iff] at hms
    simpa using hms.2
  refine ⟨fun a => ?_, same⟩
  rw [Bool.eq_iff_iff, contains_iff_markIn? (filled _ _), contains_iff_markIn? (filled _ _)]
  simp only [same]

end Marking

section Passing

/-- The statuses that a pass over a kind offers to the queue. -/
def duesIn (tr : Tracker) (m : Moment) (retry : Bool) (kind : PolicyKind) : List Due :=
  allDue retry kind ((tr.reviewsIn m.now kind).mapValues fun _ r => r.state)

/-- Sending statuses changes no more than the queue and the records. -/
theorem foldl_send_eq (leads : Bool) (due : List Due) (tr : Tracker) :
    due.foldl (send leads) tr =
      { tr with
        queue := tr.queue.offerAll leads (due.map Due.change)
        policies := (due.foldl (send leads) tr).policies } := by
  induction due generalizing tr with
  | nil => rfl
  | cons d due ih =>
    have first : send leads tr d =
        { tr with
          queue := (tr.queue.offer leads d.change).2
          policies := (send leads tr d).policies } := by
      unfold send
      rw [← Due.change]
      generalize tr.queue.offer leads d.change = out
      obtain ⟨sent, queue⟩ := out
      cases sent with
      | false => rfl
      | true => cases tr.policies.get? d.ref <;> rfl
    rw [List.foldl_cons, ih, first]
    rfl

/-- A pass over a kind as a whole: the records of the kind are reviewed, the marks set, and the
statuses that are due offered. -/
theorem passOver_eq (m : Moment) (retry : Bool) (tr : Tracker) (kind : PolicyKind) :
    tr.passOver m retry kind =
      { tr with
        queue := tr.queue.offerAll m.leads ((tr.duesIn m retry kind).map Due.change)
        policies := (tr.passOver m retry kind).policies
        marks := remark tr.marks kind (allBlocked (tr.reviewsIn m.now kind))
        turnedAway := tr.turnedAway + (allBlocked (tr.reviewsIn m.now kind)).length } :=
  foldl_send_eq m.leads _ _

/-- What is shown on an ancestor that finds no room depends on the policy alone. -/
theorem condition_of_mem_blocked {now : Instant} {ref : PolicyKey} {s : PolicyRecord} {a : Target}
    {c : Condition} (h : (a, c) ∈ (tr.review now ref s).blocked) :
    c = Unrecordable.condition ref.kind.name ref.id now := by
  unfold review at h
  by_cases hk : ref.kind.reportsByAncestor = true
  · simp only [hk, if_true] at h
    exact Review.condition_of_mem_recordAll h
  · simp [hk] at h

/-- A policy blocks an ancestor with one condition. -/
theorem once_allBlocked {a : Target} {ref : PolicyKey} {c d : Condition} {now : Instant}
    (hc : (a, ref, c) ∈ allBlocked (tr.reviewsIn now kind))
    (hd : (a, ref, d) ∈ allBlocked (tr.reviewsIn now kind)) : c = d := by
  obtain ⟨-, s, -, hc⟩ := mem_blocked_reviewsIn_iff.1 hc
  obtain ⟨-, t, -, hd⟩ := mem_blocked_reviewsIn_iff.1 hd
  rw [condition_of_mem_blocked hc, condition_of_mem_blocked hd]

variable (h : SameContents tr tr')
include h

/-- The same statuses are due in every order of the tables. -/
theorem SameContents.duesIn (m : Moment) (retry : Bool) (kind : PolicyKind) :
    (tr.duesIn m retry kind).Perm (tr'.duesIn m retry kind) :=
  List.Perm.filterMap _ ((h.reviewsIn m.now kind).mapValues fun _ _ => rfl)

theorem SameContents.dueFor (m : Moment) (retry : Bool) (kind : PolicyKind) (ref : PolicyKey) :
    tr'.dueFor m retry kind ref = tr.dueFor m retry kind ref := by
  simp only [Tracker.dueFor, h.policies.get?, h.review]

/-- Each policy has the same record after a pass, if nothing is lost. -/
theorem SameContents.policies_passOver
    (lossless : Queue.Lossless m.leads tr.queue (tr.passOver m retry kind).queue)
    (lossless' : Queue.Lossless m.leads tr'.queue (tr'.passOver m retry kind).queue) :
    Reorders (tr.passOver m retry kind).policies (tr'.passOver m retry kind).policies := by
  apply Table.reorders_of_get?
  intro ref
  apply PolicyRecord.eq_of_atRest
  · have records := congrArg (·.get? ref) (passed_passOver m retry tr kind).records
    have records' := congrArg (·.get? ref) (passed_passOver m retry tr' kind).records
    simp only [Table.get?_mapValues, h.policies.get?, h.reviewIn] at records records'
    rw [records, records']
  · have pending : (Channel.status ref).memory _ = _ :=
      (relays_status_passOver m retry tr kind ref).memory_of_lossless lossless
    have pending' : (Channel.status ref).memory _ = _ :=
      (relays_status_passOver m retry tr' kind ref).memory_of_lossless lossless'
    have before : (Channel.status ref).memory tr' = (Channel.status ref).memory tr := by
      simp only [Channel.status, h.policies.get?]
    rw [before, h.dueFor, ← pending] at pending'
    exact pending'

/-- Two passes over the same in whatever order. -/
theorem SameContents.passOver (counts : tr.queue.SameCounts tr'.queue)
    (lossless : Queue.Lossless m.leads tr.queue (tr.passOver m retry kind).queue) :
    InStep tr tr' (tr.passOver m retry kind) (tr'.passOver m retry kind) := by
  have blocked : (allBlocked (tr.reviewsIn m.now kind)).Perm (allBlocked (tr'.reviewsIn m.now kind)) :=
    List.Perm.flatMap_right _ (h.reviewsIn m.now kind)
  have changes := (h.duesIn m retry kind).map Due.change
  have eq := passOver_eq m retry tr kind
  have eq' := passOver_eq m retry tr' kind
  have queue := congrArg Tracker.queue eq
  have queue' := congrArg Tracker.queue eq'
  have policies : Reorders (tr.passOver m retry kind).policies (tr'.passOver m retry kind).policies :=
    h.policies_passOver lossless (counts.lossless queue queue' changes lossless)
  refine inStep_of_queue counts ?_ queue queue' changes lossless
  rw [eq, eq']
  exact ⟨h.reporter, policies, h.targets, h.routes, h.marks.remark kind blocked once_allBlocked,
    h.flagged, by rw [h.turnedAway, blocked.length_eq]⟩

end Passing

section Syncing

/-- Shows the conditions that the marks ask for. -/
def showFlags (m : Moment) (force : Bool) (tr : Tracker) : Tracker :=
  tr.desired.foldl (flag m.leads force) tr

/-- The ancestors that show a condition and are no longer marked. -/
def stale (tr : Tracker) : List Target :=
  tr.flagged.keys.filter fun a => !tr.marks.contains a

/-- Clears the conditions that no mark asks for. -/
def clearFlags (m : Moment) (tr : Tracker) : Tracker := tr.stale.foldl (unflag m.leads) tr

theorem takes_showFlags (m : Moment) (force : Bool) (tr : Tracker) :
    ∃ offered, tr.queue.Takes m.leads offered (tr.showFlags m force).queue := by
  obtain ⟨offered, -, sends, -⟩ := sendsFlags_foldl (sendsFlags_flag m.leads force) tr.desired tr
  exact ⟨offered, sends.queue⟩

theorem takes_clearFlags (m : Moment) (tr : Tracker) :
    ∃ offered, tr.queue.Takes m.leads offered (tr.clearFlags m).queue := by
  obtain ⟨offered, -, sends, -⟩ := sendsFlags_foldl (sendsFlags_unflag m.leads) tr.stale tr
  exact ⟨offered, sends.queue⟩

/-- The change that shows a condition, unless it is there already. -/
def showing? (force : Bool) (flagged : Table Target String) (desired : Target × Condition) :
    Option StatusChange :=
  if !force && flagged.get? desired.1 == some desired.2.message then none
  else StatusChange.flag? desired.1 (some desired.2)

/-- Showing a condition offers it unless it is shown, and takes it down if the queue had room. -/
theorem flag_eq (leads force : Bool) (tr : Tracker) (desired : Target × Condition) :
    flag leads force tr desired =
      { tr with
        queue := tr.queue.offerAll leads (showing? force tr.flagged desired).toList
        flagged := (flag leads force tr desired).flagged } := by
  simp only [flag, showing?]
  split
  · rfl
  · cases StatusChange.flag? desired.1 (some desired.2) with
    | none => rfl
    | some change =>
      simp only
      split <;> rfl

theorem get?_flagged_flag_of_ne {desired : Target × Condition} {t : Target} (h : t ≠ desired.1)
    (tr : Tracker) : (flag leads force tr desired).flagged.get? t = tr.flagged.get? t := by
  simp only [flag]
  split
  · rfl
  · cases StatusChange.flag? desired.1 (some desired.2) with
    | none => rfl
    | some change =>
      simp only
      split
      · rw [Table.get?_insert, if_neg h]
      · rfl

/-- What is shown on one ancestor decides nothing about another. -/
theorem foldl_flag_eq (leads force : Bool) {ds : List (Target × Condition)}
    (nodup : (ds.map Prod.fst).Nodup) (tr : Tracker) :
    ds.foldl (flag leads force) tr =
      { tr with
        queue := tr.queue.offerAll leads (ds.filterMap (showing? force tr.flagged))
        flagged := (ds.foldl (flag leads force) tr).flagged } := by
  induction ds generalizing tr with
  | nil => rfl
  | cons d ds ih =>
    rw [List.map_cons, List.nodup_cons] at nodup
    have later : ds.filterMap (showing? force (flag leads force tr d).flagged) =
        ds.filterMap (showing? force tr.flagged) := by
      apply List.filterMap_congr
      intro e he
      have other : e.1 ≠ d.1 := fun heq => nodup.1 (heq ▸ List.mem_map_of_mem he)
      rw [showing?, showing?, get?_flagged_flag_of_ne other]
    have split : (d :: ds).filterMap (showing? force tr.flagged) =
        (showing? force tr.flagged d).toList ++ ds.filterMap (showing? force tr.flagged) := by
      cases hd : showing? force tr.flagged d <;> simp [hd]
    rw [List.foldl_cons, ih nodup.2, later, split, Queue.offerAll_append, flag_eq]

theorem unflag_eq (leads : Bool) (tr : Tracker) (a : Target) :
    unflag leads tr a =
      { tr with
        queue := tr.queue.offerAll leads (StatusChange.flag? a none).toList
        flagged := (unflag leads tr a).flagged } := by
  simp only [unflag]
  cases StatusChange.flag? a none with
  | none => rfl
  | some change =>
    simp only
    split <;> rfl

theorem foldl_unflag_eq (leads : Bool) (as : List Target) (tr : Tracker) :
    as.foldl (unflag leads) tr =
      { tr with
        queue := tr.queue.offerAll leads (as.filterMap fun a => StatusChange.flag? a none)
        flagged := (as.foldl (unflag leads) tr).flagged } := by
  induction as generalizing tr with
  | nil => rfl
  | cons a as ih =>
    have split : (a :: as).filterMap (fun a => StatusChange.flag? a none) =
        (StatusChange.flag? a none).toList ++ as.filterMap fun a => StatusChange.flag? a none := by
      cases ha : StatusChange.flag? a none <;> simp [ha]
    rw [List.foldl_cons, ih, split, Queue.offerAll_append, unflag_eq]

theorem flagged_unflag_of_lossless {a : Target}
    (lossless : Queue.Lossless leads tr.queue (unflag leads tr a).queue) :
    (unflag leads tr a).flagged = tr.flagged.erase a := by
  simp only [unflag] at lossless ⊢
  cases hc : StatusChange.flag? a none with
  | none => rfl
  | some change =>
    obtain ⟨q', hq, -⟩ | ⟨q', hq, -, -, -, lost⟩ := tr.queue.offer_cases leads change
    · simp only [hq, if_true]
    · simp only [hc, hq, if_false, Bool.false_eq_true] at lossless
      exact absurd lossless lost

/-- Where nothing is lost, just the ancestors that were to be cleared are. -/
theorem get?_flagged_foldl_unflag {as : List Target}
    (lossless : Queue.Lossless leads tr.queue (as.foldl (unflag leads) tr).queue) (t : Target) :
    (as.foldl (unflag leads) tr).flagged.get? t = if t ∈ as then none else tr.flagged.get? t := by
  induction as generalizing tr with
  | nil => rfl
  | cons a as ih =>
    obtain ⟨_, _, takes, -⟩ := sendsFlags_unflag leads tr a
    obtain ⟨_, _, takes', -⟩ := sendsFlags_foldl (sendsFlags_unflag leads) as (unflag leads tr a)
    obtain ⟨before, after⟩ := lossless.of_takes takes.queue takes'.queue
    rw [List.foldl_cons, ih after, flagged_unflag_of_lossless before, Table.get?_erase]
    by_cases ht : t = a <;> simp [ht]

section Alike

variable (h : SameContents tr tr')
include h

theorem SameContents.desired : tr.desired.Perm tr'.desired := by
  apply (List.perm_ext_iff_of_nodup tr.nodup_desired.of_map tr'.nodup_desired.of_map).2
  rintro ⟨t, c⟩
  rw [mem_desired_iff, mem_desired_iff, h.marks.first?]

theorem SameContents.stale : tr.stale.Perm tr'.stale := by
  have unmarked : (fun a => !tr'.marks.contains a) = fun a => !tr.marks.contains a :=
    funext fun a => by rw [h.marks.contains]
  unfold Tracker.stale
  rw [unmarked]
  exact h.flagged.keys.filter _

theorem SameContents.flagsDue (force : Bool) (t : Target) :
    tr'.flagsDue force t = tr.flagsDue force t := by
  simp only [Tracker.flagsDue, wanted?, h.marks.contains, h.marks.first?, h.flagged.get?]

variable (counts : tr.queue.SameCounts tr'.queue)
include counts

/-- In every order the same conditions are shown. -/
theorem SameContents.showFlags
    (lossless : Queue.Lossless m.leads tr.queue (tr.showFlags m force).queue) :
    InStep tr tr' (tr.showFlags m force) (tr'.showFlags m force) := by
  have changes : (tr.desired.filterMap (showing? force tr.flagged)).Perm
      (tr'.desired.filterMap (showing? force tr'.flagged)) := by
    have same : showing? force tr'.flagged = showing? force tr.flagged := by
      funext d
      rw [showing?, showing?, h.flagged.get?]
    rw [same]
    exact h.desired.filterMap _
  have eq := foldl_flag_eq m.leads force tr.nodup_desired tr
  have eq' := foldl_flag_eq m.leads force tr'.nodup_desired tr'
  rw [← Tracker.showFlags] at eq eq'
  have queue := congrArg Tracker.queue eq
  have queue' := congrArg Tracker.queue eq'
  have lossless' := counts.lossless queue queue' changes lossless
  have flagged : Reorders (tr.showFlags m force).flagged (tr'.showFlags m force).flagged := by
    apply Table.reorders_of_get?
    intro t
    have shown : (tr.showFlags m force).flagged.get? t = _ :=
      (relays_flag_shown m.leads force tr t).memory_of_lossless lossless
    have shown' : (tr'.showFlags m force).flagged.get? t = _ :=
      (relays_flag_shown m.leads force tr' t).memory_of_lossless lossless'
    have before : (Channel.flag t).memory tr' = (Channel.flag t).memory tr := h.flagged.get? t
    rw [shown', shown, before, h.marks.contains, h.flagsDue]
  refine inStep_of_queue counts ?_ queue queue' changes lossless
  rw [eq, eq']
  exact { h with flagged }

theorem SameContents.clearFlags
    (lossless : Queue.Lossless m.leads tr.queue (tr.clearFlags m).queue) :
    InStep tr tr' (tr.clearFlags m) (tr'.clearFlags m) := by
  have changes := h.stale.filterMap fun a => StatusChange.flag? a none
  have eq := foldl_unflag_eq m.leads tr.stale tr
  have eq' := foldl_unflag_eq m.leads tr'.stale tr'
  rw [← Tracker.clearFlags] at eq eq'
  have queue := congrArg Tracker.queue eq
  have queue' := congrArg Tracker.queue eq'
  have lossless' := counts.lossless queue queue' changes lossless
  have flagged : Reorders (tr.clearFlags m).flagged (tr'.clearFlags m).flagged := by
    apply Table.reorders_of_get?
    intro t
    rw [Tracker.clearFlags, Tracker.clearFlags, get?_flagged_foldl_unflag lossless',
      get?_flagged_foldl_unflag lossless, h.flagged.get?]
    simp only [h.stale.mem_iff]
  refine inStep_of_queue counts ?_ queue queue' changes lossless
  rw [eq, eq']
  exact { h with flagged }

end Alike

end Syncing

/-- The end of a pass over a kind, once the policies are reviewed. -/
def conclude (m : Moment) (retry : Bool) (kind : PolicyKind) (tr : Tracker)
    (reviews : Table PolicyKey Review) : Tracker :=
  (allDue retry kind (reviews.mapValues fun _ r => r.state)).foldl (send m.leads)
    { tr with
      policies := reviews.mapValues fun _ r => r.state
      marks := remark tr.marks kind (allBlocked reviews)
      turnedAway := tr.turnedAway + (allBlocked reviews).length }

/-- The pass that runs is the one that reviews in the order of the table. -/
theorem conclude_reviewsIn (m : Moment) (retry : Bool) (kind : PolicyKind) (tr : Tracker) :
    tr.conclude m retry kind (tr.reviewsIn m.now kind) = tr.passOver m retry kind := rfl

/-- Steps that start from other orders of the tables are in step as well. -/
theorem InStep.of_shuffled {start start' mid mid' : Tracker} (h : InStep start start' mid mid')
    (order : Shuffled tr start) (order' : Shuffled tr' start') : InStep tr tr' mid mid' where
  alike := h.alike
  batches := by
    rw [← order.queue, ← order'.queue]
    exact h.batches

end Tracker

namespace Stage

open Tracker (Shuffled InStep)

variable {m : Moment} {tr tr' mid mid' last last' : Tracker} {a a' : Stage} {as as' : List Stage}
  {batches batches' : List (List StatusChange)}

/-- What a stage can lead to if every table may be in another order each time that it is gone through. -/
inductive AnyOrder (m : Moment) (tr : Tracker) : Stage → Tracker → Prop where
  | place (targets : Table Target Unit) (routes : Table Target RouteLinks) :
      AnyOrder m tr (.place targets routes) { tr with targets, routes }
  /-- The review of each policy finds the other policies and the routes in an order of its own. -/
  | pass {retry : Bool} {kind : PolicyKind} {via : PolicyKey → Tracker} {start : Tracker}
      {reviews : Table PolicyKey Review} (reviewed : ∀ ref, Shuffled tr (via ref))
      (concluded : Shuffled tr start)
      (order : Reorders reviews
        (start.policies.mapValues fun ref s => (via ref).reviewIn m.now kind ref s)) :
      AnyOrder m tr (.pass retry kind) (start.conclude m retry kind reviews)
  | sync {force : Bool} {start shown : Tracker} (marked : Shuffled tr start)
      (flagged : Shuffled (start.showFlags m force) shown) :
      AnyOrder m tr (.sync force) (shown.clearFlags m)

/-- The orders of the tables as they are are some. -/
theorem anyOrder_run (m : Moment) (tr : Tracker) (a : Stage) : AnyOrder m tr a (a.run m tr) := by
  cases a with
  | place targets routes => exact .place targets routes
  | pass retry kind => exact .pass (fun _ => .refl tr) (.refl tr) (.refl _)
  | sync force => exact .sync (.refl tr) (.refl _)

/-- As the review of each policy is the same in every order, one order is enough for a whole pass: that
in which the reviews come. -/
theorem AnyOrder.exists_passOver {retry : Bool} {kind : PolicyKind}
    (h : AnyOrder m tr (.pass retry kind) mid) :
    ∃ start, Shuffled tr start ∧ mid = start.passOver m retry kind := by
  cases h with
  | @pass _ _ via start reviews reviewed concluded order =>
    obtain ⟨policies, same, rfl⟩ := order.exists_mapValues
    let turned : Tracker := { start with policies }
    have shuffled : Shuffled start turned :=
      ⟨{ Tracker.SameContents.refl start with policies := same }, rfl⟩
    refine ⟨turned, ⟨concluded.contents.trans shuffled.contents, concluded.queue⟩, ?_⟩
    have reviews : turned.reviewsIn m.now kind =
        policies.mapValues fun ref s => (via ref).reviewIn m.now kind ref s := by
      have each : turned.reviewIn m.now kind = fun ref s => (via ref).reviewIn m.now kind ref s := by
        funext ref s
        have back := (reviewed ref).contents.symm.trans
          (concluded.contents.trans shuffled.contents)
        exact back.reviewIn m.now kind ref s
      rw [Tracker.reviewsIn, each]
    rw [← Tracker.conclude_reviewsIn, reviews]
    rfl

/-- In whatever order, a stage only adds to the queue. -/
theorem AnyOrder.takes (h : AnyOrder m tr a mid) :
    ∃ offered, tr.queue.Takes m.leads offered mid.queue := by
  cases a with
  | place targets routes =>
    cases h
    exact ⟨[], .nil m.leads tr.queue⟩
  | pass retry kind =>
    obtain ⟨start, order, rfl⟩ := h.exists_passOver
    obtain ⟨due, takes, -⟩ := (Tracker.passed_passOver m retry start kind).queue
    exact ⟨_, order.queue ▸ takes⟩
  | sync force =>
    cases h with
    | @sync _ start shown marked flagged =>
      obtain ⟨offered, takes⟩ := Tracker.takes_showFlags m force start
      obtain ⟨later, takes'⟩ := Tracker.takes_clearFlags m shown
      rw [marked.queue] at takes
      rw [flagged.queue] at takes'
      exact ⟨_, takes.append takes'⟩

/-- Two stages that bring in the same in whatever order. -/
inductive Alike : Stage → Stage → Prop where
  | place {targets targets' : Table Target Unit} {routes routes' : Table Target RouteLinks}
      (ht : Reorders targets targets') (hr : Reorders routes routes') :
      Alike (.place targets routes) (.place targets' routes')
  | pass (retry : Bool) (kind : PolicyKind) : Alike (.pass retry kind) (.pass retry kind)
  | sync (force : Bool) : Alike (.sync force) (.sync force)

/-- One stage, gone through in two orders. -/
theorem AnyOrder.inStep (same : a.Alike a') (h : Tracker.Alike tr tr') (left : AnyOrder m tr a mid)
    (right : AnyOrder m tr' a' mid') (lossless : Queue.Lossless m.leads tr.queue mid.queue) :
    InStep tr tr' mid mid' := by
  cases same with
  | place ht hr =>
    cases left
    cases right
    exact ⟨⟨{ h.contents with targets := ht, routes := hr }, h.queue⟩, [], [],
      (List.append_nil _).symm, (List.append_nil _).symm, .refl _⟩
  | pass retry kind =>
    obtain ⟨start, order, rfl⟩ := left.exists_passOver
    obtain ⟨start', order', rfl⟩ := right.exists_passOver
    have begin := h.shuffle order order'
    rw [← order.queue] at lossless
    exact (begin.contents.passOver begin.queue lossless).of_shuffled order order'
  | sync force =>
    cases left with
    | @sync _ start shown marked flagged =>
      cases right with
      | @sync _ start' shown' marked' flagged' =>
        obtain ⟨_, takes⟩ := Tracker.takes_showFlags m force start
        obtain ⟨_, takes'⟩ := Tracker.takes_clearFlags m shown
        rw [flagged.queue] at takes'
        rw [← marked.queue] at lossless
        obtain ⟨first, later⟩ := lossless.of_takes takes takes'
        rw [← flagged.queue] at later
        have begin := h.shuffle marked marked'
        have shows := begin.contents.showFlags begin.queue first
        have between := shows.alike.shuffle flagged flagged'
        have clears := between.contents.clearFlags between.queue later
        exact (shows.of_shuffled marked marked').trans (clears.of_shuffled flagged flagged')

/-- Stages that follow one another, each with the changes that it puts into the queue. -/
inductive Course (m : Moment) : Tracker → List Stage → List (List StatusChange) → Tracker → Prop where
  | done (tr : Tracker) : Course m tr [] [] tr
  | next {tr mid last : Tracker} {a : Stage} {as : List Stage} {batch : List StatusChange}
      {batches : List (List StatusChange)} (stage : AnyOrder m tr a mid)
      (waiting : mid.queue.waiting = tr.queue.waiting ++ batch) (rest : Course m mid as batches last) :
      Course m tr (a :: as) (batch :: batches) last

theorem Course.takes (h : Course m tr as batches last) :
    ∃ offered, tr.queue.Takes m.leads offered last.queue := by
  induction h with
  | done tr => exact ⟨[], .nil m.leads tr.queue⟩
  | next stage _ _ ih =>
    obtain ⟨offered, takes⟩ := stage.takes
    obtain ⟨later, takes'⟩ := ih
    exact ⟨_, takes.append takes'⟩

/-- The stages as they are run are one course. -/
theorem exists_course (m : Moment) (tr : Tracker) (as : List Stage) :
    ∃ batches, Course m tr as batches (runAll m tr as) := by
  induction as generalizing tr with
  | nil => exact ⟨[], .done tr⟩
  | cons a as ih =>
    have stage := anyOrder_run m tr a
    obtain ⟨offered, takes⟩ := stage.takes
    obtain ⟨batch, -, waiting⟩ := takes.taken
    obtain ⟨batches, rest⟩ := ih (a.run m tr)
    exact ⟨batch :: batches, .next stage waiting rest⟩

/-- Two courses of the same stages end alike, and stage by stage they put the same changes into the
queue, each in some order. -/
theorem Course.alike (left : Course m tr as batches last) (right : Course m tr' as' batches' last')
    (same : List.Forall₂ Alike as as') (h : Tracker.Alike tr tr')
    (lossless : Queue.Lossless m.leads tr.queue last.queue) :
    Tracker.Alike last last' ∧ List.Forall₂ List.Perm batches batches' := by
  induction left generalizing tr' as' batches' with
  | done tr =>
    cases same
    cases right
    exact ⟨h, .nil⟩
  | next stage waiting rest ih =>
    cases same with
    | cons first others =>
      cases right with
      | next stage' waiting' rest' =>
        obtain ⟨_, takes⟩ := stage.takes
        obtain ⟨_, takes'⟩ := rest.takes
        obtain ⟨before, after⟩ := lossless.of_takes takes takes'
        have step := stage.inStep first h stage' before
        obtain ⟨batch, batch', added, added', perm⟩ := step.batches
        obtain rfl := List.append_cancel_left (waiting.symm.trans added)
        obtain rfl := List.append_cancel_left (waiting'.symm.trans added')
        obtain ⟨alike, perms⟩ := ih rest' others step.alike after
        exact ⟨alike, .cons perm perms⟩

end Stage
end PolicyAttachment
