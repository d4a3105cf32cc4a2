import PolicyAttachment.Proofs.Tracker.Course

/-!
# What is enqueued for one object

Of the changes that it puts into the queue for one object, the tracker remembers the last: a status as
pending, the message on an ancestor as flagged. `Relays` says for either what some part of the course
offers to the queue, and that what found a place is remembered. A pass offers the status that is due
for a policy, and bringing the conditions on ancestors up to date offers what `flagsDue` says.
-/

namespace PolicyAttachment
set_option autoImplicit false

namespace Table

variable {κ ν α : Type} [DecidableEq κ]

/-- Of the entries only the one with the key matters. -/
theorem filterMap_entries {t : Table κ ν} (key : κ) {g : κ × ν → Option α}
    (h : ∀ k v, k ≠ key → g (k, v) = none) :
    t.entries.filterMap g = ((t.get? key).bind fun v => g (key, v)).toList := by
  obtain ⟨entries, nodup⟩ := t
  simp only [get?]
  induction entries with
  | nil => rfl
  | cons e es ih =>
    obtain ⟨k, v⟩ := e
    rw [List.map_cons, List.nodup_cons] at nodup
    have rest := ih nodup.2
    by_cases hk : key = k
    · subst hk
      have absent : es.lookup key = none := by
        cases hl : es.lookup key with
        | none => rfl
        | some w =>
          have hm := (lookup_eq_some_iff nodup.2).1 hl
          exact absurd (List.mem_map_of_mem (f := Prod.fst) hm) nodup.1
      rw [absent, Option.bind_none, Option.toList_none] at rest
      rw [List.filterMap_cons, rest, List.lookup_cons_self, Option.bind_some]
      cases g (key, v) <;> rfl
    · rw [List.filterMap_cons, h k v (Ne.symm hk), List.lookup_cons, beq_eq_false_iff_ne.2 hk]
      exact rest

end Table

namespace Queue

/-- `q'` came from `q` without the loss of any change. -/
def Lossless (leads : Bool) (q q' : Queue) : Prop :=
  leads = true ∧ q.isOpen = true ∧ q'.overflowed = q.overflowed

/-- A change is taken in, or else it is lost. -/
theorem offer_cases (q : Queue) (leads : Bool) (change : StatusChange) :
    (∃ q', q.offer leads change = (true, q') ∧ q'.waiting = q.waiting ++ [change] ∧
      q'.overflowed = q.overflowed ∧ q'.isOpen = q.isOpen) ∨
    ∃ q', q.offer leads change = (false, q') ∧ q'.waiting = q.waiting ∧
      q.overflowed ≤ q'.overflowed ∧ q'.isOpen = q.isOpen ∧ ¬ Lossless leads q q' := by
  unfold offer
  split
  · rename_i no
    refine .inr ⟨q, rfl, rfl, Nat.le_refl _, rfl, ?_⟩
    rintro ⟨hleads, hopen, -⟩
    simp [hleads, hopen] at no
  · split
    · exact .inl ⟨_, rfl, rfl, rfl, rfl⟩
    · refine .inr ⟨_, rfl, rfl, Nat.le_succ _, rfl, ?_⟩
      rintro ⟨-, -, none⟩
      simp at none

end Queue

/-- The changes for one object, and what the tracker remembers of the last of them. -/
structure Channel (α β : Type) where
  pick : StatusChange → Option α
  memory : Tracker → Option β
  leaves : α → Option β

namespace Channel

/-- The statuses of a policy. The last one is pending. -/
def status (ref : PolicyKey) :
    Channel (Option String × WrittenStatus) (Option String × WrittenStatus) where
  pick
    | .policy kind id version status =>
      if kind = ref.kind ∧ id = ref.id then some (version, status) else none
    | .ancestor _ _ _ => none
  memory tr := (tr.policies.get? ref).bind PolicyRecord.pending
  leaves := some

/-- The conditions on a target, where `none` clears what was there. The message of the last one is
flagged. -/
def flag (t : Target) : Channel (Option Condition) String where
  pick
    | .ancestor _ target condition => if target = t then some condition else none
    | .policy _ _ _ _ => none
  memory tr := tr.flagged.get? t
  leaves := Option.map Condition.message

variable {α β : Type}

/-- What is remembered after some more was enqueued. -/
def after (c : Channel α β) (old : Option β) (new : List α) : Option β :=
  (new.getLast?.map c.leaves).getD old

@[simp] theorem after_nil (c : Channel α β) (old : Option β) : c.after old [] = old := rfl

theorem after_append (c : Channel α β) (old : Option β) (new later : List α) :
    c.after old (new ++ later) = c.after (c.after old new) later := by
  simp only [after, List.getLast?_append]
  cases later.getLast? <;> rfl

/-- `tr'` came from `tr`, and for the object of the channel just `offered` was offered to the queue. -/
structure Relays (c : Channel α β) (leads : Bool) (offered : List α) (tr tr' : Tracker) : Prop where
  taken : ∃ new, tr'.queue.waiting = tr.queue.waiting ++ new ∧
    (new.filterMap c.pick).Sublist offered ∧
    (Queue.Lossless leads tr.queue tr'.queue → new.filterMap c.pick = offered) ∧
    c.memory tr' = c.after (c.memory tr) (new.filterMap c.pick)
  dropped : tr.queue.overflowed ≤ tr'.queue.overflowed
  isOpen : tr'.queue.isOpen = tr.queue.isOpen

section Relaying

variable {c : Channel α β} {leads : Bool} {tr tr' tr'' : Tracker} {offered later : List α}

theorem relays_of_idle (queue : tr'.queue = tr.queue) (memory : c.memory tr' = c.memory tr) :
    Relays c leads [] tr tr' where
  taken := ⟨[], by rw [queue, List.append_nil], .refl _, fun _ => rfl, memory⟩
  dropped := Nat.le_of_eq (congrArg Queue.overflowed queue.symm)
  isOpen := congrArg Queue.isOpen queue

theorem Relays.refl (c : Channel α β) (leads : Bool) (tr : Tracker) : Relays c leads [] tr tr :=
  relays_of_idle rfl rfl

theorem Relays.append (h : Relays c leads offered tr tr') (h' : Relays c leads later tr' tr'') :
    Relays c leads (offered ++ later) tr tr'' where
  taken := by
    obtain ⟨new, waiting, sub, all, memory⟩ := h.taken
    obtain ⟨new', waiting', sub', all', memory'⟩ := h'.taken
    refine ⟨new ++ new', by rw [waiting', waiting, List.append_assoc], ?_, ?_, ?_⟩
    · rw [List.filterMap_append]
      exact sub.append sub'
    · rintro ⟨hleads, hopen, none⟩
      have := h.dropped
      have := h'.dropped
      rw [List.filterMap_append, all ⟨hleads, hopen, by omega⟩,
        all' ⟨hleads, h.isOpen.trans hopen, by omega⟩]
    · rw [List.filterMap_append, after_append, memory', memory]
  dropped := Nat.le_trans h.dropped h'.dropped
  isOpen := h'.isOpen.trans h.isOpen

/-- Where nothing is offered, what is remembered stays. -/
theorem Relays.memory_of_nil (h : Relays c leads [] tr tr') : c.memory tr' = c.memory tr := by
  obtain ⟨new, -, sub, -, memory⟩ := h.taken
  rwa [List.sublist_nil.1 sub, after_nil] at memory

/-- Where nothing is lost, the last change that is offered is remembered. -/
theorem Relays.memory_of_lossless (h : Relays c leads offered tr tr')
    (lossless : Queue.Lossless leads tr.queue tr'.queue) :
    c.memory tr' = c.after (c.memory tr) offered := by
  obtain ⟨new, -, -, all, memory⟩ := h.taken
  rwa [all lossless] at memory

/-- What was put into the queue was offered, and all that was offered if nothing was lost. -/
theorem Relays.enqueued (h : Relays c leads offered tr tr') :
    ((tr'.queue.waiting.drop tr.queue.waiting.length).filterMap c.pick).Sublist offered ∧
      (Queue.Lossless leads tr.queue tr'.queue →
        (tr'.queue.waiting.drop tr.queue.waiting.length).filterMap c.pick = offered) := by
  obtain ⟨new, waiting, sub, all, -⟩ := h.taken
  rw [waiting, List.drop_left]
  exact ⟨sub, all⟩

/-- One change is offered, and remembered if it is taken in. -/
theorem relays_offer (change : StatusChange) (queue : tr'.queue = (tr.queue.offer leads change).2)
    (memory : c.memory tr' =
      if (tr.queue.offer leads change).1 then c.after (c.memory tr) (c.pick change).toList
      else c.memory tr) :
    Relays c leads (c.pick change).toList tr tr' := by
  have picked : [change].filterMap c.pick = (c.pick change).toList := by
    cases h : c.pick change <;> simp [h]
  obtain ⟨q', hq, waiting, overflowed, isOpen⟩ | ⟨q', hq, waiting, dropped, isOpen, lost⟩ :=
    tr.queue.offer_cases leads change
  · rw [hq] at queue memory
    obtain rfl : tr'.queue = q' := queue
    exact ⟨⟨[change], waiting, picked ▸ .refl _, fun _ => picked, by rw [picked]; exact memory⟩,
      Nat.le_of_eq overflowed.symm, isOpen⟩
  · rw [hq] at queue memory
    obtain rfl : tr'.queue = q' := queue
    exact ⟨⟨[], by rw [waiting, List.append_nil], List.nil_sublist _, fun none => absurd none lost,
      memory⟩, dropped, isOpen⟩

variable {γ : Type} {f : Tracker → γ → Tracker}

/-- Steps that offer nothing. -/
theorem relays_foldl_nil {xs : List γ} (idle : ∀ x ∈ xs, ∀ tr, Relays c leads [] tr (f tr x))
    (tr : Tracker) : Relays c leads [] tr (xs.foldl f tr) := by
  induction xs generalizing tr with
  | nil => exact .refl c leads tr
  | cons x xs ih =>
    exact (idle x List.mem_cons_self tr).append
      (ih (fun y hy => idle y (List.mem_cons_of_mem _ hy)) (f tr x))

/-- Of some steps for different keys only one offers anything, and that depends on what is remembered
alone. -/
theorem relays_foldl {κ : Type} {key : γ → κ} {xs : List γ} {x : γ} (hx : x ∈ xs)
    (nodup : (xs.map key).Nodup)
    (idle : ∀ y ∈ xs, key y ≠ key x → ∀ tr, Relays c leads [] tr (f tr y)) {tr : Tracker}
    (offers : ∀ tr', c.memory tr' = c.memory tr → Relays c leads offered tr' (f tr' x)) :
    Relays c leads offered tr (xs.foldl f tr) := by
  obtain ⟨before, later, rfl⟩ := List.append_of_mem hx
  rw [List.map_append, List.map_cons, List.nodup_append, List.nodup_cons] at nodup
  obtain ⟨-, ⟨fresh, -⟩, apart⟩ := nodup
  rw [List.foldl_append, List.foldl_cons]
  have first : Relays c leads [] tr (before.foldl f tr) := by
    refine relays_foldl_nil (fun y hy => idle y (List.mem_append_left _ hy) ?_) tr
    exact apart _ (List.mem_map_of_mem hy) _ List.mem_cons_self
  have last : ∀ tr, Relays c leads [] tr (later.foldl f tr) := by
    refine relays_foldl_nil fun y hy => idle y ?_ ?_
    · exact List.mem_append_right _ (List.mem_cons_of_mem _ hy)
    · exact fun heq => fresh (heq ▸ List.mem_map_of_mem hy)
  have all := first.append ((offers _ first.memory_of_nil).append (last _))
  rwa [List.append_nil, List.nil_append] at all

end Relaying
end Channel

namespace Tracker

open Channel (Relays relays_of_idle relays_offer relays_foldl relays_foldl_nil)

variable {leads : Bool} {m : Moment} {tr : Tracker} {ref : PolicyKey} {t : Target}

section Statuses

/-- A status counts for the policy that it is of. -/
theorem pick_status_change (ref : PolicyKey) (due : Due) : (Channel.status ref).pick due.change =
    if due.ref = ref then some (due.version, due.status) else none := by
  obtain ⟨⟨kind, id⟩, version, status⟩ := due
  obtain ⟨kind', id'⟩ := ref
  simp [Channel.status, Due.change]

/-- Sending a status relays it to its own policy alone. -/
theorem relays_status_send (due : Due) (known : due.ref = ref → (tr.policies.get? ref).isSome) :
    Relays (.status ref) leads (if due.ref = ref then [(due.version, due.status)] else []) tr
      (send leads tr due) := by
  have relays : Relays (.status ref) leads ((Channel.status ref).pick due.change).toList tr
      (send leads tr due) := by
    apply relays_offer due.change
    · unfold send
      rw [← Due.change]
      generalize tr.queue.offer leads due.change = out
      obtain ⟨sent, queue⟩ := out
      cases sent with
      | false => rfl
      | true => cases tr.policies.get? due.ref <;> rfl
    · unfold send
      rw [← Due.change]
      generalize tr.queue.offer leads due.change = out
      obtain ⟨sent, queue⟩ := out
      rw [pick_status_change]
      cases sent with
      | false => rfl
      | true =>
        by_cases hr : due.ref = ref
        · obtain ⟨s, hs⟩ := Option.isSome_iff_exists.1 (known hr)
          simp [hr, hs, Channel.status, Channel.after, Table.get?_insert]
        · cases tr.policies.get? due.ref with
          | none => simp [hr, Channel.status]
          | some s => simp [hr, Ne.symm hr, Channel.status, Table.get?_insert]
  rw [pick_status_change] at relays
  split at relays <;> rename_i h
  · rwa [if_pos h]
  · rwa [if_neg h]

theorem isSome_get?_send (ref : PolicyKey) (tr : Tracker) (due : Due) :
    ((send leads tr due).policies.get? ref).isSome = (tr.policies.get? ref).isSome := by
  have records := congrArg (fun t => (t.get? ref).isSome) (sends_send leads tr due).records
  simpa only [Table.get?_mapValues, Option.isSome_map] using records

/-- Sending statuses relays to each policy its own. -/
theorem relays_status_foldl_send {due : List Due}
    (known : ∀ d ∈ due, d.ref = ref → (tr.policies.get? ref).isSome) :
    Relays (.status ref) leads
      (due.filterMap fun d => if d.ref = ref then some (d.version, d.status) else none) tr
      (due.foldl (send leads) tr) := by
  induction due generalizing tr with
  | nil => exact .refl _ leads tr
  | cons d due ih =>
    have later : ∀ e ∈ due, e.ref = ref → ((send leads tr d).policies.get? ref).isSome := by
      intro e he
      rw [isSome_get?_send]
      exact known e (List.mem_cons_of_mem _ he)
    have first : Relays (.status ref) leads
        (if d.ref = ref then [(d.version, d.status)] else []) tr (send leads tr d) :=
      relays_status_send d (known d List.mem_cons_self)
    have all := first.append (ih later)
    rw [List.filterMap_cons]
    split at all <;> rename_i h
    · rwa [if_pos h]
    · rwa [if_neg h]

/-- What a pass over `kind` offers for a policy. -/
def dueFor (m : Moment) (retry : Bool) (kind : PolicyKind) (tr : Tracker) (ref : PolicyKey) :
    List (Option String × WrittenStatus) :=
  if ref.kind = kind then
    ((tr.policies.get? ref).bind fun s => due? retry ref (tr.review m.now ref s).state).toList.map
      fun d => (d.version, d.status)
  else []

theorem dueFor_of_ne (m : Moment) (retry : Bool) {kind : PolicyKind} (tr : Tracker)
    (h : ref.kind ≠ kind) : tr.dueFor m retry kind ref = [] :=
  if_neg h

/-- Nothing is offered for a policy that is not there. -/
theorem dueFor_of_absent (m : Moment) (retry : Bool) (kind : PolicyKind)
    (absent : tr.policies.get? ref = none) : tr.dueFor m retry kind ref = [] := by
  rw [dueFor, absent, Option.bind_none, Option.toList_none, List.map_nil, ite_self]

/-- A pass over its kind offers to a known policy what is due after its review. -/
theorem dueFor_of_known (m : Moment) (retry : Bool) {s : PolicyRecord}
    (known : tr.policies.get? ref = some s) :
    tr.dueFor m retry ref.kind ref =
      (due? retry ref (tr.review m.now ref s).state).toList.map fun d => (d.version, d.status) := by
  rw [dueFor, if_pos rfl, known, Option.bind_some]

/-- Of all that is due, a policy gets what is due to it. -/
theorem filterMap_allDue {retry : Bool} {kind : PolicyKind}
    {policies : Table PolicyKey PolicyRecord} :
    ((allDue retry kind policies).filterMap fun d =>
        if d.ref = ref then some (d.version, d.status) else none) =
      if ref.kind = kind then
        ((policies.get? ref).bind (due? retry ref)).toList.map fun d => (d.version, d.status)
      else [] := by
  rw [allDue, List.filterMap_filterMap, Table.filterMap_entries ref]
  · by_cases hk : ref.kind = kind
    · cases policies.get? ref with
      | none => simp
      | some s =>
        cases hd : due? retry ref s with
        | none => simp [hk, hd]
        | some d => simp [hk, hd, congrArg Due.ref (eq_of_due? hd)]
    · cases policies.get? ref <;> simp [hk]
  · intro other s hne
    cases hd : due? retry other s with
    | none => simp [hd]
    | some d =>
      have other : d.ref ≠ ref := by rwa [eq_of_due? hd]
      simp [hd, other]

/-- A pass offers the status that is due for a policy. -/
theorem relays_status_passOver (m : Moment) (retry : Bool) (tr : Tracker) (kind : PolicyKind)
    (ref : PolicyKey) :
    Relays (.status ref) m.leads (tr.dueFor m retry kind ref) tr (tr.passOver m retry kind) := by
  let reviewed : Tracker :=
    { tr with
      policies := (tr.reviewsIn m.now kind).mapValues fun _ r => r.state
      marks := remark tr.marks kind (allBlocked (tr.reviewsIn m.now kind))
      turnedAway := tr.turnedAway + (allBlocked (tr.reviewsIn m.now kind)).length }
  have record : reviewed.policies.get? ref =
      (tr.policies.get? ref).map fun s => (tr.reviewIn m.now kind ref s).state := by
    simp only [reviewed, Table.get?_mapValues, get?_reviewsIn, Option.map_map]
    rfl
  have pending : (Channel.status ref).memory reviewed = (Channel.status ref).memory tr := by
    simp only [Channel.status, record]
    cases tr.policies.get? ref with
    | none => rfl
    | some s =>
      simp only [Option.map_some, Option.bind_some, reviewIn]
      split <;> rfl
  have sends : Relays (.status ref) m.leads
      ((allDue retry kind reviewed.policies).filterMap fun d =>
        if d.ref = ref then some (d.version, d.status) else none) reviewed
      (tr.passOver m retry kind) := by
    apply relays_status_foldl_send
    intro d hd hr
    obtain ⟨s, hs, -⟩ := mem_allDue_iff.1 hd
    rw [← hr, hs]
    rfl
  have start : Relays (.status ref) m.leads [] tr reviewed := relays_of_idle rfl pending
  have all := start.append sends
  rw [List.nil_append, filterMap_allDue, record] at all
  convert all using 1
  unfold dueFor
  split
  · rename_i hk
    cases tr.policies.get? ref with
    | none => rfl
    | some s => simp [reviewIn, hk]
  · rfl

/-- The conditions on ancestors are no statuses. -/
theorem relays_status_syncFlags (m : Moment) (force : Bool) (tr : Tracker) (ref : PolicyKey) :
    Relays (.status ref) m.leads [] tr (tr.syncFlags m force) := by
  have shown : ∀ (tr : Tracker) (desired : Target × Condition),
      Relays (.status ref) m.leads [] tr (flag m.leads force tr desired) := by
    rintro tr ⟨ancestor, condition⟩
    simp only [flag]
    split
    · exact .refl _ _ tr
    · cases hc : StatusChange.flag? ancestor (some condition) with
      | none => exact .refl _ _ tr
      | some change =>
        obtain ⟨apiVersion, -, rfl⟩ := Option.map_eq_some_iff.1 hc
        refine relays_offer (.ancestor apiVersion ancestor (some condition)) ?_ ?_
        · simp only
          split <;> rfl
        · simp only
          split <;> rfl
  have cleared : ∀ (tr : Tracker) (ancestor : Target),
      Relays (.status ref) m.leads [] tr (unflag m.leads tr ancestor) := by
    intro tr ancestor
    simp only [unflag]
    cases hc : StatusChange.flag? ancestor none with
    | none => exact relays_of_idle rfl rfl
    | some change =>
      obtain ⟨apiVersion, -, rfl⟩ := Option.map_eq_some_iff.1 hc
      refine relays_offer (.ancestor apiVersion ancestor none) ?_ ?_
      · simp only
        split <;> rfl
      · simp only
        split <;> rfl
  exact (relays_foldl_nil (fun desired _ tr => shown tr desired) tr).append
    (relays_foldl_nil (fun ancestor _ tr => cleared tr ancestor) _)

end Statuses

end Tracker
end PolicyAttachment
