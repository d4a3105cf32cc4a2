import PolicyAttachment.Proofs.Register.Report

/-!
# What a pass does

A pass over a kind reviews every policy of the kind, replaces their marks and offers their statuses
to the queue; `Passed` lists all of it, and that nothing else changes. Which statuses are pending is
the only part of a record that sending touches, so records are compared at rest, without it.
-/

namespace PolicyAttachment
set_option autoImplicit false

namespace Table

variable {κ ν μ : Type} [DecidableEq κ]

/-- A value that looks like the one in its place changes nothing in the view. -/
theorem mapValues_insert_of_same (f : κ → ν → μ) {t : Table κ ν} {key : κ} {old new : ν}
    (h : t.get? key = some old) (hf : f key new = f key old) :
    (t.insert key new).mapValues f = t.mapValues f := by
  have present : key ∈ t.keys := by
    rw [mem_keys_iff, h]
    rfl
  apply ext_entries
  rw [insert, dif_pos present]
  simp only [mapValues, List.map_map]
  apply List.map_congr_left
  rintro ⟨k, v⟩ hm
  by_cases hk : k = key
  · subst hk
    obtain rfl := Option.some.inj (h.symm.trans (mem_entries_iff.1 hm))
    simp [hf]
  · simp [hk]

/-- Two tables that agree in some respect have the same keys, and agree at each of them. -/
theorem get?_eq_some_of_mapValues {f g : κ → ν → μ} {t t' : Table κ ν} {key : κ} {value : ν}
    (h : t'.mapValues f = t.mapValues g) (hv : t.get? key = some value) :
    ∃ value', t'.get? key = some value' ∧ f key value' = g key value := by
  have hget := congrArg (fun t => t.get? key) h
  simp only [get?_mapValues, hv, Option.map_some] at hget
  exact Option.map_eq_some_iff.1 hget

theorem insert_of_get? {t : Table κ ν} {key : κ} {value : ν} (h : t.get? key = some value) :
    t.insert key value = t := by
  have same := mapValues_insert_of_same (fun _ v => v) h rfl
  have plain : ∀ t : Table κ ν, t.mapValues (fun _ v => v) = t :=
    fun t => ext_entries (List.map_id' t.entries)
  rwa [plain, plain] at same

theorem erase_of_not_contains {t : Table κ ν} {key : κ} (h : t.contains key = false) :
    t.erase key = t := by
  apply ext_entries
  rw [erase, filter, List.filter_eq_self]
  rintro ⟨k, v⟩ hm
  rw [bne_iff_ne]
  rintro rfl
  rw [contains, mem_entries_iff.1 hm] at h
  cases h

end Table

/-- The change that writes a status which is due. -/
def Tracker.Due.change (due : Tracker.Due) : StatusChange :=
  .policy due.ref.kind due.ref.id due.version due.status

/-- A change that writes a status tells for which policy and version it is. -/
theorem Tracker.Due.change_eq_iff {due : Tracker.Due} {ref : PolicyKey} {version : Option String}
    {status : WrittenStatus} :
    due.change = .policy ref.kind ref.id version status ↔ due = ⟨ref, version, status⟩ := by
  obtain ⟨⟨kind, id⟩, version', status'⟩ := due
  obtain ⟨kind', id'⟩ := ref
  simp [change, and_assoc]

/-- The statuses of a policy among some changes, with the versions that they are for. -/
def statusesOf (ref : PolicyKey) (changes : List StatusChange) :
    List (Option String × WrittenStatus) :=
  changes.filterMap fun
    | .policy kind id version status =>
      if kind = ref.kind ∧ id = ref.id then some (version, status) else none
    | .ancestor _ _ _ => none

/-- The statuses of a policy are those of its changes. -/
theorem mem_statusesOf_iff {ref : PolicyKey} {changes : List StatusChange} {version : Option String}
    {status : WrittenStatus} : (version, status) ∈ statusesOf ref changes ↔
      .policy ref.kind ref.id version status ∈ changes := by
  rw [statusesOf, List.mem_filterMap]
  constructor
  · rintro ⟨change, hc, heq⟩
    cases change with
    | policy kind id version' status' =>
      simp only [Option.ite_none_right_eq_some, Option.some.injEq, Prod.mk.injEq] at heq
      obtain ⟨⟨rfl, rfl⟩, rfl, rfl⟩ := heq
      exact hc
    | ancestor => cases heq
  · intro hc
    exact ⟨_, hc, by simp⟩

theorem statusesOf_append (ref : PolicyKey) (changes later : List StatusChange) :
    statusesOf ref (changes ++ later) = statusesOf ref changes ++ statusesOf ref later :=
  List.filterMap_append

namespace Queue

/-- `q'` is `q` after some of the changes `offered` to it were taken in; after all of them, if this
instance leads and none was dropped. -/
structure Takes (leads : Bool) (offered : List StatusChange) (q q' : Queue) : Prop where
  taken : ∃ new, new.Sublist offered ∧ q'.waiting = q.waiting ++ new
  dropped : q.overflowed ≤ q'.overflowed
  all : leads = true → q.isOpen = true → q'.overflowed = q.overflowed →
    q'.waiting = q.waiting ++ offered
  isOpen : q'.isOpen = q.isOpen

variable {leads : Bool} {q q' q'' : Queue} {offered later : List StatusChange}

theorem Takes.nil (leads : Bool) (q : Queue) : Takes leads [] q q where
  taken := ⟨[], .refl _, (List.append_nil _).symm⟩
  dropped := Nat.le_refl _
  all _ _ _ := (List.append_nil _).symm
  isOpen := rfl

theorem Takes.append (h : Takes leads offered q q') (h' : Takes leads later q' q'') :
    Takes leads (offered ++ later) q q'' where
  taken := by
    obtain ⟨new, sub, waiting⟩ := h.taken
    obtain ⟨new', sub', waiting'⟩ := h'.taken
    exact ⟨new ++ new', sub.append sub', by rw [waiting', waiting, List.append_assoc]⟩
  dropped := Nat.le_trans h.dropped h'.dropped
  all leads isOpen none := by
    have := h.dropped
    have := h'.dropped
    rw [h'.all leads (by rw [h.isOpen, isOpen]) (by omega), h.all leads isOpen (by omega),
      List.append_assoc]
  isOpen := h'.isOpen.trans h.isOpen

theorem takes_offer (leads : Bool) (q : Queue) (change : StatusChange) :
    Takes leads [change] q (q.offer leads change).2 := by
  unfold offer
  split
  · rename_i no
    refine ⟨⟨[], List.nil_sublist _, (List.append_nil _).symm⟩, Nat.le_refl _, ?_, rfl⟩
    intro hleads hopen _
    simp [hleads, hopen] at no
  · split
    · exact ⟨⟨[change], .refl _, rfl⟩, Nat.le_refl _, fun _ _ _ => rfl, rfl⟩
    · refine ⟨⟨[], List.nil_sublist _, (List.append_nil _).symm⟩, Nat.le_succ _, ?_, rfl⟩
      intro _ _ none
      simp at none

end Queue

/-- A record without what is pending. -/
def PolicyRecord.atRest (s : PolicyRecord) : PolicyRecord := { s with pending := none }

/-- Records that agree at rest differ in what is pending at most. -/
theorem PolicyRecord.atRest_eq_iff {s t : PolicyRecord} :
    s.atRest = t.atRest ↔ s = { t with pending := s.pending } := by
  cases s
  cases t
  simp [atRest]

namespace Tracker

/-- `tr'` is `tr` after the changes `offered` were offered to its queue: only the queue and what is
pending can differ. -/
structure Sends (leads : Bool) (offered : List StatusChange) (tr tr' : Tracker) : Prop where
  records : tr'.policies.mapValues (fun _ => PolicyRecord.atRest) =
    tr.policies.mapValues fun _ => PolicyRecord.atRest
  pending : ∀ ref s', tr'.policies.get? ref = some s' → ∃ s, tr.policies.get? ref = some s ∧
    (s'.pending = s.pending ∨
      ∃ version status, .policy ref.kind ref.id version status ∈ offered ∧
        s'.pending = some (version, status))
  queue : tr.queue.Takes leads offered tr'.queue
  reporter : tr'.reporter = tr.reporter
  targets : tr'.targets = tr.targets
  routes : tr'.routes = tr.routes
  marks : tr'.marks = tr.marks

section Sending

variable {leads : Bool} {tr tr' tr'' : Tracker} {offered later : List StatusChange}

/-- Where no record changes, nothing comes to be pending. -/
theorem sends_of_policies (hpolicies : tr'.policies = tr.policies)
    (queue : tr.queue.Takes leads offered tr'.queue) (reporter : tr'.reporter = tr.reporter)
    (targets : tr'.targets = tr.targets) (routes : tr'.routes = tr.routes)
    (marks : tr'.marks = tr.marks) : Sends leads offered tr tr' where
  records := by rw [hpolicies]
  pending ref s' hs' := ⟨s', hpolicies ▸ hs', .inl rfl⟩
  queue := queue
  reporter := reporter
  targets := targets
  routes := routes
  marks := marks

theorem Sends.nil (leads : Bool) (tr : Tracker) : Sends leads [] tr tr :=
  sends_of_policies rfl (.nil leads tr.queue) rfl rfl rfl rfl

theorem Sends.append (h : Sends leads offered tr tr') (h' : Sends leads later tr' tr'') :
    Sends leads (offered ++ later) tr tr'' where
  records := h'.records.trans h.records
  pending ref s'' hs'' := by
    obtain ⟨s', hs', later⟩ := h'.pending ref s'' hs''
    obtain ⟨s, hs, earlier⟩ := h.pending ref s' hs'
    refine ⟨s, hs, ?_⟩
    rcases later with kept | ⟨version, status, hm, sent⟩
    · rw [kept]
      refine earlier.imp_right ?_
      rintro ⟨version, status, hm, sent⟩
      exact ⟨version, status, List.mem_append_left _ hm, sent⟩
    · exact .inr ⟨version, status, List.mem_append_right _ hm, sent⟩
  queue := h.queue.append h'.queue
  reporter := h'.reporter.trans h.reporter
  targets := h'.targets.trans h.targets
  routes := h'.routes.trans h.routes
  marks := h'.marks.trans h.marks

/-- Sending one status leaves all records alone, but for what is pending. -/
theorem sends_send (leads : Bool) (tr : Tracker) (due : Due) :
    Sends leads [due.change] tr (send leads tr due) := by
  have takes := tr.queue.takes_offer leads due.change
  unfold send
  rw [show StatusChange.policy due.ref.kind due.ref.id due.version due.status = due.change from rfl]
  generalize tr.queue.offer leads due.change = out at takes
  obtain ⟨sent, queue⟩ := out
  cases sent with
  | false => exact sends_of_policies rfl takes rfl rfl rfl rfl
  | true =>
    cases hs : tr.policies.get? due.ref with
    | none => exact sends_of_policies rfl takes rfl rfl rfl rfl
    | some s =>
      refine ⟨Table.mapValues_insert_of_same _ hs rfl, ?_, takes, rfl, rfl, rfl, rfl⟩
      intro ref s' hs'
      simp only [if_true, Table.get?_insert] at hs'
      split at hs'
      · rename_i heq
        cases hs'
        subst heq
        exact ⟨s, hs, .inr ⟨due.version, due.status, List.mem_singleton_self _, rfl⟩⟩
      · exact ⟨s', hs', .inl rfl⟩

/-- Statuses that are due are sent one by one. -/
theorem sends_foldl_send (leads : Bool) (tr : Tracker) (due : List Due) :
    Sends leads (due.map Due.change) tr (due.foldl (send leads) tr) := by
  induction due generalizing tr with
  | nil => exact .nil leads tr
  | cons d due ih => exact (sends_send leads tr d).append (ih (send leads tr d))

/-- Whatever brings conditions on ancestors up to date. -/
def IsFlag (change : StatusChange) : Prop :=
  ∃ apiVersion target condition, change = .ancestor apiVersion target condition

/-- Only changes of conditions on ancestors are offered. -/
def SendsFlags (leads : Bool) (tr tr' : Tracker) : Prop :=
  ∃ offered, (∀ change ∈ offered, IsFlag change) ∧ Sends leads offered tr tr' ∧
    tr'.policies = tr.policies

theorem SendsFlags.refl (leads : Bool) (tr : Tracker) : SendsFlags leads tr tr :=
  ⟨[], by simp, .nil leads tr, rfl⟩

theorem SendsFlags.trans (h : SendsFlags leads tr tr') (h' : SendsFlags leads tr' tr'') :
    SendsFlags leads tr tr'' := by
  obtain ⟨offered, flags, sends, same⟩ := h
  obtain ⟨later, flags', sends', same'⟩ := h'
  refine ⟨offered ++ later, ?_, sends.append sends', same'.trans same⟩
  intro change hc
  exact (List.mem_append.1 hc).elim (flags change) (flags' change)

theorem isFlag_of_flag? {target : Target} {condition : Option Condition} {change : StatusChange}
    (h : StatusChange.flag? target condition = some change) : IsFlag change := by
  obtain ⟨apiVersion, -, rfl⟩ := Option.map_eq_some_iff.1 h
  exact ⟨_, _, _, rfl⟩

theorem sendsFlags_flag (leads force : Bool) (tr : Tracker) (desired : Target × Condition) :
    SendsFlags leads tr (flag leads force tr desired) := by
  obtain ⟨ancestor, condition⟩ := desired
  simp only [flag]
  split
  · exact .refl leads tr
  · cases hc : StatusChange.flag? ancestor (some condition) with
    | none => exact .refl leads tr
    | some change =>
      have takes := tr.queue.takes_offer leads change
      have flags : ∀ c ∈ [change], IsFlag c := by simpa using isFlag_of_flag? hc
      simp only
      split <;> exact ⟨[change], flags, sends_of_policies rfl takes rfl rfl rfl rfl, rfl⟩

theorem sendsFlags_unflag (leads : Bool) (tr : Tracker) (ancestor : Target) :
    SendsFlags leads tr (unflag leads tr ancestor) := by
  simp only [unflag]
  cases hc : StatusChange.flag? ancestor none with
  | none => exact ⟨[], by simp, sends_of_policies rfl (.nil leads tr.queue) rfl rfl rfl rfl, rfl⟩
  | some change =>
    have takes := tr.queue.takes_offer leads change
    have flags : ∀ c ∈ [change], IsFlag c := by simpa using isFlag_of_flag? hc
    simp only
    split <;> exact ⟨[change], flags, sends_of_policies rfl takes rfl rfl rfl rfl, rfl⟩

theorem sendsFlags_foldl {α : Type} {f : Tracker → α → Tracker}
    (step : ∀ tr a, SendsFlags leads tr (f tr a)) (as : List α) (tr : Tracker) :
    SendsFlags leads tr (as.foldl f tr) := by
  induction as generalizing tr with
  | nil => exact .refl leads tr
  | cons a as ih => exact (step tr a).trans (ih (f tr a))

/-- Conditions on ancestors are no statuses of policies. -/
theorem SendsFlags.statusesOf_waiting (h : SendsFlags leads tr tr') (ref : PolicyKey) :
    statusesOf ref tr'.queue.waiting = statusesOf ref tr.queue.waiting := by
  obtain ⟨offered, flags, sends, -⟩ := h
  obtain ⟨new, sub, waiting⟩ := sends.queue.taken
  have noStatus : statusesOf ref new = [] := by
    rw [List.eq_nil_iff_forall_not_mem]
    rintro ⟨version, status⟩ hm
    obtain ⟨apiVersion, target, condition, heq⟩ := flags _ (sub.subset (mem_statusesOf_iff.1 hm))
    cases heq
  rw [waiting, statusesOf_append, noStatus, List.append_nil]

/-- Bringing conditions up to date sends no status. -/
theorem sendsFlags_syncFlags (m : Moment) (force : Bool) (tr : Tracker) :
    SendsFlags m.leads tr (tr.syncFlags m force) :=
  (sendsFlags_foldl (sendsFlags_flag m.leads force) _ tr).trans
    (sendsFlags_foldl (sendsFlags_unflag m.leads) _ _)

end Sending

section Marking

/-- The mark of a policy on an ancestor that it could not record. -/
def markIn? (marks : Table Target Marks) (a : Target) (ref : PolicyKey) : Option Condition :=
  (marks.get? a).bind fun ms => ms.get? ref

/-- The mark of a policy on an ancestor. -/
def markOf? (tr : Tracker) (a : Target) (ref : PolicyKey) : Option Condition :=
  markIn? tr.marks a ref

/-- A mark is set for one policy on one ancestor. -/
theorem markIn?_mark (marks : Table Target Marks) (a b : Target) (ref other : PolicyKey)
    (condition : Condition) :
    markIn? (mark marks b other condition) a ref =
      if a = b ∧ ref = other then some condition else markIn? marks a ref := by
  unfold markIn? mark
  rw [Table.get?_insert]
  by_cases ha : a = b
  · subst ha
    cases marks.get? a <;> by_cases hr : ref = other <;> simp [Table.get?_insert, hr]
  · simp [ha]

/-- A policy is marked on an ancestor if it was before or was blocked there. -/
theorem markIn?_foldl_mark (blocked : List (Target × PolicyKey × Condition))
    (marks : Table Target Marks) (a : Target) (ref : PolicyKey) :
    (markIn? (blocked.foldl (fun marks (ancestor, ref, condition) =>
        mark marks ancestor ref condition) marks) a ref).isSome ↔
      (markIn? marks a ref).isSome ∨ ∃ condition, (a, ref, condition) ∈ blocked := by
  induction blocked generalizing marks with
  | nil => simp
  | cons b blocked ih =>
    obtain ⟨b, other, condition⟩ := b
    rw [List.foldl_cons, ih, markIn?_mark]
    by_cases hb : a = b ∧ ref = other
    · obtain ⟨rfl, rfl⟩ := hb
      simp
    · have : ∀ c, (a, ref, c) ∈ (b, other, condition) :: blocked ↔ (a, ref, c) ∈ blocked := by
        intro c
        rw [List.mem_cons, or_iff_right]
        rintro h
        cases h
        exact hb ⟨rfl, rfl⟩
      simp [hb, this]

theorem markIn?_foldl_mark_of_not_mem {blocked : List (Target × PolicyKey × Condition)}
    {a : Target} {ref : PolicyKey} (h : ∀ condition, (a, ref, condition) ∉ blocked)
    (marks : Table Target Marks) :
    markIn? (blocked.foldl (fun marks (ancestor, ref, condition) =>
        mark marks ancestor ref condition) marks) a ref = markIn? marks a ref := by
  induction blocked generalizing marks with
  | nil => rfl
  | cons b blocked ih =>
    obtain ⟨b, other, condition⟩ := b
    rw [List.foldl_cons, ih fun c hc => h c (List.mem_cons_of_mem _ hc), markIn?_mark, if_neg]
    rintro ⟨rfl, rfl⟩
    exact h condition List.mem_cons_self

/-- Removing ancestors without marks removes no mark. -/
theorem markIn?_filter_nonempty (marks : Table Target Marks) (a : Target) (ref : PolicyKey) :
    markIn? (marks.filter fun _ ms => !ms.isEmpty) a ref = markIn? marks a ref := by
  unfold markIn?
  rw [Table.get?_filter]
  cases marks.get? a with
  | none => rfl
  | some ms =>
    cases hm : ms.entries with
    | nil => simp [Option.filter, Table.isEmpty, hm, Table.get?]
    | cons e es => simp [Option.filter, Table.isEmpty, hm]

/-- A pass over a kind begins without the marks of the policies of the kind. -/
theorem markIn?_unmarked (marks : Table Target Marks) (kind : PolicyKind) (a : Target)
    (ref : PolicyKey) :
    markIn? (marks.mapValues fun _ ms => ms.filter fun ref _ => ref.kind != kind) a ref =
      if ref.kind = kind then none else markIn? marks a ref := by
  unfold markIn?
  rw [Table.get?_mapValues]
  cases marks.get? a with
  | none => simp
  | some ms =>
    simp only [Option.map_some, Option.bind_some, Table.get?_filter]
    cases ms.get? ref <;> by_cases hk : ref.kind = kind <;> simp [Option.filter, hk]

/-- The marks of the policies of other kinds stay. -/
theorem markIn?_remark_of_ne {marks : Table Target Marks} {kind : PolicyKind}
    {blocked : List (Target × PolicyKey × Condition)} (h : ∀ b ∈ blocked, b.2.1.kind = kind)
    {ref : PolicyKey} (hr : ref.kind ≠ kind) (a : Target) :
    markIn? (remark marks kind blocked) a ref = markIn? marks a ref := by
  unfold remark
  rw [markIn?_filter_nonempty, markIn?_foldl_mark_of_not_mem fun _ hb => hr (h _ hb),
    markIn?_unmarked, if_neg hr]

/-- The marks of the policies of the kind are those just made. -/
theorem markIn?_remark {marks : Table Target Marks} {ref : PolicyKey}
    {blocked : List (Target × PolicyKey × Condition)} (a : Target) :
    (markIn? (remark marks ref.kind blocked) a ref).isSome ↔
      ∃ condition, (a, ref, condition) ∈ blocked := by
  unfold remark
  rw [markIn?_filter_nonempty, markIn?_foldl_mark, or_iff_right]
  rw [markIn?_unmarked, if_pos rfl]
  exact Bool.false_ne_true

end Marking

section Passing

/-- What a pass over `kind` makes of `tr`. -/
structure Passed (m : Moment) (retry : Bool) (kind : PolicyKind) (tr tr' : Tracker) : Prop where
  records : tr'.policies.mapValues (fun _ => PolicyRecord.atRest) =
    tr.policies.mapValues fun ref s => (tr.reviewIn m.now kind ref s).state.atRest
  pending : ∀ ref s', tr'.policies.get? ref = some s' → ∃ s, tr.policies.get? ref = some s ∧
    (s'.pending = s.pending ∨ ∃ status, s'.pending = some (s.facts.resourceVersion, status))
  queue : ∃ due : List Due, tr.queue.Takes m.leads (due.map Due.change) tr'.queue ∧
    ∀ d, d ∈ due ↔ ∃ s, tr.policies.get? d.ref = some s ∧ d.ref.kind = kind ∧
      due? retry d.ref (tr.review m.now d.ref s).state = some d
  reporter : tr'.reporter = tr.reporter
  targets : tr'.targets = tr.targets
  routes : tr'.routes = tr.routes
  marked : ∀ a ref, ref.kind = kind → ((tr'.markOf? a ref).isSome ↔
    ∃ s, tr.policies.get? ref = some s ∧ a ∈ (tr.review m.now ref s).blocked.map Prod.fst)
  unmarked : ∀ a ref, ref.kind ≠ kind → tr'.markOf? a ref = tr.markOf? a ref

/-- A status that is due is the one of the record, for the version last seen. -/
theorem eq_of_due? {retry : Bool} {ref : PolicyKey} {s : PolicyRecord} {due : Due}
    (h : due? retry ref s = some due) :
    due = ⟨ref, s.facts.resourceVersion, s.status ref.kind⟩ := by
  unfold due? at h
  simp only at h
  split at h
  · cases h
  · split at h
    · cases h
      rfl
    · cases h

/-- Every policy is reviewed by itself. -/
theorem get?_reviewsIn (tr : Tracker) (now : Instant) (kind : PolicyKind) (ref : PolicyKey) :
    (tr.reviewsIn now kind).get? ref = (tr.policies.get? ref).map (tr.reviewIn now kind ref) :=
  Table.get?_mapValues _ _ ref

/-- All that is blocked is what each review blocked. -/
theorem mem_allBlocked_iff {reviews : Table PolicyKey Review} {a : Target} {ref : PolicyKey}
    {condition : Condition} : (a, ref, condition) ∈ allBlocked reviews ↔
      ∃ r, reviews.get? ref = some r ∧ (a, condition) ∈ r.blocked := by
  simp only [allBlocked, List.mem_flatMap, List.mem_map, Prod.exists, Prod.mk.injEq]
  constructor
  · rintro ⟨_, r, hr, _, _, hb, rfl, rfl, rfl⟩
    exact ⟨r, Table.mem_entries_iff.1 hr, hb⟩
  · rintro ⟨r, hr, hb⟩
    exact ⟨ref, r, Table.mem_entries_iff.2 hr, a, condition, hb, rfl, rfl, rfl⟩

/-- All that is due is what is due to each policy of the kind. -/
theorem mem_allDue_iff {retry : Bool} {kind : PolicyKind} {policies : Table PolicyKey PolicyRecord}
    {d : Due} : d ∈ allDue retry kind policies ↔
      ∃ s, policies.get? d.ref = some s ∧ d.ref.kind = kind ∧ due? retry d.ref s = some d := by
  simp only [allDue, List.mem_filterMap, Prod.exists]
  constructor
  · rintro ⟨ref, s, hs, hd⟩
    split at hd
    · rename_i hk
      obtain rfl : d.ref = ref := congrArg Due.ref (eq_of_due? hd)
      exact ⟨s, Table.mem_entries_iff.1 hs, hk, hd⟩
    · cases hd
  · rintro ⟨s, hs, hk, hd⟩
    exact ⟨d.ref, s, Table.mem_entries_iff.2 hs, by rw [if_pos hk, hd]⟩

/-- Only policies of the kind that is passed over are blocked. -/
theorem mem_blocked_reviewsIn_iff {tr : Tracker} {now : Instant} {kind : PolicyKind} {a : Target}
    {ref : PolicyKey} {condition : Condition} :
    (a, ref, condition) ∈ allBlocked (tr.reviewsIn now kind) ↔
      ref.kind = kind ∧
        ∃ s, tr.policies.get? ref = some s ∧ (a, condition) ∈ (tr.review now ref s).blocked := by
  rw [mem_allBlocked_iff, get?_reviewsIn]
  by_cases hk : ref.kind = kind
  · simp [reviewIn, hk]
  · simp [reviewIn, hk]

/-- After the reviews of a kind, a status is due to each policy as its own review left it. -/
theorem mem_due_reviewsIn_iff {tr : Tracker} {now : Instant} {retry : Bool} {kind : PolicyKind}
    {d : Due} :
    d ∈ allDue retry kind ((tr.reviewsIn now kind).mapValues fun _ r => r.state) ↔
      ∃ s, tr.policies.get? d.ref = some s ∧ d.ref.kind = kind ∧
        due? retry d.ref (tr.review now d.ref s).state = some d := by
  rw [mem_allDue_iff, Table.get?_mapValues, get?_reviewsIn]
  by_cases hk : d.ref.kind = kind
  · simp [reviewIn, hk]
  · simp [hk]

/-- What the pass over a kind comes to, all at once. -/
theorem passed_passOver (m : Moment) (retry : Bool) (tr : Tracker) (kind : PolicyKind) :
    Passed m retry kind tr (tr.passOver m retry kind) := by
  have sends := sends_foldl_send m.leads
    { tr with
      policies := (tr.reviewsIn m.now kind).mapValues fun _ r => r.state
      marks := remark tr.marks kind (allBlocked (tr.reviewsIn m.now kind))
      turnedAway := tr.turnedAway + (allBlocked (tr.reviewsIn m.now kind)).length }
    (allDue retry kind ((tr.reviewsIn m.now kind).mapValues fun _ r => r.state))
  have marks : (tr.passOver m retry kind).marks =
      remark tr.marks kind (allBlocked (tr.reviewsIn m.now kind)) := sends.marks
  refine
    { records := ?_, pending := ?_, queue := ⟨_, sends.queue, fun _ => mem_due_reviewsIn_iff⟩
      reporter := sends.reporter, targets := sends.targets, routes := sends.routes
      marked := ?_, unmarked := ?_ }
  · refine sends.records.trans ?_
    apply Table.ext_entries
    simp [reviewsIn, Table.mapValues]
  · intro ref s' hs'
    obtain ⟨t, ht, sent⟩ := sends.pending ref s' hs'
    simp only [Table.get?_mapValues, get?_reviewsIn, Option.map_map] at ht
    obtain ⟨s, hs, rfl⟩ := Option.map_eq_some_iff.1 ht
    refine ⟨s, hs, ?_⟩
    rcases sent with kept | ⟨version, status, hm, hpending⟩
    · left
      rw [kept, Function.comp_apply]
      unfold reviewIn
      split <;> rfl
    · right
      obtain ⟨d, hd, heq⟩ := List.mem_map.1 hm
      obtain ⟨s₁, hs₁, -, hdue⟩ := mem_due_reviewsIn_iff.1 hd
      obtain rfl := Due.change_eq_iff.1 heq
      obtain rfl := Option.some.inj (hs.symm.trans hs₁)
      have hversion : version = s.facts.resourceVersion := congrArg Due.version (eq_of_due? hdue)
      exact ⟨status, hversion ▸ hpending⟩
  · rintro a ref rfl
    rw [markOf?, marks, markIn?_remark]
    simp only [mem_blocked_reviewsIn_iff, true_and, List.mem_map, Prod.exists,
      exists_and_right, exists_eq_right]
    constructor
    · rintro ⟨condition, s, hs, hb⟩
      exact ⟨s, hs, condition, hb⟩
    · rintro ⟨s, hs, condition, hb⟩
      exact ⟨condition, s, hs, hb⟩
  · intro a ref hk
    have kind_of_blocked : ∀ b ∈ allBlocked (tr.reviewsIn m.now kind), b.2.1.kind = kind := by
      rintro ⟨a, ref, condition⟩ hb
      exact (mem_blocked_reviewsIn_iff.1 hb).1
    rw [markOf?, marks, markIn?_remark_of_ne kind_of_blocked hk, markOf?]

section Records

variable {m : Moment} {retry : Bool} {kind : PolicyKind} {tr tr' : Tracker} {ref : PolicyKey}

/-- A policy of the kind has the record that its review computed. -/
theorem Passed.reviewed (h : Passed m retry kind tr tr') {s : PolicyRecord}
    (hs : tr.policies.get? ref = some s) (hk : ref.kind = kind) :
    ∃ pending, tr'.policies.get? ref = some { (tr.review m.now ref s).state with pending } := by
  obtain ⟨s', hs', rest⟩ := Table.get?_eq_some_of_mapValues h.records hs
  rw [reviewIn, if_pos hk] at rest
  exact ⟨s'.pending, hs'.trans (congrArg some (PolicyRecord.atRest_eq_iff.1 rest))⟩

/-- A policy of another kind keeps its record, but for what is pending. -/
theorem Passed.passedBy (h : Passed m retry kind tr tr') {s : PolicyRecord}
    (hs : tr.policies.get? ref = some s) (hk : ref.kind ≠ kind) :
    ∃ pending, tr'.policies.get? ref = some { s with pending } := by
  obtain ⟨s', hs', rest⟩ := Table.get?_eq_some_of_mapValues h.records hs
  rw [reviewIn, if_neg hk] at rest
  exact ⟨s'.pending, hs'.trans (congrArg some (PolicyRecord.atRest_eq_iff.1 rest))⟩

/-- A pass into an empty queue with room sends nothing for a policy of the kind exactly if nothing is
due. -/
theorem Passed.sendsNothing_iff (h : Passed m retry ref.kind tr tr') {s : PolicyRecord}
    (hs : tr.policies.get? ref = some s) (empty : tr.queue.waiting = []) (leads : m.leads = true)
    (isOpen : tr.queue.isOpen = true) (room : tr'.queue.overflowed = tr.queue.overflowed) :
    statusesOf ref tr'.queue.waiting = [] ↔ due? retry ref (tr.review m.now ref s).state = none := by
  obtain ⟨due, takes, mem_due⟩ := h.queue
  rw [takes.all leads isOpen room, empty, List.nil_append, List.eq_nil_iff_forall_not_mem]
  constructor
  · intro nothing
    cases hd : due? retry ref (tr.review m.now ref s).state with
    | none => rfl
    | some d =>
      obtain ⟨other, version, status⟩ := d
      obtain rfl : other = ref := congrArg Due.ref (eq_of_due? hd)
      have isDue : ⟨other, version, status⟩ ∈ due := (mem_due _).2 ⟨s, hs, rfl, hd⟩
      refine absurd (mem_statusesOf_iff.2 ?_) (nothing (version, status))
      exact List.mem_map.2 ⟨_, isDue, rfl⟩
  · rintro notDue ⟨version, status⟩ hm
    obtain ⟨d, hd, heq⟩ := List.mem_map.1 (mem_statusesOf_iff.1 hm)
    obtain rfl := Due.change_eq_iff.1 heq
    obtain ⟨s', hs', -, isDue⟩ := (mem_due _).1 hd
    obtain rfl := Option.some.inj (hs.symm.trans hs')
    rw [notDue] at isDue
    cases isDue

/-- Every policy was there before the pass. -/
theorem Passed.exists_before (h : Passed m retry kind tr tr') {s' : PolicyRecord}
    (hs : tr'.policies.get? ref = some s') : ∃ s, tr.policies.get? ref = some s := by
  obtain ⟨s, hs, -⟩ := Table.get?_eq_some_of_mapValues h.records.symm hs
  exact ⟨s, hs⟩

end Records

end Passing

end Tracker
end PolicyAttachment
