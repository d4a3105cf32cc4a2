import PolicyAttachment.Proofs.Session.Log

/-!
# Conditions on ancestors in a run

Marks are made anew for one kind of policies at a time, while what is flagged changes only by what is
enqueued. Still what is flagged on a target is what was last shown on it, in every run; and whenever
the conditions on ancestors are brought up to date without loss, it is what the marks ask for:
`Session.Logged.flags_track_marks`.
-/

namespace PolicyAttachment
set_option autoImplicit false

namespace Sync

/-- What was put into the queue. -/
def enqueued (y : Sync) : List StatusChange :=
  y.after.queue.waiting.drop y.before.queue.waiting.length

/-- Everything that was offered to the queue was taken in. -/
def Lossless (y : Sync) : Prop :=
  Queue.Lossless y.moment.leads y.before.queue y.after.queue

end Sync

namespace Tracker

/-- The marks ask for a message on the target. -/
def Asks (tr : Tracker) (t : Target) (message : String) : Prop :=
  ∃ c, tr.Wanted t c ∧ c.message = message

variable {log : List Note} {n : Nat} {tr : Tracker} {t : Target} {message : String}

/-- The message that is asked for is that of the condition wanted on the target. -/
theorem asks_iff : tr.Asks t message ↔
    (tr.wanted? t).map Condition.message = some message := by
  simp only [Asks, ← wanted?_eq_some_iff, Option.map_eq_some_iff]

/-- What is enqueued for a target is due, and all that is due is enqueued if nothing is lost. -/
theorem Accounts.sync {y : Sync} (h : y.before.Accounts log n) (t : Target) :
    (flagsOf t y.enqueued).Sublist (y.before.flagsDue y.force t) ∧
      (y.Lossless → flagsOf t y.enqueued = y.before.flagsDue y.force t ∧
        y.after.flagged.get? t = (y.before.wanted? t).map Condition.message) := by
  have relays := relays_flag_syncFlags y.moment y.force h.carry t
  obtain ⟨sub, all⟩ := relays.enqueued
  refine ⟨sub, ?_⟩
  intro lossless
  exact ⟨all lossless, (relays.memory_of_lossless lossless).trans
    (after_flagsDue h.filled h.carry y.force t)⟩

end Tracker

namespace Session

open Tracker (Asks Accounts)

variable {reporter : Reporter} {es : List Event} {ps : List Pass} {log : List Note} {s : Session}

/-- In every run, a policy that is marked is known and of a kind that reports per ancestor. -/
theorem Run.known_of_marked (run : Run reporter es ps s) {ref : PolicyKey} {a : Target}
    (marked : (s.tracker.markOf? a ref).isSome) :
    ref.kind.reportsByAncestor = true ∧ s.tracker.policies.contains ref = true := by
  obtain ⟨capacity, turn⟩ := run.turn
  have agree := (turn.kept ref.kind).resolve_left id
  rw [agree.marks a ref rfl] at marked
  cases hp : Pass.last? ref.kind ps with
  | none =>
    rw [Pass.leftBy, hp] at marked
    cases marked
  | some p =>
    rw [Pass.leftBy_of_last? hp] at marked agree
    have passed := p.passed_after
    rw [Pass.kind_of_last? hp] at passed
    obtain ⟨old, hold, blocked⟩ := (passed.marked a ref rfl).1 marked
    obtain ⟨pending, hnew⟩ := passed.reviewed hold rfl
    obtain ⟨r, hr, -⟩ := agree.get? hnew rfl
    refine ⟨?_, by rw [Table.contains, hr]; rfl⟩
    cases hk : ref.kind.reportsByAncestor with
    | true => rfl
    | false =>
      rw [(Tracker.review_of_not_reportsByAncestor hk).2] at blocked
      cases blocked

/-- Before the conditions on ancestors are brought up to date, all that was enqueued is noted. -/
theorem Logged.accounts_sync (logged : Logged reporter log s) {now : Instant} {o : Occurrence}
    {y : Sync} (hy : y ∈ s.syncs now o) :
    y.before.Accounts (log ++ o.events.map .event) s.tracker.queue.waiting.length := by
  by_cases ho : o = .queueClosed
  · subst ho
    cases hy
  · have entered := accounts_entered logged.accounts ho
    exact ((Tracker.keeps_accounts _ _ (s.momentOf now o)).syncs entered hy).2

end Session

/-- Every mark is of a known policy of a kind that reports per ancestor, and no ancestor is without
marks. -/
def Tracker.MarksKnown (tr : Tracker) : Prop :=
  ∀ t ms, tr.marks.get? t = some ms → ms.isEmpty = false ∧
    ∀ ref c, ms.get? ref = some c →
      ref.kind.reportsByAncestor = true ∧ tr.policies.contains ref = true

/-- How a target fares when the conditions on ancestors are brought up to date, and `log` is what was
noted before. -/
structure Sync.Settles (log : List Note) (y : Sync) (t : Target) : Prop where
  /-- If nothing is lost, then just the message that the marks ask for is flagged. -/
  flags : y.Lossless → ∀ message,
    y.after.flagged.get? t = some message ↔ y.before.Asks t message
  /-- Nothing is enqueued where the message that the marks ask for was the last one shown. -/
  spares : y.force = false →
    (∀ message, lastShown t log = some message ↔ y.before.Asks t message) →
    flagsOf t y.enqueued = []
  /-- A marked target that can carry a condition has its condition repeated. -/
  repeats : y.force = true → y.Lossless → t.apiVersion?.isSome →
    y.before.marks.contains t = true →
    ∃ c, y.before.Wanted t c ∧ flagsOf t y.enqueued = [some c]
  /-- A flagged target without marks is cleared once. -/
  clears : y.force = true → y.Lossless → (y.before.flagged.get? t).isSome →
    y.before.marks.contains t = false → flagsOf t y.enqueued = [none]
  /-- For any other target nothing is enqueued. -/
  leaves : y.force = true → y.Lossless →
    (y.before.marks.contains t = true → t.apiVersion? = none) →
    (y.before.marks.contains t = false → y.before.flagged.get? t = none) →
    flagsOf t y.enqueued = []

/-- If the log accounts for what the tracker remembers, then bringing the conditions up to date
settles every target. -/
theorem Tracker.Accounts.settles {log : List Note} {n : Nat} {y : Sync}
    (h : y.before.Accounts log n) (t : Target) :
    y.Settles (log ++ (y.before.queue.waiting.drop n).map .enqueued) t := by
  obtain ⟨sub, all⟩ := h.sync t
  refine ⟨?_, ?_, ?_, ?_, ?_⟩
  · intro lossless message
    rw [(all lossless).2, asks_iff]
  · intro plain said
    have memory : y.before.flagged.get? t = _ := (h.shown t).memory
    have shown : y.before.flagged.get? t = (y.before.wanted? t).map Condition.message := by
      apply Option.ext
      intro message
      rw [← asks_iff, ← said message, memory, lastShown]
    rw [plain, flagsDue_of_shown shown] at sub
    exact List.sublist_nil.1 sub
  · intro repeated lossless carries marked
    obtain ⟨c, hc⟩ := Option.isSome_iff_exists.1 (h.filled.isSome_wanted? marked carries)
    refine ⟨c, wanted?_eq_some_iff.1 hc, ?_⟩
    rw [(all lossless).1, repeated, flagsDue_repeated, hc]
  · intro repeated lossless flagged unmarked
    rw [(all lossless).1, repeated, flagsDue_repeated, wanted?_of_not_contains unmarked]
    exact if_pos ⟨flagged, unmarked⟩
  · intro repeated lossless uncarried unflagged
    rw [(all lossless).1, repeated, flagsDue_repeated]
    cases hw : y.before.wanted? t with
    | some c =>
      have wanted := wanted?_eq_some_iff.1 hw
      obtain ⟨ref, marked, -⟩ := wanted.least
      have contains : y.before.marks.contains t = true := Table.contains_of_bind marked
      have carries := wanted.carries
      rw [uncarried contains] at carries
      cases carries
    | none =>
      refine if_neg ?_
      rintro ⟨flagged, unmarked⟩
      rw [unflagged unmarked] at flagged
      cases flagged

namespace Session

variable {reporter : Reporter} {log : List Note} {s : Session}

/-- In every run, whoever leads and whatever is lost, the marks are known and what is flagged on a
target is the message of the last condition that was enqueued for it, unless that was cleared. Whenever
the conditions on ancestors are brought up to date, every target is settled. -/
theorem Logged.flags_track_marks (logged : Logged reporter log s) :
    s.tracker.MarksKnown ∧
    (∀ t, s.tracker.flagged.get? t =
      (flagsOf t (changesIn log)).getLast?.bind fun c => c.map Condition.message) ∧
    ∀ now o, ∀ y ∈ s.syncs now o, ∀ t, y.Settles (log ++ s.notes o y.before) t := by
  have accounts := logged.accounts
  obtain ⟨ps, run⟩ := logged.run
  refine ⟨?_, ?_, ?_⟩
  · intro t ms hms
    refine ⟨accounts.filled t ms hms, ?_⟩
    intro ref c hc
    apply run.known_of_marked (a := t)
    rw [Tracker.markOf?, Tracker.markIn?, hms, Option.bind_some, hc]
    rfl
  · intro t
    rw [← lastShown_eq]
    exact (accounts.shown t).memory_eq
  · intro now o y hy t
    rw [notes, ← List.append_assoc]
    exact (logged.accounts_sync hy).settles t

instance (y : Sync) : Decidable y.Lossless := inferInstanceAs (Decidable (_ ∧ _ ∧ _))

/-- The policy that finds its status almost full is marked on "c", which then shows it. -/
theorem flags_track_marks_crowded :
    ∃ y ∈ Sample.start.syncs Sample.now (.event (.applied (.policy Sample.crowded))),
      y.Lossless ∧ ∃ message, y.before.Asks (Sample.service "c") message ∧
        y.after.flagged.get? (Sample.service "c") = some message := by
  have shown : ∃ y ∈ Sample.start.syncs Sample.now (.event (.applied (.policy Sample.crowded))),
      y.Lossless ∧ (y.after.flagged.get? (Sample.service "c")).isSome := by
    decide +kernel
  obtain ⟨y, hy, lossless, flagged⟩ := shown
  obtain ⟨message, hm⟩ := Option.isSome_iff_exists.1 flagged
  have settles := (Logged.flags_track_marks (.start "h" ⟨"h", none⟩ 100)).2.2 Sample.now _ y hy
    (Sample.service "c")
  exact ⟨y, hy, lossless, message, (settles.flags lossless message).1 hm, hm⟩

end Session
end PolicyAttachment
