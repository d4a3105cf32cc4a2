import PolicyAttachment.Proofs.Register.Call
import Mathlib.Data.List.DropRight

/-!
# Since when a condition has its status

A condition keeps its time from report to report for as long as its status stays the same. So the
time in an entry is that of the first report of those at the end that all show the condition with the
status it has (`ConditionSet.heldSince`), counting the reports for the entry since it came into being
(`Register.history`), whatever else was done to the register in between: `Register.dated_of_history`.
-/

namespace PolicyAttachment
set_option autoImplicit false

namespace ConditionSet

/-- Whether the set has a condition of the type `type` with the status `status`. -/
def shows (type : String) (status : ConditionStatus) (s : ConditionSet) : Bool :=
  s.conditions.any fun c => c.type = type ∧ c.status = status

/-- The time that the first of the `reports` at the end has which all show `type` with `status`. -/
def heldSince (type : String) (status : ConditionStatus) (reports : List ConditionSet) :
    Option Instant :=
  ((reports.rtakeWhile (shows type status)).head?.bind (get? · type)).map Condition.lastTransition

/-- Both sets say the same, condition by condition, perhaps since different times. -/
def SaysSame (s t : ConditionSet) : Prop :=
  List.Forall₂ Condition.SaysSame s.conditions t.conditions

variable {s t : ConditionSet} {type : String} {status : ConditionStatus}
  {reports : List ConditionSet}

theorem shows_iff : s.shows type status = true ↔
    ∃ c ∈ s.conditions, c.type = type ∧ c.status = status := by
  simp [shows]

theorem shows_of_mem {c : Condition} (h : c ∈ s.conditions) : shows c.type c.status s = true :=
  shows_iff.2 ⟨c, h, rfl, rfl⟩

/-- Whether a type is shown with a status is up to the one condition of the type. -/
theorem shows_eq_any_get? (s : ConditionSet) :
    shows type status s = (s.get? type).any (·.status = status) := by
  rw [Bool.eq_iff_iff, shows_iff, Option.any_eq_true]
  simp only [get?_eq_some_iff, decide_eq_true_eq, and_assoc]

theorem SaysSame.shows_eq (h : s.SaysSame t) : shows type status s = shows type status t := by
  unfold SaysSame at h
  unfold shows
  generalize s.conditions = cs at h ⊢
  generalize t.conditions = ds at h ⊢
  induction h with
  | nil => rfl
  | cons same _ ih => rw [List.any_cons, List.any_cons, ih, same.type, same.status]

theorem saysSame_refl (s : ConditionSet) : s.SaysSame s :=
  List.forall₂_same.2 fun c _ => c.saysSame_refl

theorem SaysSame.inheritTimes (h : s.SaysSame t) (previous : ConditionSet) :
    (s.inheritTimes previous).SaysSame t := by
  obtain ⟨f, same, conditions⟩ := exists_inheritTimes s previous
  rw [SaysSame, conditions, List.forall₂_map_left_iff]
  exact List.Forall₂.imp (fun c _ alike => (same c).trans alike) h

theorem saysSame_inheritTimes (s previous : ConditionSet) :
    (s.inheritTimes previous).SaysSame s :=
  s.saysSame_refl.inheritTimes previous

/-- A condition has the time of the previous one with its status, if there is one. -/
theorem exists_of_mem_inheritTimes {previous : ConditionSet} {c : Condition}
    (h : c ∈ (s.inheritTimes previous).conditions) :
    ∃ d ∈ s.conditions, c.SaysSame d ∧
      ((∃ prior ∈ previous.conditions, prior.type = d.type ∧ prior.status = d.status ∧
        c.lastTransition = prior.lastTransition) ∨
      shows d.type d.status previous = false ∧ c.lastTransition = d.lastTransition) := by
  obtain ⟨d, hd, rfl⟩ := List.mem_map.1 h
  refine ⟨d, hd, ?_⟩
  rw [shows_eq_any_get?]
  cases hget : previous.get? d.type with
  | none => exact ⟨d.saysSame_refl, .inr ⟨rfl, rfl⟩⟩
  | some prior =>
    obtain ⟨hm, htype⟩ := get?_eq_some_iff.1 hget
    by_cases same : prior.status = d.status
    · simp only [same, if_true]
      exact ⟨⟨rfl, rfl, rfl, rfl, rfl⟩, .inl ⟨prior, hm, htype, same, rfl⟩⟩
    · simp only [same, if_false]
      exact ⟨d.saysSame_refl, .inr ⟨decide_eq_false same, trivial⟩⟩

/-- What the last report does not show has not been held. -/
theorem heldSince_eq_none (h : ∀ last ∈ reports.getLast?, shows type status last = false) :
    heldSince type status reports = none := by
  have nothing : reports.rtakeWhile (shows type status) = [] := by
    rw [List.rtakeWhile_eq_nil_iff]
    intro hne
    rw [h _ (List.getLast?_eq_some_getLast hne)]
    exact Bool.false_ne_true
  rw [heldSince, nothing]
  rfl

/-- One more report that shows the condition dates it only if those before do not. -/
theorem heldSince_append {new : ConditionSet} (h : shows type status new = true) :
    heldSince type status (reports ++ [new]) =
      (heldSince type status reports).or ((new.get? type).map Condition.lastTransition) := by
  unfold heldSince
  rw [List.rtakeWhile_concat_pos _ _ _ h]
  cases hrun : reports.rtakeWhile (shows type status) with
  | nil => rfl
  | cons first rest =>
    have shown : shows type status first = true :=
      List.mem_rtakeWhile_imp (hrun ▸ List.mem_cons_self)
    obtain ⟨c, hc, rfl, -⟩ := shows_iff.1 shown
    simp [get?_of_mem hc]

/-- What the entry of a key is after the `reports` for it. -/
structure Dated (reports : List ConditionSet) (s : ConditionSet) : Prop where
  last : ∃ last, reports.getLast? = some last ∧ s.SaysSame last
  times : ∀ c ∈ s.conditions, heldSince c.type c.status reports = some c.lastTransition

theorem dated_singleton (s : ConditionSet) : Dated [s] s where
  last := ⟨s, rfl, s.saysSame_refl⟩
  times c hc := by
    rw [← List.nil_append [s], heldSince_append (shows_of_mem hc), get?_of_mem hc]
    rfl

/-- The next report inherits its times from the entry, and from no other one. -/
theorem Dated.append (h : Dated reports s) (new : ConditionSet) :
    Dated (reports ++ [new]) (new.inheritTimes s) where
  last := ⟨new, List.getLast?_concat, saysSame_inheritTimes new s⟩
  times c hc := by
    obtain ⟨d, hd, same, before⟩ := exists_of_mem_inheritTimes hc
    rw [same.type, same.status, heldSince_append (shows_of_mem hd)]
    rcases before with ⟨prior, hprior, htype, hstatus, htime⟩ | ⟨notBefore, htime⟩
    · rw [← htype, ← hstatus, h.times prior hprior, htime]
      rfl
    · have undated : heldSince d.type d.status reports = none := by
        apply heldSince_eq_none
        intro last hlast
        obtain ⟨last', hlast', alike⟩ := h.last
        obtain rfl := Option.some.inj (hlast'.symm.trans hlast)
        rw [← alike.shows_eq, notBefore]
      rw [undated, get?_of_mem hd, htime]
      rfl

end ConditionSet

namespace Register

open Entry

variable {r : Register} {key : EntryKey} {call : Call} {cs : ConditionSet}

/-- The conditions that a call reports for `key`, if they are recorded. -/
def recordedFor? (r : Register) (key : EntryKey) (call : Call) : Option ConditionSet :=
  (call.report?.filter fun report => report.key = key ∧ (r.record report).isOk).map
    Report.conditions

/-- What was reported for `key` since its entry came into being, after one more call; `past` is what
it was before. -/
def noted (r : Register) (key : EntryKey) (past : List ConditionSet) (call : Call) :
    List ConditionSet :=
  if (r.after call).get? key = none then []
  else
    match r.recordedFor? key call with
    | some conditions => if r.get? key = none then [conditions] else past ++ [conditions]
    | none => past

/-- What was reported for `key` since its entry came into being, after some calls. -/
def notedAll (r : Register) (key : EntryKey) (past : List ConditionSet) :
    List Call → List ConditionSet
  | [] => past
  | call :: calls => (r.after call).notedAll key (r.noted key past call) calls

/-- What was reported for `key` since its entry came into being. An entry that is there at the start
counts as a first report. -/
def history (r : Register) (key : EntryKey) (calls : List Call) : List ConditionSet :=
  r.notedAll key (r.get? key).toList calls

/-- A call records for a key what it reports for it, unless it is refused. -/
theorem recordedFor?_eq_some_iff : r.recordedFor? key call = some cs ↔
    ∃ report, call.report? = some report ∧ report.key = key ∧ report.conditions = cs ∧
      ∃ out, r.record report = .ok out := by
  have isOk : ∀ outcome : Except Unrecordable (Recorded × Register),
      outcome.isOk = true ↔ ∃ out, outcome = .ok out := by
    intro outcome
    cases outcome <;> simp [Except.isOk, Except.toBool]
  simp only [recordedFor?, Option.map_eq_some_iff, Option.filter_eq_some_iff, decide_eq_true_eq,
    isOk]
  constructor
  · rintro ⟨report, ⟨made, hkey, ok⟩, hcs⟩
    exact ⟨report, made, hkey, hcs, ok⟩
  · rintro ⟨report, made, hkey, hcs, ok⟩
    exact ⟨report, ⟨made, hkey, ok⟩, hcs⟩

/-- A report that is recorded has the times of the entry that was there. -/
theorem Sound.get?_after_of_recorded (h : r.Sound) (recorded : r.recordedFor? key call = some cs) :
    (r.after call).get? key = some (r.carried key cs) := by
  obtain ⟨report, made, rfl, rfl, out, ok⟩ := recordedFor?_eq_some_iff.1 recorded
  obtain ⟨sound, hmem, -⟩ := h.of_put (report_eq_ok_iff.1 ok)
  rw [after_of_report? made, ok]
  exact sound.get?_eq_some_iff.2 hmem

/-- A report for another key changes nothing about the entry, nor does one that is refused. -/
theorem Sound.known_mem_of_reported (h : r.Sound) {report : Report}
    (made : call.report? = some report) (unrecorded : r.recordedFor? key call = none)
    (hm : .known key cs ∈ (r.after call).entries) : .known key cs ∈ r.entries := by
  rw [after_of_report? made] at hm
  cases ok : r.record report with
  | error e =>
    rw [ok] at hm
    exact hm
  | ok out =>
    have other : key ≠ report.key := by
      intro hkey
      rw [Option.eq_none_iff_forall_ne_some] at unrecorded
      exact unrecorded _ (recordedFor?_eq_some_iff.2 ⟨report, made, hkey.symm, rfl, out, ok⟩)
    rcases h.entries_reported report with entries | entries | same
    · rw [entries, known_mem_map_revise_iff] at hm
      rcases hm with ⟨hkey, -⟩ | ⟨-, hm⟩
      · exact absurd hkey other
      · exact hm
    · rw [entries, List.mem_append, List.mem_singleton] at hm
      rcases hm with hm | hm
      · exact hm
      · exact absurd (Entry.known.inj hm).1 other
    · rwa [same] at hm

/-- An entry that is there after a call which did not record it was there before, if what is taken
over is taken over by its owner. -/
theorem Sound.known_mem_of_after (h : r.Sound) (unrecorded : r.recordedFor? key call = none)
    (view : ∀ ours status, call = .takeOver ours status → ours = key.controller)
    (hm : .known key cs ∈ (r.after call).entries) : .known key cs ∈ r.entries := by
  cases call with
  | report controller ancestor conditions => exact h.known_mem_of_reported rfl unrecorded hm
  | record report => exact h.known_mem_of_reported rfl unrecorded hm
  | withdraw controller ancestor =>
    rw [after, (h.withdraw controller ancestor).2] at hm
    exact (List.mem_filter.1 hm).1
  | withdrawExcept controller keep =>
    rw [after, (h.withdrawExcept controller keep).2] at hm
    exact (List.mem_filter.1 hm).1
  | takeOver ours status =>
    obtain rfl := view ours status rfl
    exact (known_mem_iff_of_own (h.own_takeOver key.controller status)).1 hm

/-- One call keeps the entry of `key` as its reports say. -/
theorem Reachable.dated_noted (h : r.Reachable) {past : List ConditionSet}
    (view : ∀ ours status, call = .takeOver ours status → ours = key.controller)
    (dated : ∀ cs, r.get? key = some cs → ConditionSet.Dated past cs)
    (there : (r.after call).get? key = some cs) :
    ConditionSet.Dated (r.noted key past call) cs := by
  have sound := h.resumable.sound
  rw [noted, there, if_neg (Option.some_ne_none cs)]
  cases recorded : r.recordedFor? key call with
  | none =>
    have after := (h.after call).resumable.sound.get?_eq_some_iff.1 there
    exact dated cs (sound.get?_eq_some_iff.2 (sound.known_mem_of_after recorded view after))
  | some conditions =>
    rw [sound.get?_after_of_recorded recorded, Option.some.injEq] at there
    subst there
    unfold carried
    cases before : r.get? key with
    | none => exact ConditionSet.dated_singleton conditions
    | some previous => exact (dated previous before).append conditions

/-- Any calls, one after the other, keep the entry of `key` as its reports say. -/
theorem Reachable.dated_notedAll (h : r.Reachable) {past : List ConditionSet} {calls : List Call}
    (views : ∀ ours status, .takeOver ours status ∈ calls → ours = key.controller)
    (dated : ∀ cs, r.get? key = some cs → ConditionSet.Dated past cs)
    (there : (r.afterAll calls).get? key = some cs) :
    ConditionSet.Dated (r.notedAll key past calls) cs := by
  induction calls generalizing r past with
  | nil => exact dated cs there
  | cons call calls ih =>
    have view : ∀ ours status, call = .takeOver ours status → ours = key.controller :=
      fun ours status heq => views ours status (heq ▸ List.mem_cons_self)
    have rest : ∀ ours status, .takeOver ours status ∈ calls → ours = key.controller :=
      fun ours status hm => views ours status (List.mem_cons_of_mem call hm)
    exact ih (h.after call) rest (fun _ => h.dated_noted view dated) there

/-- After any calls on a new or a loaded register, in which what others stored is taken over by the
controller of `key` only, an entry for `key` says what the last report for it says, and each of its
conditions has the time of the first of those at the end that all show it with its status. -/
theorem dated_of_history {start : Register}
    (begun : start = empty ∨ ∃ status, ofStatus status = .ok start) {key : EntryKey}
    {calls : List Call}
    (views : ∀ ours status, .takeOver ours status ∈ calls → ours = key.controller)
    {cs : ConditionSet} (there : (start.afterAll calls).get? key = some cs) :
    (∃ last, (start.history key calls).getLast? = some last ∧ cs.SaysSame last) ∧
      ∀ c ∈ cs.conditions,
        ConditionSet.heldSince c.type c.status (start.history key calls) = some c.lastTransition := by
  have reachable : start.Reachable := by
    rcases begun with rfl | ⟨status, loaded⟩
    · exact .empty
    · exact .loaded status loaded
  have dated : ∀ cs, start.get? key = some cs →
      ConditionSet.Dated (start.get? key).toList cs := by
    intro cs hcs
    rw [hcs]
    exact ConditionSet.dated_singleton cs
  obtain ⟨last, times⟩ := reachable.dated_notedAll views dated there
  exact ⟨last, times⟩

namespace Sample

/-- A condition that is reported as new at `second`. -/
def newAt (type : String) (status : ConditionStatus) (second : Int) : Condition :=
  ⟨type, status, "", "", ⟨second, 0⟩, none⟩

def acceptedAt (second : Int) : ConditionSet :=
  ⟨[newAt "Accepted" .holds second], by simp [newAt], by simp [maxConditions]⟩

def unreadyAt (second : Int) : ConditionSet :=
  ⟨[newAt "Ready" .fails second], by simp [newAt], by simp [maxConditions]⟩

def bothAt (second : Int) : ConditionSet :=
  ⟨[newAt "Accepted" .holds second, newAt "Ready" .fails second], by simp [newAt],
    by simp [maxConditions]⟩

/-- An entry of ours, as it is stored. -/
def storedAccepted : StatusByAncestor where
  ancestors := [(Entry.known reportKey (acceptedAt 1)).toStatus]

/-- The register that is loaded from it. -/
def accepting : Register := (storedAccepted.ancestors.map Entry.ofStatus).foldl push empty

/-- The stored entry is reported again and withdrawn. The one that follows it loses a condition and
gets it back, while others report and store what they want. -/
def restarted : List Call :=
  [.record ⟨reportKey, acceptedAt 2⟩, .withdrawExcept reportKey.controller fun _ => false,
    .record ⟨reportKey, bothAt 3⟩, .report ⟨"example.org/mesh", rfl⟩ reportKey.ancestor (bothAt 4),
    .record ⟨reportKey, unreadyAt 5⟩, .takeOver reportKey.controller storedStatus,
    .report reportKey.controller reportKey.ancestor (bothAt 6)]

theorem dated_restarted :
    ofStatus storedAccepted = .ok accepting ∧
      accepting.history reportKey restarted = [bothAt 3, unreadyAt 5, bothAt 6] ∧
      ∃ cs, (accepting.afterAll restarted).get? reportKey = some cs ∧
        cs.conditions = [newAt "Accepted" .holds 6, newAt "Ready" .fails 3] ∧
        cs.SaysSame (bothAt 6) ∧
        ConditionSet.heldSince "Ready" .fails [bothAt 3, unreadyAt 5, bothAt 6] = some ⟨3, 0⟩ := by
  have loaded : ofStatus storedAccepted = .ok accepting := rfl
  have history : accepting.history reportKey restarted = [bothAt 3, unreadyAt 5, bothAt 6] := by
    decide +kernel
  obtain ⟨cs, there, conditions⟩ : ∃ cs, (accepting.afterAll restarted).get? reportKey = some cs ∧
      cs.conditions = [newAt "Accepted" .holds 6, newAt "Ready" .fails 3] :=
    ⟨⟨[newAt "Accepted" .holds 6, newAt "Ready" .fails 3], by decide, by decide⟩,
      by decide +kernel, rfl⟩
  have views : ∀ ours status, .takeOver ours status ∈ restarted → ours = reportKey.controller := by
    intro ours status hm
    simp only [restarted, List.mem_cons, List.not_mem_nil, reduceCtorEq, Call.takeOver.injEq,
      or_false, false_or] at hm
    exact hm.1
  obtain ⟨⟨last, hlast, same⟩, times⟩ := dated_of_history (.inr ⟨_, loaded⟩) views there
  rw [history] at hlast times
  obtain rfl := Option.some.inj hlast
  exact ⟨loaded, history, cs, there, conditions, same,
    times (newAt "Ready" .fails 3) (by simp [conditions])⟩

end Sample

end Register
end PolicyAttachment
