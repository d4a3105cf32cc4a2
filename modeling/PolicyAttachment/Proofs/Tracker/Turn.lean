import PolicyAttachment.Tracker.Event
import PolicyAttachment.Proofs.Tracker.Shown

/-!
# Turns

An event changes one object and leads to passes over the kinds of policies that the change can
affect. `Turn` is what comes of that: for every kind the tracker is as the last pass over the kind
left it, or as it was if there was none. The edits of single objects owe passes over some kinds, and
`turn_handle` says that every event pays what it owes.
-/

namespace PolicyAttachment
set_option autoImplicit false

/-- One pass over a kind, with the tracker it started from. -/
structure Pass where
  before : Tracker
  moment : Moment
  retry : Bool
  kind : PolicyKind

namespace Pass

/-- The tracker that the pass led to. -/
def after (p : Pass) : Tracker := p.before.passOver p.moment p.retry p.kind

/-- The last pass over `kind`. -/
def last? (kind : PolicyKind) (passes : List Pass) : Option Pass :=
  (passes.filter fun p => p.kind = kind).getLast?

/-- The tracker that the last pass over `kind` left, or `tr` if there was none. -/
def leftBy (kind : PolicyKind) (tr : Tracker) (passes : List Pass) : Tracker :=
  ((last? kind passes).map after).getD tr

/-- The last pass over a kind is the last of those that came later, if there is one. -/
theorem last?_append (kind : PolicyKind) (ps qs : List Pass) :
    last? kind (ps ++ qs) = (last? kind qs).or (last? kind ps) := by
  rw [last?, List.filter_append, List.getLast?_append, last?, last?]

theorem leftBy_of_last? {kind : PolicyKind} {tr : Tracker} {passes : List Pass} {p : Pass}
    (h : last? kind passes = some p) : leftBy kind tr passes = p.after := by
  rw [leftBy, h]
  rfl

/-- What comes later is what was left last. -/
theorem leftBy_append (kind : PolicyKind) (tr : Tracker) (ps qs : List Pass) :
    leftBy kind tr (ps ++ qs) = leftBy kind (leftBy kind tr ps) qs := by
  unfold leftBy
  rw [last?_append]
  cases last? kind qs <;> rfl

theorem passed_after (p : Pass) : Tracker.Passed p.moment p.retry p.kind p.before p.after :=
  Tracker.passed_passOver p.moment p.retry p.before p.kind

theorem kind_of_last? {kind : PolicyKind} {passes : List Pass} {p : Pass}
    (h : last? kind passes = some p) : p.kind = kind := by
  simpa using (List.mem_filter.1 (List.mem_of_getLast? h)).2

theorem mem_of_last? {kind : PolicyKind} {passes : List Pass} {p : Pass}
    (h : last? kind passes = some p) : p ∈ passes :=
  (List.mem_filter.1 (List.mem_of_getLast? h)).1

end Pass

namespace Tracker

/-- `tr'` came from `tr` with these passes. Unless a kind is `owed` a pass, the tracker is as the last
pass over the kind left it. -/
structure Turn (owed : PolicyKind → Prop) (tr : Tracker) (passes : List Pass) (tr' : Tracker) :
    Prop where
  reporter : tr'.reporter = tr.reporter
  sound : tr.Sound → tr'.Sound ∧ ∀ p ∈ passes, p.before.Sound
  kept : ∀ kind, owed kind ∨ Agree kind (Pass.leftBy kind tr passes) tr'

/-- Nothing is owed. -/
def Nothing (_ : PolicyKind) : Prop := False

section Turns

variable {owed : PolicyKind → Prop} {tr tr' tr'' : Tracker} {ps qs : List Pass}

theorem Turn.refl (tr : Tracker) : Turn Nothing tr [] tr :=
  ⟨rfl, fun h => ⟨h, by simp⟩, fun kind => .inr (.refl kind tr)⟩

/-- Passes made later pay what is owed. -/
theorem Turn.append (h : Turn owed tr ps tr') (h' : Turn Nothing tr' qs tr'') :
    Turn (fun kind => owed kind ∧ Pass.last? kind qs = none) tr (ps ++ qs) tr'' where
  reporter := h'.reporter.trans h.reporter
  sound hs := by
    obtain ⟨hs', before⟩ := h.sound hs
    obtain ⟨hs'', before'⟩ := h'.sound hs'
    refine ⟨hs'', ?_⟩
    intro p hp
    exact (List.mem_append.1 hp).elim (before p) (before' p)
  kept kind := by
    have later := (h'.kept kind).resolve_left id
    rw [Pass.leftBy_append]
    cases hq : Pass.last? kind qs with
    | some q =>
      simp only [Pass.leftBy, hq, Option.map_some, Option.getD_some] at later ⊢
      exact .inr later
    | none =>
      simp only [Pass.leftBy, hq, Option.map_none, Option.getD_none] at later ⊢
      rcases h.kept kind with ho | earlier
      · exact .inl ⟨ho, trivial⟩
      · exact .inr (earlier.trans later)

/-- If no kind is owed a pass, then nothing is owed. -/
theorem Turn.paid (h : Turn owed tr ps tr') (paid : ∀ kind, ¬ owed kind) :
    Turn Nothing tr ps tr' :=
  ⟨h.reporter, h.sound, fun kind => .inr ((h.kept kind).resolve_left (paid kind))⟩

/-- Turns one after the other are a turn. -/
theorem Turn.trans (h : Turn Nothing tr ps tr') (h' : Turn Nothing tr' qs tr'') :
    Turn Nothing tr (ps ++ qs) tr'' :=
  (h.append h').paid fun _ h => h.1

/-- Bringing conditions up to date takes no pass. -/
theorem SendsFlags.turn {leads : Bool} (h : SendsFlags leads tr tr') : Turn Nothing tr [] tr' := by
  obtain ⟨offered, -, sends, -⟩ := h
  exact ⟨sends.reporter, fun hs => ⟨sends.sound hs, by simp⟩, fun kind => .inr (sends.agree kind)⟩

/-- The passes over `kinds`, one after the other. -/
def passesOver (m : Moment) (retry : Bool) : List PolicyKind → Tracker → List Pass
  | [], _ => []
  | kind :: kinds, tr =>
    ⟨tr, m, retry, kind⟩ :: passesOver m retry kinds (tr.passOver m retry kind)

/-- A pass over a kind is what it takes to pay it. -/
theorem turn_passOver (m : Moment) (retry : Bool) (tr : Tracker) (kind : PolicyKind) :
    Turn Nothing tr [⟨tr, m, retry, kind⟩] (tr.passOver m retry kind) where
  reporter := (passed_passOver m retry tr kind).reporter
  sound hs := by
    refine ⟨(passed_passOver m retry tr kind).sound hs, ?_⟩
    intro p hp
    rw [List.mem_singleton.1 hp]
    exact hs
  kept other := by
    by_cases hk : kind = other
    · have : Pass.leftBy other tr [⟨tr, m, retry, kind⟩] = tr.passOver m retry kind := by
        simp [Pass.leftBy, Pass.last?, hk, Pass.after]
      rw [this]
      exact .inr (.refl other _)
    · have : Pass.leftBy other tr [⟨tr, m, retry, kind⟩] = tr := by
        simp [Pass.leftBy, Pass.last?, hk]
      rw [this]
      exact .inr ((passed_passOver m retry tr kind).agree (Ne.symm hk))

/-- Passes one after the other pay all their kinds. -/
theorem turn_foldl_passOver (m : Moment) (retry : Bool) (kinds : List PolicyKind) (tr : Tracker) :
    Turn Nothing tr (passesOver m retry kinds tr) (kinds.foldl (passOver m retry) tr) := by
  induction kinds generalizing tr with
  | nil => exact .refl tr
  | cons kind kinds ih =>
    exact (turn_passOver m retry tr kind).trans (ih (tr.passOver m retry kind))

/-- Every kind that is gone over has a last pass. -/
theorem isSome_last?_passesOver (m : Moment) (retry : Bool) {kinds : List PolicyKind}
    {kind : PolicyKind} (h : kind ∈ kinds) (tr : Tracker) :
    (Pass.last? kind (passesOver m retry kinds tr)).isSome := by
  induction kinds generalizing tr with
  | nil => cases h
  | cons other kinds ih =>
    rw [passesOver, ← List.singleton_append, Pass.last?_append, Option.isSome_or, Bool.or_eq_true]
    by_cases hk : other = kind
    · right
      simp [Pass.last?, hk]
    · exact .inl (ih ((List.mem_cons.1 h).resolve_left (Ne.symm hk)) _)

/-- An edit that owes passes over some kinds, followed by passes over them. -/
theorem Turn.pass (h : Turn owed tr [] tr') (m : Moment) (kinds : List PolicyKind)
    (pays : ∀ kind, owed kind → kind ∈ kinds) :
    Turn Nothing tr (passesOver m false kinds tr') (tr'.pass m kinds) := by
  have paid : ∀ kind,
      ¬(owed kind ∧ Pass.last? kind (passesOver m false kinds tr') = none) := by
    rintro kind ⟨ho, none⟩
    have passed := isSome_last?_passesOver m false (pays kind ho) tr'
    rw [none] at passed
    cases passed
  have passes := (h.append (turn_foldl_passOver m false kinds tr')).paid paid
  unfold Tracker.pass
  split
  · rename_i hnil
    rw [List.isEmpty_iff.1 hnil] at passes ⊢
    exact passes
  · have := passes.trans (sendsFlags_syncFlags m false (kinds.foldl (passOver m false) tr')).turn
    rwa [List.append_nil] at this

/-- A pass over all kinds. -/
theorem turn_fullPass (m : Moment) (leaseChanged : Bool) (tr : Tracker) :
    Turn Nothing tr (passesOver m true PolicyKind.all tr) (tr.fullPass m leaseChanged) := by
  have := (turn_foldl_passOver m true PolicyKind.all tr).trans
    (sendsFlags_syncFlags m leaseChanged (PolicyKind.all.foldl (passOver m true) tr)).turn
  rwa [List.append_nil] at this

end Turns

end Tracker
end PolicyAttachment
