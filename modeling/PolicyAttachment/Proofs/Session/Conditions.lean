import PolicyAttachment.Proofs.Session.History
import PolicyAttachment.Proofs.Tracker.Conditions

/-!
# Conditions of others in what is sent

The conditions that are sent for a policy replace those that are stored, so whatever others stored has
to be among them. By `Session.Run.keepsOtherConditions_iff` it is, apart from one that makes room for
ours, exactly if the stored conditions can be read as a set; otherwise all of it is lost.
-/

namespace PolicyAttachment
set_option autoImplicit false

/-- What others have in the stored conditions `l` is in `l'`, in its order and up to the fractions of
times, without the one that makes room for ours if it fills a set. -/
def KeepsOtherConditions (l l' : List StoredCondition) : Prop :=
  StoredCondition.others l' =
    (leavingRoom StoredCondition.lastTransition (StoredCondition.others l)).map
      StoredCondition.written

instance (l l' : List StoredCondition) : Decidable (KeepsOtherConditions l l') :=
  inferInstanceAs (Decidable (_ = _))

/-- The conditions of others in the record are those that were read last, but for one that may already
have made room. -/
def PolicyRecord.HoldsOthers (s : PolicyRecord) : Prop :=
  leavingRoom Condition.lastTransition s.conditions.others =
    leavingRoom Condition.lastTransition (ConditionSet.readable s.facts.storedConditions).others

/-- Seeing, reviewing and sending keep the conditions of others in the record of a policy. -/
theorem upheld_holdsOthers (reporter : Reporter) {ref : PolicyKey}
    (hk : ref.kind.reportsAsWhole = true) :
    Upheld reporter ref fun _ s => s.HoldsOthers where
  lasting _ :=
    { review := fun now _ hs => (Tracker.leavingRoom_others_review hk _ now _).trans hs
      sent := fun _ hs => hs }
  first _ _ := rfl
  again _ _ := ConditionSet.leavingRoom_others_merge _ _
  elsewhere _ hs := hs

namespace PolicyRecord

variable {s : PolicyRecord} {ref : PolicyKey}

/-- What is computed has the conditions of others that were read last, without the one that makes
room. -/
theorem HoldsOthers.conditions_review (h : s.HoldsOthers) (hk : ref.kind.reportsAsWhole = true)
    (tr : Tracker) (now : Instant) :
    ∃ l, ((tr.review now ref s).state.status ref.kind).conditions = some l ∧
      StoredCondition.others l = (leavingRoom StoredCondition.lastTransition
        (StoredCondition.others (ConditionSet.readable s.facts.storedConditions).toStored)).map
          StoredCondition.written := by
  refine ⟨(tr.review now ref s).state.conditions.toStored.map StoredCondition.written, ?_, ?_⟩
  · simp [status, WrittenStatus.of, hk]
  · have held := (Tracker.others_review hk tr now s).trans h
    rw [StoredCondition.others_written, ConditionSet.others_toStored, held,
      ConditionSet.others_toStored, leavingRoom_map]
    rfl

end PolicyRecord

namespace Session

open ConditionSet (Legible)

variable {reporter : Reporter} {ref : PolicyKey} {es : List Event} {ps : List Pass} {s s' : Session}
  {now : Instant} {o : Occurrence}

/-- In every run, the conditions that are put into the queue for a policy keep those of others exactly
if others have none, or what is stored in the policy as it is present can be read: its statuses are
known, its types distinct, and there are at most eight conditions, ours included. If it cannot be read,
no condition of others is kept. -/
theorem Run.keepsOtherConditions_iff (hk : ref.kind.reportsAsWhole = true)
    (run : Run reporter es ps s) (h : s.step now o = .ok s') {version : Option String}
    {status : WrittenStatus} (hm : (version, status) ∈ statusesOf ref (s.enqueued s')) :
    ∃ p l, policyAfter (es ++ o.events) ref = some p ∧ version = p.metadata.resourceVersion ∧
      status.conditions = some l ∧
      (KeepsOtherConditions p.storedConditions l ↔
        Legible p.storedConditions ∨ StoredCondition.others p.storedConditions = []) ∧
      (¬ Legible p.storedConditions → StoredCondition.others l = []) := by
  obtain ⟨tr, now, r, -, ⟨⟨p, hp, facts⟩, holds⟩, rfl, rfl⟩ :=
    run.computed ((upheld_policyAfter reporter ref).and (upheld_holdsOthers reporter hk)) h hm
  obtain ⟨l, hl, sent⟩ := holds.conditions_review hk tr now
  have stored : r.facts.storedConditions = p.storedConditions := by rw [facts]; rfl
  rw [stored] at sent
  have lost : ¬ Legible p.storedConditions → StoredCondition.others l = [] := by
    intro odd
    rw [sent, ConditionSet.readable_of_not_legible odd]
    rfl
  refine ⟨p, l, hp, by rw [facts]; rfl, hl, ?_, lost⟩
  by_cases legible : Legible p.storedConditions
  · rw [ConditionSet.toStored_readable legible] at sent
    exact iff_of_true sent (.inl legible)
  · rw [KeepsOtherConditions, lost legible, eq_comm, List.map_eq_nil_iff, leavingRoom_eq_nil_iff,
      or_iff_right legible]

end Session

/-! A policy with conditions that others stored. -/

namespace Sample

def gatewayKey : PolicyKey := ⟨.gateway, ⟨"ns", "g"⟩⟩

def gatewayPolicy (conditions : List StoredCondition) : Policy :=
  .gateway
    { metadata :=
        { (default : Metadata) with
          ns := some "ns", name := some "g", resourceVersion := some "1" }
      spec := ⟨⟨gatewayGroup, "Gateway", "g", none⟩, none⟩
      status := some ⟨conditions⟩ }

def storedCondition (type : String) (second : Int) : StoredCondition :=
  ⟨type, "True", "Reconciled", "", ⟨second, 0⟩, none⟩

/-- Eight conditions of another controller, of which the third and the sixth started earliest. -/
def otherConditions : List StoredCondition :=
  [storedCondition "A" 5, storedCondition "B" 4, storedCondition "C" 2, storedCondition "D" 7,
    storedCondition "E" 3, storedCondition "F" 2, storedCondition "G" 9, storedCondition "H" 5]

/-- The same eight beside ours. -/
def crowdedConditions : List StoredCondition :=
  otherConditions ++ [storedCondition attachedType 1]

/-- What follows when the policy is seen for the first time. -/
def sighted (conditions : List StoredCondition) : Session :=
  start.sees now gatewayKey (gatewayPolicy conditions)

theorem step_sighted (conditions : List StoredCondition) :
    start.step now (.event (.applied (.policy (gatewayPolicy conditions)))) =
      .ok (sighted conditions) :=
  Session.step_sees (Event.isAbout_policy_iff.2 ⟨rfl, rfl, rfl⟩) start now

end Sample

namespace Session

/-- The third condition makes room for ours. -/
theorem keepsOtherConditions_full : ∃ version status l,
    (version, status) ∈ statusesOf Sample.gatewayKey
      (Sample.start.enqueued (Sample.sighted Sample.otherConditions)) ∧
    status.conditions = some l ∧ KeepsOtherConditions Sample.otherConditions l ∧
    (StoredCondition.others l).map StoredCondition.type = ["A", "B", "D", "E", "F", "G", "H"] := by
  have sent : ∃ p ∈ statusesOf Sample.gatewayKey
      (Sample.start.enqueued (Sample.sighted Sample.otherConditions)), ∃ l ∈ p.2.conditions,
        (StoredCondition.others l).map StoredCondition.type =
          ["A", "B", "D", "E", "F", "G", "H"] := by
    decide +kernel
  obtain ⟨⟨version, status⟩, hm, l, hl, types⟩ := sent
  obtain ⟨p, l', hp, -, hl', keeps, -⟩ := Run.keepsOtherConditions_iff rfl
    (.start "h" ⟨"h", none⟩ 100) (Sample.step_sighted Sample.otherConditions) hm
  obtain rfl := Option.some.inj (hl.symm.trans hl')
  cases hp
  refine ⟨version, status, l, hm, hl, keeps.2 (.inl ?_), types⟩
  exact ⟨by decide, by decide, by decide⟩

/-- Others have eight conditions beside ours, and none of theirs is in what is sent. -/
theorem not_keepsOtherConditions : ∃ version status l,
    Sample.start.step Sample.now
      (.event (.applied (.policy (Sample.gatewayPolicy Sample.crowdedConditions)))) =
        .ok (Sample.sighted Sample.crowdedConditions) ∧
    (version, status) ∈ statusesOf Sample.gatewayKey
      (Sample.start.enqueued (Sample.sighted Sample.crowdedConditions)) ∧
    status.conditions = some l ∧
    (Sample.crowdedConditions.map StoredCondition.type).Nodup ∧
    (StoredCondition.others Sample.crowdedConditions).length = maxConditions ∧
    StoredCondition.others l = [] ∧ ¬ KeepsOtherConditions Sample.crowdedConditions l := by
  have sent : ∃ p ∈ statusesOf Sample.gatewayKey
      (Sample.start.enqueued (Sample.sighted Sample.crowdedConditions)),
        ∃ l ∈ p.2.conditions, StoredCondition.others l = [] ∧
          ¬ KeepsOtherConditions Sample.crowdedConditions l := by
    decide +kernel
  obtain ⟨⟨version, status⟩, hm, l, hl, lost⟩ := sent
  exact ⟨version, status, l, Sample.step_sighted _, hm, hl, by decide, by decide, lost⟩

end Session
end PolicyAttachment
