import PolicyAttachment.Proofs.Condition.Steps
import PolicyAttachment.Proofs.Tracker.Reorder
import Mathlib.Data.List.Induction

/-!
# Reports with further conditions

Next to the outcome a report carries the further conditions that it is given, one of each type. As long as
they are of at most seven types, it does not matter what happens when there is no room, and a report has the
outcome first and then the last condition of each type, in the order in which the types first occur. An
eighth type is refused, or displaces what is oldest: `Reporter.reportUnder_exactly`.
-/

namespace PolicyAttachment
set_option autoImplicit false

namespace Condition

/-- The types that occur, in the order in which they first do. -/
def typesOf (cs : List Condition) : List String := (cs.map type).eraseDups

/-- The last condition of a type. -/
def lastOf? (cs : List Condition) (type : String) : Option Condition :=
  cs.reverse.find? fun c => c.type = type

/-- The last condition of each type, in the order in which the types first occur. -/
def latest (cs : List Condition) : List Condition := (typesOf cs).filterMap (lastOf? cs)

/-- The conditions that may stand beside the outcome. -/
def further (cs : List Condition) : List Condition := cs.filter fun c => c.type != attachedType

/-- The condition as it is said of a policy of the generation. -/
def stamped (generation : Option Int) (c : Condition) : Condition := { c with generation }

variable {cs : List Condition} {c d : Condition} {type : String} {generation : Option Int}

@[simp] theorem type_stamped : (c.stamped generation).type = c.type := rfl

theorem further_append_of_attached (h : c.type = attachedType) : further (cs ++ [c]) = further cs := by
  simp [further, h]

theorem further_append (h : c.type ≠ attachedType) : further (cs ++ [c]) = further cs ++ [c] := by
  simp [further, h]

theorem mem_typesOf : type ∈ typesOf cs ↔ type ∈ cs.map Condition.type := List.mem_eraseDups

theorem typesOf_append (cs : List Condition) (c : Condition) : typesOf (cs ++ [c]) =
    if c.type ∈ typesOf cs then typesOf cs else typesOf cs ++ [c.type] := by
  simp only [mem_typesOf]
  rw [typesOf, List.map_append, List.map_singleton, eraseDups_append_singleton, typesOf]

/-- One more condition adds its type to those of the further conditions, or none. -/
theorem typesOf_further_append (cs : List Condition) (c : Condition) :
    typesOf (further (cs ++ [c])) = typesOf (further cs) ∨
      c.type ≠ attachedType ∧ c.type ∉ typesOf (further cs) ∧
        typesOf (further (cs ++ [c])) = typesOf (further cs) ++ [c.type] := by
  by_cases h : c.type = attachedType
  · exact .inl (by rw [further_append_of_attached h])
  · rw [further_append h, typesOf_append]
    split
    · exact .inl rfl
    · exact .inr ⟨h, ‹_›, rfl⟩

theorem type_of_lastOf? (h : lastOf? cs type = some c) : c.type = type := by
  simpa using List.find?_some h

theorem isSome_lastOf? (h : type ∈ typesOf cs) : (lastOf? cs type).isSome := by
  obtain ⟨c, hc, same⟩ := List.mem_map.1 (mem_typesOf.1 h)
  rw [lastOf?, List.find?_isSome]
  exact ⟨c, List.mem_reverse.2 hc, decide_eq_true same⟩

theorem lastOf?_append (cs : List Condition) (c : Condition) (type : String) :
    lastOf? (cs ++ [c]) type = if c.type = type then some c else lastOf? cs type := by
  rw [lastOf?, List.reverse_append, List.reverse_singleton, List.singleton_append, List.find?_cons]
  by_cases h : c.type = type <;> simp [h, lastOf?]

/-- The latest conditions are one of each type, in the order of the types. -/
theorem map_type_latest (cs : List Condition) : (latest cs).map Condition.type = typesOf cs := by
  have each : ∀ type ∈ typesOf cs, (lastOf? cs type).map Condition.type = some type := by
    intro type h
    obtain ⟨c, hc⟩ := Option.isSome_iff_exists.1 (isSome_lastOf? h)
    rw [hc, Option.map_some, type_of_lastOf? hc]
  rw [latest, List.map_filterMap, List.filterMap_congr each, List.filterMap_some]

/-- One more condition takes the place of the one of its type, or comes last. -/
theorem latest_append (cs : List Condition) (c : Condition) : latest (cs ++ [c]) =
    if c.type ∈ typesOf cs then (latest cs).map fun d => if d.type = c.type then c else d
    else latest cs ++ [c] := by
  rw [latest, typesOf_append]
  split
  · rw [latest, List.map_filterMap]
    refine List.filterMap_congr fun type h => ?_
    obtain ⟨d, hd⟩ := Option.isSome_iff_exists.1 (isSome_lastOf? h)
    rw [lastOf?_append, hd, Option.map_some, type_of_lastOf? hd]
    by_cases same : type = c.type
    · rw [if_pos same, if_pos same.symm]
    · rw [if_neg same, if_neg (Ne.symm same)]
  · rename_i fresh
    have others : ∀ type ∈ typesOf cs, lastOf? (cs ++ [c]) type = lastOf? cs type := by
      intro type h
      rw [lastOf?_append, if_neg]
      rintro rfl
      exact fresh h
    rw [List.filterMap_append, List.filterMap_congr others, latest, List.filterMap_cons,
      lastOf?_append, if_pos rfl, List.filterMap_nil]

end Condition

theorem Attachment.type_condition (attachment : Attachment) (target : Target) (generation : Option Int)
    (now : Instant) : (attachment.condition target generation now).type = attachedType := rfl

namespace Reporter

open Condition

variable {overflow : OverflowRule} {generation : Option Int} {first c : Condition}
  {extra : List Condition} {s : ConditionSet}

/-- What a report says if nothing finds it full: the outcome, then the latest of the further conditions. -/
def saying (first : Condition) (generation : Option Int) (extra : List Condition) : List Condition :=
  first :: (latest (further extra)).map (stamped generation)

/-- What a report says begins with the outcome and has each further type once. -/
theorem map_type_saying (first : Condition) (generation : Option Int) (extra : List Condition) :
    (saying first generation extra).map Condition.type = first.type :: typesOf (further extra) := by
  rw [saying, List.map_cons, List.map_map, ← map_type_latest]
  rfl

theorem saying_append_of_attached (h : c.type = attachedType) :
    saying first generation (extra ++ [c]) = saying first generation extra := by
  rw [saying, further_append_of_attached h, saying]

/-- A type that was said before is said anew in its place. -/
theorem saying_append_of_mem (attached : first.type = attachedType) (h : c.type ≠ attachedType)
    (occurred : c.type ∈ typesOf (further extra)) : saying first generation (extra ++ [c]) =
      (saying first generation extra).map fun d => if d.type = c.type then c.stamped generation else d := by
  have apart : first.type ≠ c.type := attached ▸ Ne.symm h
  rw [saying, further_append h, latest_append, if_pos occurred, saying, List.map_cons, if_neg apart,
    List.map_map, List.map_map]
  congr 2
  funext d
  by_cases same : d.type = c.type <;> simp [same]

/-- A new type is said at the end. -/
theorem saying_append_of_not_mem (h : c.type ≠ attachedType)
    (new : c.type ∉ typesOf (further extra)) : saying first generation (extra ++ [c]) =
      saying first generation extra ++ [c.stamped generation] := by
  rw [saying, further_append h, latest_append, if_neg new, List.map_append, saying, List.map_singleton,
    List.cons_append]

/-- A set that says this is as large as there are types. -/
theorem size_of_saying (conditions : s.conditions = saying first generation extra) :
    s.size = (typesOf (further extra)).length + 1 := by
  rw [ConditionSet.size, ← List.length_map (f := Condition.type), conditions, map_type_saying,
    List.length_cons]

/-- Of a further type, a set that says the extras has a condition exactly if they do. -/
theorem mem_types_of_saying (attached : first.type = attachedType)
    (conditions : s.conditions = saying first generation extra) (h : c.type ≠ attachedType) :
    c.type ∈ s.types ↔ c.type ∈ typesOf (further extra) := by
  rw [ConditionSet.types, conditions, map_type_saying, List.mem_cons, attached, or_iff_right h]

theorem addExtra_of_attached (h : c.type = attachedType) : addExtra overflow generation s c = .ok s :=
  if_pos h

/-- Any other extra is inserted, for the generation that the report is about. -/
theorem addExtra_eq (h : c.type ≠ attachedType) :
    addExtra overflow generation s c = s.insert (c.stamped generation) overflow := if_neg h

theorem foldlM_append_singleton {ε α β : Type} (f : β → α → Except ε β) (b : β) (l : List α) (a : α) :
    (l ++ [a]).foldlM f b = l.foldlM f b >>= fun b' => f b' a := by
  simp only [List.foldlM_append, List.foldlM_cons, List.foldlM_nil, bind_pure]

/-- While there is room, a set that says what it has to takes in one more condition. -/
theorem exists_addExtra_saying (attached : first.type = attachedType)
    (conditions : s.conditions = saying first generation extra)
    (few : (typesOf (further (extra ++ [c]))).length < maxConditions) :
    ∃ s', addExtra overflow generation s c = .ok s' ∧
      s'.conditions = saying first generation (extra ++ [c]) := by
  by_cases h : c.type = attachedType
  · exact ⟨s, addExtra_of_attached h, conditions.trans (saying_append_of_attached h).symm⟩
  · rw [addExtra_eq h]
    apply ConditionSet.exists_insert_of_map
    rw [s.insert_eq, type_stamped]
    rw [further_append h, typesOf_append] at few
    by_cases occurred : c.type ∈ typesOf (further extra)
    · rw [if_pos ((mem_types_of_saying attached conditions h).2 occurred), conditions,
        saying_append_of_mem attached h occurred]
    · rw [if_neg occurred, List.length_append, List.length_singleton] at few
      rw [if_neg (mt (mem_types_of_saying attached conditions h).1 occurred),
        if_pos (by rwa [size_of_saying conditions]), conditions, saying_append_of_not_mem h occurred]

/-- While there is room for one condition of each type, it does not matter what happens when there is
none. -/
theorem exists_foldlM_saying (overflow : OverflowRule) (generation : Option Int)
    (attached : first.type = attachedType)
    (few : (typesOf (further extra)).length < maxConditions) :
    ∃ s, extra.foldlM (addExtra overflow generation) (.single first) = .ok s ∧
      s.conditions = saying first generation extra := by
  induction extra using List.reverseRecOn with
  | nil => exact ⟨.single first, rfl, rfl⟩
  | append_singleton extra c ih =>
    have before : (typesOf (further extra)).length < maxConditions := by
      rcases typesOf_further_append extra c with same | ⟨-, -, appended⟩
      · rwa [same] at few
      · rw [appended, List.length_append] at few
        omega
    obtain ⟨s, hs, conditions⟩ := ih before
    rw [foldlM_append_singleton, hs]
    exact exists_addExtra_saying attached conditions few

/-- An eighth type beside the outcome is refused: the types before it are all said, and the set is full
of them. -/
theorem foldlM_reject_of_eighth (attached : first.type = attachedType) {type : String}
    (eighth : (typesOf (further extra))[maxConditions - 1]? = some type) :
    extra.foldlM (addExtra .reject generation) (.single first) = .error ⟨type⟩ := by
  induction extra using List.reverseRecOn with
  | nil => cases eighth
  | append_singleton extra c ih =>
    rw [foldlM_append_singleton]
    rcases typesOf_further_append extra c with same | ⟨h, new, appended⟩
    · rw [ih (same ▸ eighth)]
      rfl
    · rw [appended] at eighth
      by_cases early : maxConditions - 1 < (typesOf (further extra)).length
      · rw [List.getElem?_append_left early] at eighth
        rw [ih eighth]
        rfl
      · rw [List.getElem?_append_right (Nat.not_lt.1 early)] at eighth
        obtain ⟨seven, rfl⟩ : maxConditions - 1 - (typesOf (further extra)).length = 0 ∧ c.type = type := by
          simpa using List.getElem?_eq_some_iff.1 eighth
        have positive : 0 < maxConditions := by decide
        have few : (typesOf (further extra)).length < maxConditions := by omega
        obtain ⟨s, hs, conditions⟩ := exists_foldlM_saying .reject generation attached few
        have full : ¬ s.size < maxConditions := by
          rw [size_of_saying conditions]
          omega
        rw [hs]
        exact (addExtra_eq h).trans
          (ConditionSet.insert_of_full (mt (mem_types_of_saying attached conditions h).1 new) full)

/-- An eighth type beside the outcome makes room for itself, and what comes last is always there. Up to
then nothing was displaced, so the set is as large as there are types. -/
theorem exists_foldlM_displacing (generation : Option Int) (attached : first.type = attachedType)
    (extra : List Condition) :
    ∃ s, extra.foldlM (addExtra .displaceOldest generation) (.single first) = .ok s ∧
      (maxConditions ≤ (typesOf (further extra)).length → s.size = maxConditions) ∧
      ∀ c, (further extra).getLast? = some c → c.stamped generation ∈ s.conditions := by
  induction extra using List.reverseRecOn with
  | nil => exact ⟨.single first, rfl, nofun, nofun⟩
  | append_singleton extra c ih =>
    obtain ⟨s, hs, full, last⟩ := ih
    rw [foldlM_append_singleton, hs]
    by_cases h : c.type = attachedType
    · rw [further_append_of_attached h]
      exact ⟨s, addExtra_of_attached h, full, last⟩
    · obtain ⟨s', hs', mem, le⟩ := s.exists_insert_displacing (c.stamped generation)
      refine ⟨s', (addExtra_eq h).trans hs', ?_, ?_⟩
      · intro many
        have size : maxConditions ≤ s.size := by
          by_cases few : (typesOf (further extra)).length < maxConditions
          · obtain ⟨t, ht, conditions⟩ :=
              exists_foldlM_saying .displaceOldest generation attached few
            obtain rfl : t = s := Except.ok.inj (ht.symm.trans hs)
            rw [size_of_saying conditions]
            rcases typesOf_further_append extra c with same | ⟨-, -, appended⟩
            · rw [same] at many
              omega
            · rwa [appended, List.length_append, List.length_singleton] at many
          · exact Nat.le_of_eq (full (Nat.not_lt.1 few)).symm
        exact Nat.le_antisymm s'.bounded (Nat.le_trans size le)
      · intro d hd
        rw [further_append h, List.getLast?_concat, Option.some.injEq] at hd
        exact hd ▸ mem

section Report

variable (controller : ControllerName) (ancestor : AncestorRef) (target : Target)
  (attachment : Attachment) (extra : List Condition) (generation : Option Int) (now : Instant)

/-- A report is about the ancestor that it was made for, by the controller that makes it. -/
theorem key_of_reportUnder {overflow : OverflowRule} {r : Report} (h : reportUnder ⟨controller, overflow⟩
    ancestor target attachment extra generation now = .ok r) : r.key = ⟨ancestor, controller⟩ := by
  rw [reportUnder_eq] at h
  cases fold : extra.foldlM (addExtra overflow generation)
    (.single (attachment.condition target generation now)) with
  | error e =>
    rw [fold] at h
    cases h
  | ok conditions =>
    rw [fold] at h
    cases h
    rfl

/-- With at most seven further types both rules report all there is to say. -/
theorem exists_reportUnder_saying (few : (typesOf (further extra)).length < maxConditions) :
    ∃ s : ConditionSet,
      s.conditions = saying (attachment.condition target generation now) generation extra ∧
      ∀ overflow, reportUnder ⟨controller, overflow⟩ ancestor target attachment extra generation now =
        .ok ⟨⟨ancestor, controller⟩, s⟩ := by
  have attached := attachment.type_condition target generation now
  obtain ⟨s, -, conditions⟩ := exists_foldlM_saying .reject generation attached few
  refine ⟨s, conditions, fun overflow => ?_⟩
  obtain ⟨t, ht, same⟩ := exists_foldlM_saying overflow generation attached few
  obtain rfl : t = s := ConditionSet.ext_conditions (same.trans conditions.symm)
  rw [reportUnder_eq, ht]
  rfl

/-- Where conditions are refused, the error names the eighth type. -/
theorem reportUnder_reject_of_eighth {type : String}
    (eighth : (typesOf (further extra))[maxConditions - 1]? = some type) :
    reportUnder ⟨controller, .reject⟩ ancestor target attachment extra generation now =
      .error ⟨type⟩ := by
  rw [reportUnder_eq, foldlM_reject_of_eighth (attachment.type_condition ..) eighth]
  rfl

/-- Where conditions displace the oldest, every report is made. It is full from the eighth type on,
and has what came last. -/
theorem exists_reportUnder_displacing : ∃ s : ConditionSet,
    reportUnder ⟨controller, .displaceOldest⟩ ancestor target attachment extra generation now =
      .ok ⟨⟨ancestor, controller⟩, s⟩ ∧
    (maxConditions ≤ (typesOf (further extra)).length → s.size = maxConditions ∧
      ∃ last, (further extra).getLast? = some last ∧ last.stamped generation ∈ s.conditions) := by
  obtain ⟨s, hs, full, last⟩ :=
    exists_foldlM_displacing generation (attachment.type_condition target generation now) extra
  refine ⟨s, ?_, fun many => ⟨full many, ?_⟩⟩
  · rw [reportUnder_eq, hs]
    rfl
  · have nonempty : further extra ≠ [] := by
      intro none
      rw [none] at many
      cases many
    have final := List.getLast?_eq_getLast_of_ne_nil nonempty
    exact ⟨_, final, last _ final⟩

/-- A report is made for the ancestor and the reporting controller. Where a full set refuses, it is made
exactly if the further conditions are of at most seven types, and then says the outcome and the latest
condition of each type, as of the given generation; or else the eighth type is to blame. Where the oldest
condition gives way, a report is always made, with the same result if there are at most seven types; with
more, it has eight conditions, and the last one given is among them. -/
theorem reportUnder_exactly :
    let report (overflow : OverflowRule) :=
      reportUnder ⟨controller, overflow⟩ ancestor target attachment extra generation now
    let types := typesOf (further extra)
    (∀ overflow r, report overflow = .ok r → r.key = ⟨ancestor, controller⟩) ∧
    ((∃ r, report .reject = .ok r) ↔ types.length < maxConditions) ∧
    (∀ r, report .reject = .ok r → r.conditions.conditions =
      saying (attachment.condition target generation now) generation extra) ∧
    (∀ e, report .reject = .error e ↔ types[maxConditions - 1]? = some e.type) ∧
    ∃ r, report .displaceOldest = .ok r ∧ (types.length < maxConditions → report .reject = .ok r) ∧
      (maxConditions ≤ types.length → r.conditions.size = maxConditions ∧
        r.conditions.types.Nodup ∧ ∃ last, (further extra).getLast? = some last ∧
          last.stamped generation ∈ r.conditions.conditions) := by
  intro report types
  refine ⟨fun _ _ => key_of_reportUnder _ _ _ _ _ _ _, ?_⟩
  by_cases few : types.length < maxConditions
  · obtain ⟨s, conditions, reported⟩ := exists_reportUnder_saying controller ancestor target
      attachment extra generation now few
    have noEighth : types[maxConditions - 1]? = none := List.getElem?_eq_none (Nat.le_pred_of_lt few)
    refine ⟨⟨fun _ => few, fun _ => ⟨_, reported .reject⟩⟩, ?_, ?_, _, reported .displaceOldest,
      fun _ => reported .reject, fun many => absurd few (Nat.not_lt.2 many)⟩
    · intro r h
      obtain rfl := Except.ok.inj ((reported .reject).symm.trans h)
      exact conditions
    · intro e
      rw [show report .reject = _ from reported .reject, noEighth]
      exact ⟨nofun, nofun⟩
  · have many : maxConditions ≤ types.length := Nat.not_lt.1 few
    obtain ⟨type, eighth⟩ : ∃ type, types[maxConditions - 1]? = some type :=
      ⟨_, List.getElem?_eq_getElem (Nat.lt_of_lt_of_le (by decide) many)⟩
    have refused : report .reject = .error ⟨type⟩ := reportUnder_reject_of_eighth controller ancestor
      target attachment extra generation now eighth
    obtain ⟨s, displaced, crowded⟩ := exists_reportUnder_displacing controller ancestor target
      attachment extra generation now
    obtain ⟨full, last⟩ := crowded many
    refine ⟨⟨?_, fun h => absurd h few⟩, ?_, ?_, _, displaced, fun h => absurd h few,
      fun _ => ⟨full, s.distinct, last⟩⟩
    · rintro ⟨r, h⟩
      cases refused.symm.trans h
    · intro r h
      cases refused.symm.trans h
    · rintro ⟨other⟩
      rw [refused, eighth, Except.error.injEq, ConditionSetFull.mk.injEq, Option.some.injEq]

end Report

end Reporter

end PolicyAttachment
