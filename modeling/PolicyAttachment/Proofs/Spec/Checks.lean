import Mathlib.Data.List.Forall2
import Mathlib.Tactic.MkIffOfInductiveProp
import PolicyAttachment.Spec.TargetRef

/-!
# What the single checks of a spec accept

The validation of a spec is a sequence of checks and accepts what all of them accept, `bind_eq_ok_iff`.
For each check there is one lemma that says what it accepts, apart from how its errors come about.
-/

namespace PolicyAttachment
set_option autoImplicit false

/-- A sequence of checks accepts what its first check and the others accept. -/
theorem bind_eq_ok_iff {ε : Type} {x : Except ε Unit} {f : Unit → Except ε Unit} :
    x >>= f = .ok () ↔ x = .ok () ∧ f () = .ok () := by
  cases x with
  | error e => exact iff_of_false nofun fun h => nomatch h.1
  | ok u => exact ⟨fun h => ⟨rfl, h⟩, fun h => h.2⟩

/-! ### Numbers and texts -/

namespace Spec

/-- At most `limit` bytes, and all of them ASCII. -/
@[mk_iff]
structure IsAscii (limit : Nat) (s : String) : Prop where
  length : s.utf8ByteSize ≤ limit
  characters : ∀ c ∈ s.toList, c.toNat < 128

section Checks

variable {field : String} {text : Option String} {limit : Nat}

/-- A number that is given has to be in the range, ends included. -/
theorem requireRange_eq_ok_iff {value : Option Int} {low high : Int} :
    requireRange field value low high = .ok () ↔ ∀ n ∈ value, low ≤ n ∧ n ≤ high := by
  cases value with
  | none => simp [requireRange]
  | some n => simp [requireRange]

/-- A text that is given has to be within the limit, in bytes. -/
theorem requireLength_eq_ok_iff :
    requireLength field text limit = .ok () ↔ ∀ s ∈ text, s.utf8ByteSize ≤ limit := by
  cases text with
  | none => simp [requireLength]
  | some s => simp [requireLength]

/-- A text that is given has to be ASCII and within the limit. -/
theorem requireAscii_eq_ok_iff :
    requireAscii field text limit = .ok () ↔ ∀ s ∈ text, IsAscii limit s := by
  unfold requireAscii
  rw [bind_eq_ok_iff, requireLength_eq_ok_iff]
  cases text with
  | none => simp
  | some s => simp [isAscii_iff]

/-- A text is short enough before its form is looked at. -/
theorem requireForm_eq_ok_iff {s : String} {form : Bool} {error : InvalidSpec} :
    (do
      requireLength field (some s) limit
      if form then .ok () else .error error) = .ok () ↔ s.utf8ByteSize ≤ limit ∧ form = true := by
  rw [bind_eq_ok_iff, requireLength_eq_ok_iff]
  cases form <;> simp

/-- A text may be empty, or has to be within the limit and of the form. -/
theorem requireFormOrEmpty_eq_ok_iff {s : String} {form : Bool} {error : InvalidSpec} :
    (if s = "" then .ok () else do
      requireLength field (some s) limit
      if form then .ok () else .error error) = .ok () ↔
        s = "" ∨ s.utf8ByteSize ≤ limit ∧ form = true := by
  by_cases h : s = ""
  · simp [h]
  · rw [if_neg h, requireForm_eq_ok_iff, or_iff_right h]

end Checks
end Spec

/-! ### Letters in either case -/

namespace Text

theorem toNat_toLower (c : Char) :
    c.toLower.toNat = if 65 ≤ c.toNat ∧ c.toNat ≤ 90 then c.toNat + 32 else c.toNat := by
  have first : 'A'.val.toNat = 65 := rfl
  have last : 'Z'.val.toNat = 90 := rfl
  delta Char.toLower
  simp only [Char.toNat, UInt32.le_iff_toNat_le]
  grind [UInt32.toNat_add]

/-- The code point of a letter made capital. It is computed by an addition that wraps around. -/
theorem toNat_toUpper (c : Char) :
    c.toUpper.toNat = if 97 ≤ c.toNat ∧ c.toNat ≤ 122 then c.toNat - 32 else c.toNat := by
  have first : 'a'.val.toNat = 97 := rfl
  have last : 'z'.val.toNat = 122 := rfl
  delta Char.toUpper
  simp only [Char.toNat, UInt32.le_iff_toNat_le]
  grind [UInt32.toNat_add]

/-- Each character of `s` stands in `t` as it is, as a small letter or as a capital one. -/
def AnyCase (s t : String) : Prop :=
  List.Forall₂ (fun c d => d = c.toLower ∨ d = c.toUpper) s.toList t.toList

/-- Two characters are the same but for case if one is a case of the other. -/
theorem toLower_eq_toLower_iff {c d : Char} :
    c.toLower = d.toLower ↔ d = c.toLower ∨ d = c.toUpper := by
  simp only [← Char.toNat_inj, toNat_toLower, toNat_toUpper]
  split <;> split <;> split <;> omega

/-- Texts are compared character by character. -/
theorem sameIgnoringCase_iff {s t : String} : sameIgnoringCase s t = true ↔ AnyCase s t := by
  have letters (r : String) : r.toLower.toList = r.toList.map Char.toLower := String.toList_map
  rw [sameIgnoringCase, beq_iff_eq, ← String.toList_inj, letters, letters, ← List.forall₂_eq_eq_eq,
    List.forall₂_map_left_iff, List.forall₂_map_right_iff]
  simp only [toLower_eq_toLower_iff, AnyCase]

end Text

/-! ### Targets -/

/-- The kind is compared regardless of case, the group is not. -/
theorem GroupKind.covers_iff {g : GroupKind} {group kind : String} : g.covers group kind = true ↔
    g.group = group ∧ Text.sameIgnoringCase g.kind kind = true := by
  rw [covers, Bool.and_eq_true, beq_iff_eq]

/-- The core group goes by two names, and every other group by its own. -/
theorem GroupKind.eq_normalGroup_iff {g group : String} (known : g ≠ "core") :
    g = normalGroup group ↔ group = g ∨ g = "" ∧ group = "core" := by
  unfold normalGroup
  split
  · rename_i core
    rw [core]
    exact ⟨fun h => .inr ⟨h, rfl⟩, fun h => (h.resolve_left known.symm).1⟩
  · rename_i other
    exact ⟨fun h => .inl h.symm, fun h => (h.resolve_right fun core => other core.2).symm⟩

namespace TargetRef

/-- A Service, the group of which has two names, or an imported one. Their kinds are known in any case
of their letters. -/
inductive IsBackend (ref : TargetRef) : Prop where
  | service (group : ref.group = "" ∨ ref.group = "core") (kind : Text.AnyCase "Service" ref.kind)
  | serviceImport (group : ref.group = "net.gke.io")
      (kind : Text.AnyCase "ServiceImport" ref.kind)

variable {ref : TargetRef}

/-- A reference has to be to one of the kinds that are allowed. -/
theorem requireKind_eq_ok_iff {allowed : List GroupKind} {expected : String} :
    ref.requireKind allowed expected = .ok () ↔
      ∃ g ∈ allowed, g.covers (GroupKind.normalGroup ref.group) ref.kind = true := by
  unfold requireKind
  rw [← List.any_eq_true]
  split <;> simp_all

/-- A reference to a backend is one to a Service or to an imported one. -/
theorem requireBackend_eq_ok_iff : ref.requireBackend = .ok () ↔ ref.IsBackend := by
  have service : "" = GroupKind.normalGroup ref.group ↔ ref.group = "" ∨ ref.group = "core" := by
    simpa using GroupKind.eq_normalGroup_iff (g := "") (by decide)
  have serviceImport : "net.gke.io" = GroupKind.normalGroup ref.group ↔
      ref.group = "net.gke.io" := by
    simpa using GroupKind.eq_normalGroup_iff (g := "net.gke.io") (by decide)
  simp only [requireBackend, requireKind_eq_ok_iff, GroupKind.covers_iff, List.exists_mem_cons_iff,
    List.not_mem_nil, false_and, exists_false, or_false, Text.sameIgnoringCase_iff,
    GroupKind.service, GroupKind.serviceImport, service, serviceImport]
  constructor
  · rintro (⟨group, kind⟩ | ⟨group, kind⟩)
    · exact .service group kind
    · exact .serviceImport group kind
  · rintro (⟨group, kind⟩ | ⟨group, kind⟩)
    · exact .inl ⟨group, kind⟩
    · exact .inr ⟨group, kind⟩

end TargetRef
end PolicyAttachment
