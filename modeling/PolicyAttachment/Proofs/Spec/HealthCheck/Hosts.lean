import Mathlib.Data.List.Induction
import PolicyAttachment.Spec.HealthCheck.Policy
import PolicyAttachment.Proofs.Text.Pattern

/-!
# Hosts and request paths

A host is a domain that cannot be taken for an address, and what an address is comes down to which
texts are the decimal form of a number: `Text.toDigits_ofDigits` says that these are all digits without
a leading zero. A request path is a pattern of two parts.
-/

namespace PolicyAttachment
set_option autoImplicit false

open RegularExpression (char star)
open Text (IsDomain pathAlphabet)

/-! ### Numbers without leading zeros -/

theorem Text.digitChar_sub {d : Char} (h : d.isDigit = true) :
    d.toNat - '0'.toNat < 10 ∧ (d.toNat - '0'.toNat).digitChar = d := by
  have bounds : 48 ≤ d.toNat ∧ d.toNat ≤ 57 := by
    simpa [Char.isDigit, UInt32.le_iff_toNat_le] using h
  have zero : '0'.toNat = 48 := rfl
  have small : d.toNat - '0'.toNat < 10 := by omega
  refine ⟨small, Char.toNat_inj.1 ?_⟩
  rw [Nat.toNat_digitChar_of_lt_ten small]
  omega

/-- Digits are the decimal form of the number that they spell, unless they start with a zero that is
not all of it. A number grows at its end, hence the induction from there. -/
theorem Text.toDigits_ofDigits {ds : List Char} (nonempty : ds ≠ [])
    (digits : ∀ d ∈ ds, d.isDigit = true) (first : ds.length = 1 ∨ ds.head? ≠ some '0') :
    Nat.toDigits 10 (ofDigits ds) = ds := by
  induction ds using List.reverseRecOn with
  | nil => exact absurd rfl nonempty
  | append_singleton ds d ih =>
    obtain ⟨digits, hd⟩ := List.forall_mem_append.1 digits
    obtain ⟨small, char⟩ := digitChar_sub (hd d (List.mem_singleton_self d))
    have last : Nat.toDigits 10 (d.toNat - '0'.toNat) = [d] := by
      rw [Nat.toDigits_of_lt_base small, char]
    rw [ofDigits_append_one, Nat.mul_comm]
    by_cases h : ds = []
    · rw [h] at *
      simpa [ofDigits] using last
    · have first : ds.head? ≠ some '0' := by
        have long : (ds ++ [d]).length ≠ 1 := by
          simpa using h
        rw [← List.head?_append_of_ne_nil ds h]
        exact first.resolve_left long
      have whole := ih h digits (.inr first)
      have pos : 0 < ofDigits ds := by
        refine Nat.pos_of_ne_zero fun zero => first ?_
        rw [← whole, zero, Nat.toDigits_zero]
        rfl
      rw [← Nat.toDigits_append_toDigits (by decide) pos small, whole, last]

/-! ### Hosts -/

namespace HttpSettings

/-- Four numbers up to 255 with dots between them. -/
def IsAddress (cs : List Char) : Prop :=
  ∃ numbers : List Nat, numbers.length = 4 ∧ (∀ n ∈ numbers, n ≤ 255) ∧
    cs = ['.'].intercalate (numbers.map (Nat.toDigits 10))

/-- A domain that is no address. -/
structure IsHostname (cs : List Char) : Prop where
  isDomain : IsDomain cs
  notAddress : ¬ IsAddress cs

section Hosts

variable {cs : List Char}

/-- Every number up to 255 is written as an octet. -/
theorem isOctet_toDigits : ∀ n ≤ 255, isOctet (Nat.toDigits 10 n) = true := by
  have all : ∀ n < 256, isOctet (Nat.toDigits 10 n) = true := by decide +kernel
  exact fun n h => all n (Nat.lt_succ_of_le h)

/-- Every octet is how such a number is written. -/
theorem toDigits_of_isOctet (h : isOctet cs = true) :
    Text.ofDigits cs ≤ 255 ∧ Nat.toDigits 10 (Text.ofDigits cs) = cs := by
  simp only [isOctet, Bool.and_eq_true, Bool.or_eq_true, Bool.not_eq_true',
    List.isEmpty_eq_false_iff, decide_eq_true_eq, List.all_eq_true, beq_iff_eq, bne_iff_ne] at h
  obtain ⟨⟨⟨⟨nonempty, -⟩, digits⟩, first⟩, small⟩ := h
  exact ⟨small, Text.toDigits_ofDigits nonempty digits first⟩

/-- The scan for an address decides what an address is. -/
theorem isAddress_iff : isAddress cs = true ↔ IsAddress cs := by
  simp only [isAddress, Bool.and_eq_true, beq_iff_eq, List.all_eq_true]
  constructor
  · rintro ⟨four, octets⟩
    refine ⟨(Text.fields '.' cs).map Text.ofDigits, by rw [List.length_map, four], ?_, ?_⟩
    · intro n hn
      obtain ⟨part, hpart, rfl⟩ := List.mem_map.1 hn
      exact (toDigits_of_isOctet (octets part hpart)).1
    · have parts : ((Text.fields '.' cs).map Text.ofDigits).map (Nat.toDigits 10) =
          Text.fields '.' cs := by
        rw [List.map_map]
        exact (List.map_congr_left fun part hpart =>
          (toDigits_of_isOctet (octets part hpart)).2).trans (List.map_id _)
      rw [parts, Text.intercalate_fields]
  · rintro ⟨numbers, four, small, rfl⟩
    have nonempty : numbers.map (Nat.toDigits 10) ≠ [] := by
      rintro none
      rw [List.map_eq_nil_iff.1 none] at four
      cases four
    have apart : ∀ part ∈ numbers.map (Nat.toDigits 10), '.' ∉ part := by
      intro part hpart dot
      obtain ⟨n, -, rfl⟩ := List.mem_map.1 hpart
      exact absurd (Nat.isDigit_of_mem_toDigits (by decide) (by decide) dot) (by decide)
    rw [Text.fields_intercalate nonempty apart, List.length_map]
    refine ⟨four, fun part hpart => ?_⟩
    obtain ⟨n, hn, rfl⟩ := List.mem_map.1 hpart
    exact isOctet_toDigits n (small n hn)

/-- The scan for a host name decides what a host name is. -/
theorem isHostname_iff : isHostname cs = true ↔ IsHostname cs := by
  rw [isHostname, Bool.and_eq_true, Bool.not_eq_true', ← Bool.not_eq_true, Text.isDomain_iff,
    isAddress_iff]
  exact ⟨fun ⟨isDomain, notAddress⟩ => ⟨isDomain, notAddress⟩, fun h => ⟨h.isDomain, h.notAddress⟩⟩

instance : DecidablePred IsHostname := fun _ => decidable_of_iff _ isHostname_iff

/-- Numbers with a leading zero are labels like others. -/
example : IsHostname "10.0.0.01".toList ∧ ¬ IsHostname "10.0.0.1".toList := by decide +kernel

end Hosts

/-! ### Request paths -/

/-- A slash, and then characters of a path or question marks. -/
def IsRequestPath (cs : List Char) : Prop :=
  ∃ rest, cs = '/' :: rest ∧ ∀ c ∈ rest, c ∈ '?' :: pathAlphabet

/-- `/[A-Za-z0-9/\-._~%!?$&'()*+,;=:]*` -/
def requestPathPattern : RegularExpression Char :=
  char '/' * star (Text.oneOf ('?' :: pathAlphabet))

section Paths

variable {cs : List Char}

/-- The scan for a request path decides what a request path is. -/
theorem isRequestPath_iff : isRequestPath cs = true ↔ IsRequestPath cs := by
  cases cs with
  | nil => exact iff_of_false nofun fun ⟨_, h, _⟩ => nomatch h
  | cons c rest =>
    simp only [isRequestPath, Bool.and_eq_true, beq_iff_eq, List.all_eq_true, Bool.or_eq_true,
      Text.isPathCharacter_iff, IsRequestPath, List.cons.injEq, List.mem_cons]
    constructor
    · rintro ⟨slash, h⟩
      exact ⟨rest, ⟨slash, rfl⟩, fun d hd => (h d hd).symm⟩
    · rintro ⟨_, ⟨slash, rfl⟩, h⟩
      exact ⟨slash, fun d hd => (h d hd).symm⟩

/-- The pattern of a request path has the request paths. -/
theorem mem_requestPathPattern : cs ∈ requestPathPattern.matches' ↔ IsRequestPath cs := by
  simp only [requestPathPattern, Text.mem_mul, Text.mem_char, Text.mem_star_oneOf]
  constructor
  · rintro ⟨_, rfl, rest, h, rfl⟩
    exact ⟨rest, rfl, h⟩
  · rintro ⟨rest, rfl, h⟩
    exact ⟨['/'], rfl, rest, h, rfl⟩

end Paths
end HttpSettings
end PolicyAttachment
