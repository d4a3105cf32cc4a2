import Mathlib.Computability.RegularExpressions
import PolicyAttachment.Proofs.Text.Grammar

/-!
# Patterns

The patterns that names, hosts, ports and paths have to match as a whole, as regular expressions, and
which texts match them: a label in the middle of which anything may stand but that cannot end in a
hyphen, and a sequence of labels in which every dot brings another one.
-/

namespace PolicyAttachment.Text
set_option autoImplicit false

open RegularExpression (char star)

/-! ### What patterns are made of -/

/-- `[cs]` -/
def oneOf (cs : List Char) : RegularExpression Char := (cs.map char).sum

/-- `P?` -/
def atMostOne (P : RegularExpression Char) : RegularExpression Char := 1 + P

/-- `P+` -/
def atLeastOne (P : RegularExpression Char) : RegularExpression Char := P * star P

/-- `P(separator P)*` -/
def separated (separator : Char) (P : RegularExpression Char) : RegularExpression Char :=
  P * star (char separator * P)

section Matching

variable {cs w : List Char} {P Q : RegularExpression Char}

theorem mem_mul : w ∈ (P * Q).matches' ↔ ∃ u ∈ P.matches', ∃ v ∈ Q.matches', u ++ v = w :=
  Language.mem_mul

theorem mem_char {c : Char} : w ∈ (char c).matches' ↔ w = [c] := Iff.rfl

theorem mem_atMostOne : w ∈ (atMostOne P).matches' ↔ w = [] ∨ w ∈ P.matches' := Iff.rfl

theorem mem_oneOf : w ∈ (oneOf cs).matches' ↔ ∃ c ∈ cs, w = [c] := by
  induction cs with
  | nil => exact iff_of_false (Language.notMem_zero w) (by simp)
  | cons c cs ih =>
    have either : w ∈ (oneOf (c :: cs)).matches' ↔ w = [c] ∨ w ∈ (oneOf cs).matches' := Iff.rfl
    rw [either, ih, List.exists_mem_cons_iff]

theorem mem_star : w ∈ (star P).matches' ↔
    ∃ parts : List (List Char), w = parts.flatten ∧ ∀ p ∈ parts, p ∈ P.matches' :=
  Language.mem_kstar

theorem mem_star_oneOf : w ∈ (star (oneOf cs)).matches' ↔ ∀ c ∈ w, c ∈ cs := by
  rw [mem_star]
  constructor
  · rintro ⟨parts, rfl, h⟩ c hc
    obtain ⟨part, hpart, hc⟩ := List.mem_flatten.1 hc
    obtain ⟨d, hd, rfl⟩ := mem_oneOf.1 (h part hpart)
    rwa [List.mem_singleton.1 hc]
  · intro h
    refine ⟨w.map fun c => [c], (List.flatMap_singleton' w).symm, fun part hpart => ?_⟩
    obtain ⟨c, hc, rfl⟩ := List.mem_map.1 hpart
    exact mem_oneOf.2 ⟨c, h c hc, rfl⟩

/-- A class repeated at least once has the texts of its characters, but for the empty one. -/
theorem mem_atLeastOne_oneOf :
    w ∈ (atLeastOne (oneOf cs)).matches' ↔ w ≠ [] ∧ ∀ c ∈ w, c ∈ cs := by
  simp only [atLeastOne, mem_mul, mem_oneOf, mem_star_oneOf]
  constructor
  · rintro ⟨_, ⟨c, hc, rfl⟩, rest, hrest, rfl⟩
    exact ⟨List.cons_ne_nil c rest, List.forall_mem_cons.2 ⟨hc, hrest⟩⟩
  · rintro ⟨nonempty, h⟩
    obtain ⟨c, rest, rfl⟩ := List.exists_cons_of_ne_nil nonempty
    obtain ⟨hc, hrest⟩ := List.forall_mem_cons.1 h
    exact ⟨[c], ⟨c, hc, rfl⟩, rest, hrest, rfl⟩

/-- Each further part is one round of the repetition, without the separator that it starts with. -/
theorem mem_separated {separator : Char} : w ∈ (separated separator P).matches' ↔
    ∃ parts : List (List Char), parts ≠ [] ∧ (∀ p ∈ parts, p ∈ P.matches') ∧
      w = [separator].intercalate parts := by
  simp only [separated, mem_mul, mem_star]
  constructor
  · rintro ⟨part, hpart, _, ⟨rounds, rfl, hrounds⟩, rfl⟩
    have split : ∀ r ∈ rounds, r.tail ∈ P.matches' ∧ separator :: r.tail = r := by
      intro r hr
      obtain ⟨_, rfl, p, hp, rfl⟩ := hrounds r hr
      exact ⟨hp, rfl⟩
    refine ⟨part :: rounds.map List.tail, List.cons_ne_nil _ _, ?_, ?_⟩
    · refine List.forall_mem_cons.2 ⟨hpart, fun p hp => ?_⟩
      obtain ⟨r, hr, rfl⟩ := List.mem_map.1 hp
      exact (split r hr).1
    · have whole : (rounds.map List.tail).map (separator :: ·) = rounds := by
        rw [List.map_map]
        exact (List.map_congr_left fun r hr => (split r hr).2).trans (List.map_id rounds)
      rw [intercalate_cons, whole]
  · rintro ⟨_ | ⟨part, parts⟩, nonempty, h, rfl⟩
    · exact absurd rfl nonempty
    · obtain ⟨hpart, hparts⟩ := List.forall_mem_cons.1 h
      refine ⟨part, hpart, _, ⟨parts.map (separator :: ·), rfl, ?_⟩,
        (intercalate_cons separator part parts).symm⟩
      intro round hround
      obtain ⟨p, hp, rfl⟩ := List.mem_map.1 hround
      exact ⟨[separator], rfl, p, hparts p hp, rfl⟩

end Matching

/-! ### The patterns -/

/-- `([-a-z0-9]*[a-z0-9])?` -/
def labelTail : RegularExpression Char :=
  atMostOne (star (oneOf labelAlphabet) * oneOf lowerOrDigits)

/-- `[a-z0-9]([-a-z0-9]*[a-z0-9])?` -/
def labelPattern : RegularExpression Char := oneOf lowerOrDigits * labelTail

/-- `[a-z]([-a-z0-9]*[a-z0-9])?` -/
def portNamePattern : RegularExpression Char := oneOf (span 'a' 'z') * labelTail

/-- `LABEL(\.LABEL)*` -/
def domainPattern : RegularExpression Char := separated '.' labelPattern

section Patterns

variable {w : List Char}

/-- Without the hyphen, the characters of a label are the small letters and the digits. -/
theorem mem_lowerOrDigits_iff {c : Char} : c ∈ lowerOrDigits ↔ c ∈ labelAlphabet ∧ c ≠ '-' := by
  constructor
  · intro h
    refine ⟨List.mem_cons_of_mem _ h, ?_⟩
    rintro rfl
    exact absurd h (by decide)
  · rintro ⟨h, apart⟩
    exact (List.mem_cons.1 h).resolve_left apart

/-- The tail of a label has the characters of a label and does not end with a hyphen. -/
theorem mem_labelTail : w ∈ labelTail.matches' ↔
    (∀ c ∈ w, c ∈ labelAlphabet) ∧ w.getLast? ≠ some '-' := by
  simp only [labelTail, mem_atMostOne, mem_mul, mem_star_oneOf, mem_oneOf]
  constructor
  · rintro (rfl | ⟨inner, hinner, _, ⟨d, hd, rfl⟩, rfl⟩)
    · simp
    · obtain ⟨inAlphabet, apart⟩ := mem_lowerOrDigits_iff.1 hd
      refine ⟨List.forall_mem_append.2 ⟨hinner, List.forall_mem_singleton.2 inAlphabet⟩, ?_⟩
      rw [List.getLast?_append, List.getLast?_singleton, Option.some_or]
      exact fun last => apart (Option.some.inj last)
  · rintro ⟨characters, last⟩
    rcases List.eq_nil_or_concat w with rfl | ⟨inner, d, rfl⟩
    · exact .inl rfl
    · rw [List.concat_eq_append] at characters last ⊢
      obtain ⟨hinner, hd⟩ := List.forall_mem_append.1 characters
      have apart : d ≠ '-' := by
        rintro rfl
        simp at last
      exact .inr ⟨inner, hinner, [d],
        ⟨d, mem_lowerOrDigits_iff.2 ⟨List.forall_mem_singleton.1 hd, apart⟩, rfl⟩, rfl⟩

/-- A hyphen can only be the last character if it is one of the tail. -/
theorem mem_oneOf_mul_labelTail {heads : List Char} (sub : ∀ c ∈ heads, c ∈ lowerOrDigits) :
    w ∈ (oneOf heads * labelTail).matches' ↔
      (∃ c ∈ heads, w.head? = some c) ∧ (∀ c ∈ w, c ∈ labelAlphabet) ∧ w.getLast? ≠ some '-' := by
  have last (c : Char) (hc : c ∈ heads) (rest : List Char) :
      (c :: rest).getLast? ≠ some '-' ↔ rest.getLast? ≠ some '-' := by
    have apart := (mem_lowerOrDigits_iff.1 (sub c hc)).2
    rw [List.getLast?_cons]
    cases rest.getLast? <;> simp [apart]
  simp only [mem_mul, mem_oneOf, mem_labelTail]
  constructor
  · rintro ⟨_, ⟨c, hc, rfl⟩, rest, ⟨hrest, hlast⟩, rfl⟩
    have inAlphabet := (mem_lowerOrDigits_iff.1 (sub c hc)).1
    exact ⟨⟨c, hc, rfl⟩, List.forall_mem_cons.2 ⟨inAlphabet, hrest⟩, (last c hc rest).2 hlast⟩
  · rintro ⟨⟨c, hc, first⟩, characters, hlast⟩
    obtain ⟨rest, rfl⟩ := List.head?_eq_some_iff.1 first
    exact ⟨[c], ⟨c, hc, rfl⟩, rest,
      ⟨(List.forall_mem_cons.1 characters).2, (last c hc rest).1 hlast⟩, rfl⟩

/-- The pattern of a label has the labels. -/
theorem mem_labelPattern : w ∈ labelPattern.matches' ↔ IsLabel w := by
  rw [labelPattern, mem_oneOf_mul_labelTail fun _ h => h]
  constructor
  · rintro ⟨⟨c, hc, first⟩, characters, last⟩
    obtain ⟨rest, rfl⟩ := List.head?_eq_some_iff.1 first
    refine ⟨List.cons_ne_nil c rest, characters, fun hyphen => ?_, last⟩
    exact (mem_lowerOrDigits_iff.1 hc).2 (Option.some.inj hyphen)
  · intro h
    obtain ⟨c, rest, rfl⟩ := List.exists_cons_of_ne_nil h.nonempty
    have inAlphabet := h.characters c List.mem_cons_self
    have apart : c ≠ '-' := fun hyphen => h.first (congrArg some hyphen)
    exact ⟨⟨c, mem_lowerOrDigits_iff.2 ⟨inAlphabet, apart⟩, rfl⟩, h.characters, h.last⟩

/-- The pattern of a port name has the port names. -/
theorem mem_portNamePattern : w ∈ portNamePattern.matches' ↔ IsPortName w := by
  rw [portNamePattern, mem_oneOf_mul_labelTail fun _ h => List.mem_append_left _ h]
  exact ⟨fun ⟨first, characters, last⟩ => ⟨first, characters, last⟩,
    fun h => ⟨h.first, h.characters, h.last⟩⟩

/-- The pattern of a domain has the domains. -/
theorem mem_domainPattern : w ∈ domainPattern.matches' ↔ IsDomain w := by
  simp only [domainPattern, mem_separated, mem_labelPattern, IsDomain]

end Patterns

end PolicyAttachment.Text
