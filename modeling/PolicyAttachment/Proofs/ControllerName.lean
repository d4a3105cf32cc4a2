import Mathlib.Data.List.TakeWhile
import PolicyAttachment.ControllerName
import PolicyAttachment.Proofs.Text.Pattern

/-!
# Which texts are controller names

A name is cut at its first slash, and both parts are then read by themselves. No other cut comes into
question, since there is no slash in a domain: a text has the form of a name exactly if it can be put
together from a domain, a slash and a path in whatever way, or matches `ControllerName.pattern`. So
`ControllerName.parse` accepts these texts, as far as they are short enough, and says of any other text
which of the three things is wrong with it: `ControllerName.parse_exactly`.
-/

namespace PolicyAttachment
set_option autoImplicit false

namespace ControllerName

open RegularExpression (char)
open Text (IsDomain IsPath pathAlphabet labelAlphabet)

/-- A domain, a slash and a path. -/
structure Splits (cs domain path : List Char) : Prop where
  whole : cs = domain ++ '/' :: path
  isDomain : IsDomain domain
  isPath : IsPath path

/-- `DOMAIN/[A-Za-z0-9/\-._~%!$&'()*+,;=:]+` -/
def pattern : RegularExpression Char :=
  Text.domainPattern * (char '/' * Text.atLeastOne (Text.oneOf pathAlphabet))

section Splitting

variable {cs domain path : List Char}

/-- The pattern has just the texts that are put together from a domain and a path. -/
theorem mem_pattern : cs ∈ pattern.matches' ↔ ∃ domain path, Splits cs domain path := by
  simp only [pattern, Text.mem_mul, Text.mem_domainPattern, Text.mem_char,
    Text.mem_atLeastOne_oneOf]
  constructor
  · rintro ⟨domain, hdomain, _, ⟨_, rfl, path, ⟨nonempty, characters⟩, rfl⟩, rfl⟩
    exact ⟨domain, path, rfl, hdomain, nonempty, characters⟩
  · rintro ⟨domain, path, rfl, hdomain, hpath⟩
    exact ⟨domain, hdomain, _, ⟨_, rfl, path, ⟨hpath.nonempty, hpath.characters⟩, rfl⟩, rfl⟩

/-- The slash of a name is the first one. -/
theorem Splits.parts (h : Splits cs domain path) :
    cs.takeWhile (· != '/') = domain ∧ cs.dropWhile (· != '/') = '/' :: path := by
  have apart : ∀ c ∈ domain, (c != '/') = true := by
    intro c hc
    refine bne_iff_ne.2 ?_
    rintro rfl
    exact h.isDomain.not_mem_slash hc
  rw [h.whole, List.takeWhile_append_of_pos apart, List.dropWhile_append_of_pos apart]
  simp

/-- The form is checked at the first slash, where the path begins, since a domain has none. -/
theorem hasForm_iff : hasForm cs = true ↔ ∃ domain path, Splits cs domain path := by
  rw [hasForm, Bool.and_eq_true, Text.isDomain_iff]
  constructor
  · rintro ⟨hdomain, hpath⟩
    split at hpath
    · rename_i slash path after
      have first := List.head?_dropWhile_not (· != '/') cs
      rw [after] at first
      obtain rfl : slash = '/' := by simpa using first
      refine ⟨cs.takeWhile (· != '/'), path, ?_, hdomain, Text.isPath_iff.1 hpath⟩
      rw [← after, List.takeWhile_append_dropWhile]
    · cases hpath
  · rintro ⟨domain, path, h⟩
    obtain ⟨before, after⟩ := h.parts
    rw [before, after]
    exact ⟨h.isDomain, Text.isPath_iff.2 h.isPath⟩

theorem Splits.characters (h : Splits cs domain path) : ∀ c ∈ cs, c ∈ pathAlphabet := by
  rw [h.whole]
  refine List.forall_mem_append.2 ⟨h.isDomain.isPathCharacter, List.forall_mem_cons.2 ⟨?_, ?_⟩⟩
  · decide
  · exact h.isPath.characters

end Splitting

section Parsing

variable {text : String}

/-- A text is valid if it has the form and is not too long. -/
theorem isValid_iff : isValid text = true ↔
    text.utf8ByteSize ≤ maxBytes ∧ ∃ domain path, Splits text.toList domain path := by
  rw [isValid, Bool.and_eq_true, Bool.and_eq_true, bne_iff_ne, decide_eq_true_eq, hasForm_iff]
  refine ⟨fun ⟨⟨_, short⟩, form⟩ => ⟨short, form⟩, fun ⟨short, form⟩ => ⟨⟨?_, short⟩, form⟩⟩
  rintro rfl
  obtain ⟨domain, path, h⟩ := form
  have whole := h.whole
  simp at whole

/-- A text reads as the name with this text. -/
theorem parse_eq_ok_iff {name : ControllerName} : parse text = .ok name ↔ name.text = text := by
  refine ⟨text_of_parse, ?_⟩
  rintro rfl
  exact parse_text name

theorem exists_parse_iff : (∃ name, parse text = .ok name) ↔ isValid text = true := by
  constructor
  · rintro ⟨name, h⟩
    rw [← text_of_parse h]
    exact name.valid
  · intro h
    exact ⟨⟨text, h⟩, parse_eq_ok_iff.2 rfl⟩

/-- An invalid text is blamed for the first of three things. -/
theorem parse_eq_error_iff {e : Invalid} : parse text = .error e ↔ isValid text = false ∧
    e = if text = "" then .empty else if maxBytes < text.utf8ByteSize then .tooLong
      else .malformed text := by
  cases valid : isValid text with
  | true =>
    rw [parse, dif_pos valid]
    simp
  | false =>
    have refused : parse text = .error (if text = "" then .empty
        else if maxBytes < text.utf8ByteSize then .tooLong else .malformed text) := by
      rw [parse, dif_neg (Bool.eq_false_iff.1 valid)]
      split
      · rfl
      · split <;> rfl
    rw [refused, Except.error.injEq, eq_comm]
    simp

/-- The empty text is refused before anything else is looked at. -/
theorem parse_eq_empty_iff : parse text = .error .empty ↔ text = "" := by
  rw [parse_eq_error_iff]
  constructor
  · rintro ⟨-, blamed⟩
    by_contra nonempty
    rw [if_neg nonempty] at blamed
    split at blamed <;> cases blamed
  · rintro rfl
    exact ⟨rfl, rfl⟩

/-- A text that is too long is refused for its length, whatever its form. -/
theorem parse_eq_tooLong_iff : parse text = .error .tooLong ↔ maxBytes < text.utf8ByteSize := by
  rw [parse_eq_error_iff]
  constructor
  · rintro ⟨-, blamed⟩
    split at blamed
    · cases blamed
    · split at blamed
      · assumption
      · cases blamed
  · intro long
    have nonempty : text ≠ "" := by
      rintro rfl
      exact absurd long (by decide)
    refine ⟨Bool.eq_false_iff.2 fun valid => ?_, ?_⟩
    · exact Nat.not_lt.2 (isValid_iff.1 valid).1 long
    · rw [if_neg nonempty, if_pos long]

/-- Only the form is left to complain about, and the complaint shows the text. -/
theorem parse_eq_malformed_iff {shown : String} : parse text = .error (.malformed shown) ↔
    shown = text ∧ text ≠ "" ∧ text.utf8ByteSize ≤ maxBytes ∧
      ¬ ∃ domain path, Splits text.toList domain path := by
  rw [parse_eq_error_iff, ← Bool.not_eq_true, isValid_iff]
  constructor
  · rintro ⟨invalid, blamed⟩
    split at blamed
    · cases blamed
    · rename_i nonempty
      split at blamed
      · cases blamed
      · rename_i short
        cases blamed
        exact ⟨rfl, nonempty, Nat.not_lt.1 short, fun form => invalid ⟨Nat.not_lt.1 short, form⟩⟩
  · rintro ⟨rfl, nonempty, short, unsplit⟩
    rw [if_neg nonempty, if_neg (Nat.not_lt.2 short)]
    exact ⟨fun valid => unsplit valid.2, rfl⟩

end Parsing

/-- The empty text, a text that is too long and one of another form are told apart; every other text is
the name that is spelled like that. Its form is that of a domain, a slash and a path, and there is one
way to split it, at the first slash. This is also what the pattern matches. There is no room in it for
line ends and characters beyond ASCII. -/
theorem parse_exactly (text : String) :
    (parse text = .error .empty ↔ text = "") ∧
    (parse text = .error .tooLong ↔ 253 < text.utf8ByteSize) ∧
    (∀ name, parse text = .ok name ↔ name.text = text) ∧
    ((∃ name, parse text = .ok name) ↔
      text.utf8ByteSize ≤ 253 ∧ ∃ domain path, Splits text.toList domain path) ∧
    (∀ shown, parse text = .error (.malformed shown) ↔ shown = text ∧ text ≠ "" ∧
      text.utf8ByteSize ≤ 253 ∧ ¬ ∃ domain path, Splits text.toList domain path) ∧
    (text.toList ∈ pattern.matches' ↔ ∃ domain path, Splits text.toList domain path) ∧
    (∀ domain path, Splits text.toList domain path →
      text.toList.takeWhile (· != '/') = domain ∧
      text.toList.dropWhile (· != '/') = '/' :: path) ∧
    ∀ name, parse text = .ok name → ∀ c ∈ text.toList, c.toNat < 128 ∧ c ≠ '\n' := by
  refine ⟨parse_eq_empty_iff, parse_eq_tooLong_iff, fun name => parse_eq_ok_iff,
    exists_parse_iff.trans isValid_iff, fun shown => parse_eq_malformed_iff, mem_pattern,
    fun domain path h => h.parts, fun name h c hc => ?_⟩
  obtain ⟨-, domain, path, split⟩ := isValid_iff.1 (exists_parse_iff.1 ⟨name, h⟩)
  exact Text.ascii_of_mem_pathAlphabet c (split.characters c hc)

/-- A name with a path of two parts, which is no name with a line end behind it. -/
theorem parse_exactly_versioned :
    (∃ name, parse "example.net/mesh-1/v2" = .ok name) ∧
      "example.net/mesh-1/v2".toList.takeWhile (· != '/') = "example.net".toList ∧
      parse "example.net/mesh-1/v2\n" = .error (.malformed "example.net/mesh-1/v2\n") := by
  have splits : Splits "example.net/mesh-1/v2".toList "example.net".toList "mesh-1/v2".toList :=
    ⟨by decide, by decide, by decide⟩
  obtain ⟨-, -, -, accepts, -, -, parts, -⟩ := parse_exactly "example.net/mesh-1/v2"
  obtain ⟨-, -, -, accepts', refuses, -, -, ascii⟩ := parse_exactly "example.net/mesh-1/v2\n"
  have short : "example.net/mesh-1/v2\n".utf8ByteSize ≤ 253 := by decide
  refine ⟨accepts.2 ⟨by decide, _, _, splits⟩, (parts _ _ splits).1, ?_⟩
  refine (refuses _).2 ⟨rfl, by decide, short, fun form => ?_⟩
  obtain ⟨name, h⟩ := accepts'.2 ⟨short, form⟩
  exact (ascii name h '\n' (by decide)).2 rfl

end ControllerName
end PolicyAttachment
