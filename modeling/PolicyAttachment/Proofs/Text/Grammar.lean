import PolicyAttachment.Text.Label

/-!
# The grammar of labels, domains and paths

What these texts are made of, by the characters that may stand in them and the way they are put
together, apart from how they are read. A domain is read by its fields, of which there is one way to
put them together again: `isDomain_iff`.
-/

namespace PolicyAttachment.Text
set_option autoImplicit false

/-! ### Alphabets -/

/-- The characters from `first` to `last`. -/
def span (first last : Char) : List Char :=
  (List.range' first.toNat (last.toNat + 1 - first.toNat)).map Char.ofNat

/-- Small letters and digits. -/
def lowerOrDigits : List Char := span 'a' 'z' ++ span '0' '9'

/-- What labels are made of. -/
def labelAlphabet : List Char := '-' :: lowerOrDigits

/-- What paths are made of. -/
def pathAlphabet : List Char :=
  span 'A' 'Z' ++ span 'a' 'z' ++ span '0' '9' ++ "/-._~%!$&'()*+,;=:".toList

section Alphabets

variable {first last c : Char}

/-- Numbers below the surrogates are characters, so that none is left out. -/
theorem mem_span (h : last.toNat < 0xd800) : c ∈ span first last ↔ first ≤ c ∧ c ≤ last := by
  have order : first ≤ c ∧ c ≤ last ↔ first.toNat ≤ c.toNat ∧ c.toNat ≤ last.toNat := Iff.rfl
  rw [order, span, List.mem_map]
  constructor
  · rintro ⟨n, hn, rfl⟩
    rw [List.mem_range'_1] at hn
    have valid : n.isValidChar := .inl (by omega)
    have number : (Char.ofNat n).toNat = n := by
      rw [Char.ofNat, dif_pos valid]
      rfl
    omega
  · rintro ⟨low, high⟩
    exact ⟨c.toNat, List.mem_range'_1.2 (by omega), Char.ofNat_toNat c⟩

theorem isLower_iff : c.isLower = true ↔ c ∈ span 'a' 'z' := by
  have bounds : c.isLower = (decide ('a' ≤ c) && decide (c ≤ 'z')) := rfl
  rw [mem_span (by decide), bounds, Bool.and_eq_true, decide_eq_true_iff, decide_eq_true_iff]

theorem isUpper_iff : c.isUpper = true ↔ c ∈ span 'A' 'Z' := by
  rw [mem_span (by decide)]
  exact decide_eq_true_iff

theorem isDigit_iff : c.isDigit = true ↔ c ∈ span '0' '9' := by
  rw [mem_span (by decide)]
  simp [Char.isDigit, Char.le_def]

theorem isLowerOrDigit_iff : isLowerOrDigit c = true ↔ c ∈ lowerOrDigits := by
  rw [isLowerOrDigit, Bool.or_eq_true, isLower_iff, isDigit_iff, lowerOrDigits, List.mem_append]

theorem isLabelCharacter_iff : isLabelCharacter c = true ↔ c ∈ labelAlphabet := by
  rw [isLabelCharacter, Bool.or_eq_true, isLowerOrDigit_iff, beq_iff_eq, labelAlphabet,
    List.mem_cons, or_comm]

theorem isPathCharacter_iff : isPathCharacter c = true ↔ c ∈ pathAlphabet := by
  have alphanumeric : c.isAlphanum = (c.isUpper || c.isLower || c.isDigit) := rfl
  simp only [isPathCharacter, alphanumeric, Bool.or_eq_true, isUpper_iff, isLower_iff, isDigit_iff,
    List.contains_iff_mem, pathAlphabet, List.mem_append]

end Alphabets

/-! ### Labels -/

/-- At least one character of a label, and no hyphen at either end. -/
structure IsLabel (cs : List Char) : Prop where
  nonempty : cs ≠ []
  characters : ∀ c ∈ cs, c ∈ labelAlphabet
  first : cs.head? ≠ some '-'
  last : cs.getLast? ≠ some '-'

/-- A small letter and any further characters of a label, no hyphen at the end. -/
structure IsPortName (cs : List Char) : Prop where
  first : ∃ c ∈ span 'a' 'z', cs.head? = some c
  characters : ∀ c ∈ cs, c ∈ labelAlphabet
  last : cs.getLast? ≠ some '-'

section Labels

variable {cs : List Char}

/-- The scan for a label decides what a label is. -/
theorem isLabel_iff : isLabel cs = true ↔ IsLabel cs := by
  simp only [isLabel, Bool.and_eq_true, Bool.not_eq_true', List.isEmpty_eq_false_iff,
    List.all_eq_true, isLabelCharacter_iff, bne_iff_ne]
  constructor
  · rintro ⟨⟨⟨nonempty, characters⟩, first⟩, last⟩
    exact ⟨nonempty, characters, first, last⟩
  · intro h
    exact ⟨⟨⟨h.nonempty, h.characters⟩, h.first⟩, h.last⟩

instance : DecidablePred IsLabel := fun _ => decidable_of_iff _ isLabel_iff

/-- The scan for a port name decides what a port name is. -/
theorem isPortLabel_iff : isPortLabel cs = true ↔ IsPortName cs := by
  rw [isPortLabel, Bool.and_eq_true, isLabel_iff, Option.any_eq_true]
  simp only [isLower_iff]
  constructor
  · rintro ⟨label, c, first, letter⟩
    exact ⟨⟨c, letter, first⟩, label.characters, label.last⟩
  · rintro ⟨⟨c, letter, first⟩, characters, last⟩
    refine ⟨⟨?_, characters, ?_, last⟩, c, first, letter⟩
    · rintro rfl
      cases first
    · intro hyphen
      rw [first] at hyphen
      cases hyphen
      exact absurd letter (by decide)

instance : DecidablePred IsPortName := fun _ => decidable_of_iff _ isPortLabel_iff

end Labels

/-! ### Domains -/

/-- One label, or several with dots between them. -/
def IsDomain (cs : List Char) : Prop :=
  ∃ labels : List (List Char), labels ≠ [] ∧ (∀ l ∈ labels, IsLabel l) ∧
    cs = ['.'].intercalate labels

section Domains

variable {cs : List Char}

/-- The fields are those of the library, so its lemmas on splitting apply. -/
theorem fields_eq_splitOn (separator : Char) (cs : List Char) :
    fields separator cs = cs.splitOn separator := by
  induction cs with
  | nil => rfl
  | cons c cs ih =>
    rw [fields, ih, List.splitOn_cons_eq_if_modifyHead]
    split
    · rfl
    · split
      · rename_i none
        exact absurd none (List.splitOn_ne_nil separator cs)
      · rename_i split
        rw [split, List.modifyHead_cons]

/-- What is put together from parts without dots has those parts for fields. -/
theorem fields_intercalate {separator : Char} {parts : List (List Char)} (nonempty : parts ≠ [])
    (h : ∀ p ∈ parts, separator ∉ p) : fields separator ([separator].intercalate parts) = parts := by
  rw [fields_eq_splitOn, List.splitOn_intercalate separator h nonempty]

/-- Joined again, the fields are the text that was cut. -/
theorem intercalate_fields (separator : Char) (cs : List Char) :
    [separator].intercalate (fields separator cs) = cs := by
  rw [fields_eq_splitOn, List.intercalate_splitOn]

theorem IsLabel.not_mem_dot (h : IsLabel cs) : '.' ∉ cs :=
  fun dot => absurd (h.characters _ dot) (by decide)

/-- The scan for a domain decides what a domain is. -/
theorem isDomain_iff : isDomain cs = true ↔ IsDomain cs := by
  simp only [isDomain, List.all_eq_true, isLabel_iff]
  constructor
  · intro h
    exact ⟨fields '.' cs, fields_ne_nil '.' cs, h, (intercalate_fields '.' cs).symm⟩
  · rintro ⟨labels, nonempty, h, rfl⟩
    rwa [fields_intercalate nonempty fun l hl => (h l hl).not_mem_dot]

instance : DecidablePred IsDomain := fun _ => decidable_of_iff _ isDomain_iff

/-- After the first part, each part comes with a separator in front of it. -/
theorem intercalate_cons (separator : Char) (part : List Char) (parts : List (List Char)) :
    [separator].intercalate (part :: parts) = part ++ (parts.map (separator :: ·)).flatten := by
  induction parts generalizing part with
  | nil => simp
  | cons next parts ih =>
    rw [List.intercalate_cons_cons, ih, List.map_cons, List.flatten_cons, List.append_assoc,
      List.singleton_append, List.cons_append]

theorem IsDomain.characters (h : IsDomain cs) : ∀ c ∈ cs, c = '.' ∨ c ∈ labelAlphabet := by
  obtain ⟨_ | ⟨label, labels⟩, nonempty, isLabel, rfl⟩ := h
  · exact absurd rfl nonempty
  · intro c hc
    rw [intercalate_cons, List.mem_append, List.mem_flatten] at hc
    rcases hc with hc | ⟨part, hpart, hc⟩
    · exact .inr ((isLabel label List.mem_cons_self).characters c hc)
    · obtain ⟨l, hl, rfl⟩ := List.mem_map.1 hpart
      rcases List.mem_cons.1 hc with rfl | hc
      · exact .inl rfl
      · exact .inr ((isLabel l (List.mem_cons_of_mem _ hl)).characters c hc)

/-- A domain ends before the first slash. -/
theorem IsDomain.not_mem_slash (h : IsDomain cs) : '/' ∉ cs := by
  intro slash
  have outside : ¬ ('/' = '.' ∨ '/' ∈ labelAlphabet) := by decide
  exact outside (h.characters _ slash)

end Domains

/-! ### Paths -/

/-- At least one character of a path. -/
structure IsPath (cs : List Char) : Prop where
  nonempty : cs ≠ []
  characters : ∀ c ∈ cs, c ∈ pathAlphabet

section Paths

variable {cs : List Char}

/-- The scan for a path decides what a path is. -/
theorem isPath_iff : (!cs.isEmpty && cs.all isPathCharacter) = true ↔ IsPath cs := by
  simp only [Bool.and_eq_true, Bool.not_eq_true', List.isEmpty_eq_false_iff, List.all_eq_true,
    isPathCharacter_iff]
  exact ⟨fun ⟨nonempty, characters⟩ => ⟨nonempty, characters⟩,
    fun h => ⟨h.nonempty, h.characters⟩⟩

instance : DecidablePred IsPath := fun _ => decidable_of_iff _ isPath_iff

theorem mem_pathAlphabet_of_mem_labelAlphabet : ∀ c ∈ labelAlphabet, c ∈ pathAlphabet := by
  intro c h
  rcases List.mem_cons.1 h with rfl | h
  · decide
  · simp only [lowerOrDigits, pathAlphabet, List.mem_append] at h ⊢
    exact .inl (h.imp_left .inr)

/-- Every character of a domain may stand in a path. -/
theorem IsDomain.isPathCharacter (h : IsDomain cs) : ∀ c ∈ cs, c ∈ pathAlphabet := by
  intro c hc
  rcases h.characters c hc with rfl | hc
  · decide
  · exact mem_pathAlphabet_of_mem_labelAlphabet c hc

/-- The characters of a path are ASCII and none ends a line. -/
theorem ascii_of_mem_pathAlphabet : ∀ c ∈ pathAlphabet, c.toNat < 128 ∧ c ≠ '\n' := by
  have all : (pathAlphabet.all fun c => c.toNat < 128 && c != '\n') = true := by decide
  intro c h
  simpa using List.all_eq_true.1 all c h

end Paths

end PolicyAttachment.Text
