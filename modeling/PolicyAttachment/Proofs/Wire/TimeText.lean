import PolicyAttachment.Instant.Json
import PolicyAttachment.Proofs.Wire.Calendar
import Mathlib.Data.List.TakeWhile

/-!
# Reading times that were written

A time string that is written for an instant of the years 0 to 9999 reads as that instant, its fraction
cut off: `Instant.parse?_format`. Each part of it is a number with as many digits as are read, so the
part that follows is never mistaken for more of it.
-/

namespace PolicyAttachment
set_option autoImplicit false

namespace Text

theorem ofDigits_eq (ds : List Char) : ofDigits ds = Nat.ofDigitChars 10 ds 0 := by
  simp only [ofDigits, Nat.ofDigitChars, Nat.mul_comm]

variable {width n : Nat}

/-- A number is read from its digits whatever the zeros before it. -/
theorem ofDigits_padded (width n : Nat) : ofDigits (padded width n) = n := by
  have zeros : ∀ k, Nat.ofDigitChars 10 (List.replicate k '0') 0 = 0 := by
    intro k
    induction k with
    | zero => rfl
    | succ k ih => exact ih
  rw [ofDigits_eq, padded, Nat.ofDigitChars, List.foldl_append]
  exact (congrArg (Nat.ofDigitChars 10 (Nat.toDigits 10 n)) (zeros _)).trans
    (Nat.ofDigitChars_toDigits (by decide) (by decide))

theorem isDigit_of_mem_padded {c : Char} (h : c ∈ padded width n) : c.isDigit = true := by
  rcases List.mem_append.1 h with h | h
  · rw [List.eq_of_mem_replicate h]
    rfl
  · exact Nat.isDigit_of_mem_toDigits (by decide) (by decide) h

theorem length_padded (h : n < 10 ^ width) (hw : 0 < width) : (padded width n).length = width := by
  have := (Nat.length_toDigits_le_iff (by decide) hw).2 h
  rw [padded, List.length_append, List.length_replicate]
  omega

/-- The digits begin with one. -/
theorem exists_padded_eq (width n : Nat) :
    ∃ d ds, padded width n = d :: ds ∧ d.isDigit = true := by
  have nonempty : padded width n ≠ [] := by simp [padded, Nat.toDigits_ne_nil]
  obtain ⟨d, ds, hds⟩ := List.exists_cons_of_ne_nil nonempty
  exact ⟨d, ds, hds, isDigit_of_mem_padded (hds ▸ List.mem_cons_self)⟩

/-- A number of exactly as many digits as may be read. -/
theorem number?_padded (h : n < 10 ^ width) (hw : 0 < width) (cs : List Char) :
    number? width (padded width n ++ cs) = some (n, cs) := by
  have digits : ((padded width n ++ cs).take width).takeWhile Char.isDigit = padded width n := by
    rw [List.take_left' (length_padded h hw), List.takeWhile_eq_self_iff]
    intro c hc
    exact isDigit_of_mem_padded hc
  obtain ⟨d, ds, hds, -⟩ := exists_padded_eq width n
  unfold number?
  rw [digits, hds]
  simp only
  rw [← hds, ofDigits_padded, List.drop_left]

theorem isBlank_of_isDigit {c : Char} (h : c.isDigit = true) : isBlank c = false := by
  have range : 48 ≤ c.toNat ∧ c.toNat ≤ 57 := by
    rw [Char.isDigit, Bool.and_eq_true, decide_eq_true_eq, decide_eq_true_eq] at h
    exact ⟨UInt32.le_iff_toNat_le.1 h.1, UInt32.le_iff_toNat_le.1 h.2⟩
  rw [← Bool.not_eq_true]
  simp only [isBlank, blankRanges, List.any_cons, List.any_nil, Bool.or_eq_true, Bool.and_eq_true,
    decide_eq_true_eq, Bool.false_eq_true, or_false]
  omega

theorem skipBlanks_padded (width n : Nat) (cs : List Char) :
    skipBlanks (padded width n ++ cs) = padded width n ++ cs := by
  obtain ⟨d, ds, hds, digit⟩ := exists_padded_eq width n
  rw [hds, List.cons_append, skipBlanks, List.dropWhile_cons_of_neg]
  simp [isBlank_of_isDigit digit]

end Text

namespace Instant

open Text (padded number?_padded skipBlanks_padded exists_padded_eq)

section Parts

variable {n : Nat}

/-- A part of two digits is read as it was written. -/
theorem part?_padded (h : n < 100) (cs : List Char) :
    part? 2 (padded 2 n ++ cs) = some (n, cs) := by
  rw [part?, skipBlanks_padded, number?_padded h (by decide)]

/-- A mark that is no blank is read where it stands. -/
theorem mark?_cons {mark : Char} (h : Text.isBlank mark = false) (cs : List Char) :
    mark? mark (mark :: cs) = some cs := by
  simp [mark?, Text.skipBlanks, h]

/-- A year that is written without a sign. -/
theorem year?_yearText {year : Int} (h : 0 ≤ year ∧ year ≤ 9999) (cs : List Char) :
    year? (yearText year ++ cs) = some (year, cs) := by
  have number := number?_padded (by omega : year.toNat < 10 ^ 4) (by decide) cs
  rw [yearText, if_pos h, year?, skipBlanks_padded]
  obtain ⟨d, ds, hds, digit⟩ := exists_padded_eq 4 year.toNat
  rw [hds, List.cons_append] at number ⊢
  split
  · rename_i heq
    obtain ⟨rfl, -⟩ := List.cons.inj heq
    cases digit
  · rename_i heq
    obtain ⟨rfl, -⟩ := List.cons.inj heq
    cases digit
  · rw [number, Option.map_some]
    simp only [Int.toNat_of_nonneg h.1]

/-- A date that is written and has a year that is written without a sign. -/
theorem date?_text {date : Date} (hyear : 0 ≤ date.year ∧ date.year ≤ 9999)
    (valid : date.isValid = true) (cs : List Char) :
    date? (yearText date.year ++ '-' :: padded 2 date.month ++ '-' :: padded 2 date.day ++ cs) =
      some (date, cs) := by
  obtain ⟨⟨⟨-, hmonth⟩, -⟩, hday⟩ : ((1 ≤ date.month ∧ date.month ≤ 12) ∧ 1 ≤ date.day) ∧
      date.day ≤ Date.daysInMonth date.year date.month := by
    simpa only [Date.isValid, Bool.and_eq_true, decide_eq_true_eq] using valid
  have few := Date.daysInMonth_le date.year date.month
  have inRange : earliestYear ≤ date.year ∧ date.year ≤ latestYear := by
    simp only [earliestYear, latestYear]
    omega
  have blank : Text.isBlank '-' = false := by decide
  simp only [date?, List.append_assoc, List.cons_append, year?_yearText hyear, mark?_cons blank,
    part?_padded (by omega : date.month < 100), part?_padded (by omega : date.day < 100),
    Option.bind_eq_bind, Option.bind_some, inRange, valid, and_self, if_true]

/-- A time of day, whose last second may be a sixtieth. -/
theorem timeOfDay?_text {hour minute second : Nat} (h : hour < 24 ∧ minute < 60 ∧ second < 61) :
    timeOfDay? (padded 2 hour ++ ':' :: padded 2 minute ++ ':' :: padded 2 second ++ ['Z']) =
      some (if second = 60 then (hour * 3600 + minute * 60 + 59, nanosPerSecond, ['Z'])
        else (hour * 3600 + minute * 60 + second, 0, ['Z'])) := by
  have blank : Text.isBlank ':' = false := by decide
  have noFraction : fraction? ['Z'] = some (0, ['Z']) := rfl
  have inRange : ¬ (24 ≤ hour ∨ 60 ≤ minute ∨ 61 ≤ second) := by omega
  simp only [timeOfDay?, List.append_assoc, List.cons_append, mark?_cons blank,
    part?_padded (by omega : hour < 100), part?_padded (by omega : minute < 100),
    part?_padded (by omega : second < 100), Option.bind_eq_bind, Option.bind_some, noFraction,
    inRange, if_false]
  split <;> rfl

end Parts

/-- The year of an instant in universal time. -/
def year (t : Instant) : Int := (Date.ofDays (t.second / secondsPerDay)).year

/-- An instant of the years 0 to 9999, in a leap second only at the end of a minute. -/
structure Writable (t : Instant) : Prop where
  year : 0 ≤ t.year ∧ t.year ≤ 9999
  leap : t.isLeap = true → t.second % 60 = 59

/-- The years that are written without a sign are years that have instants. -/
theorem second_bounds {t : Instant} (h : 0 ≤ t.year ∧ t.year ≤ 9999) :
    earliestSecond ≤ t.second ∧ t.second ≤ latestSecond := by
  have days := Date.toDays_ofDays (t.second / secondsPerDay)
  have valid := Date.isValid_ofDays (t.second / secondsPerDay)
  unfold year at h
  generalize Date.ofDays (t.second / secondsPerDay) = date at days valid h
  simp only [Date.isValid, Bool.and_eq_true, decide_eq_true_eq] at valid
  have few := Date.daysInMonth_le date.year date.month
  simp only [Date.toDays, secondsPerDay] at days
  simp only [earliestSecond, latestSecond]
  split at days <;> omega

/-- A time that is written is put together again without its fraction. -/
theorem ofParts?_truncated {t : Instant} (h : t.Writable) :
    ofParts? t.second (if t.isLeap then nanosPerSecond else 0) = some t.truncated := by
  obtain ⟨low, high⟩ := second_bounds h.year
  rw [ofParts?, if_neg (by omega)]
  cases hl : t.isLeap with
  | true =>
    have minute := h.leap hl
    simp [truncated, hl, minute, nanosPerSecond]
  | false => simp [truncated, hl, nanosPerSecond]

/-- The seconds of its day before an instant. -/
def secondOfDay (t : Instant) : Nat := (t.second % secondsPerDay).toNat

/-- The second of the day is what is left of the seconds after whole days. -/
theorem secondOfDay_eq (t : Instant) : (t.secondOfDay : Int) = t.second % secondsPerDay :=
  Int.toNat_of_nonneg (Int.emod_nonneg _ (by decide))

/-- The time of day that is written for an instant. -/
theorem timeOfDay?_secondOfDay {t : Instant} (h : t.Writable) :
    timeOfDay? (padded 2 (t.secondOfDay / 3600) ++ ':' :: padded 2 (t.secondOfDay / 60 % 60) ++
        ':' :: padded 2 (t.secondOfDay % 60 + if t.isLeap then 1 else 0) ++ ['Z']) =
      some (t.secondOfDay, if t.isLeap then nanosPerSecond else 0, ['Z']) := by
  have day := t.secondOfDay_eq
  unfold secondsPerDay at day
  have bounds : t.secondOfDay / 3600 < 24 ∧ t.secondOfDay / 60 % 60 < 60 ∧
      (t.secondOfDay % 60 + if t.isLeap then 1 else 0) < 61 := by
    refine ⟨by omega, by omega, ?_⟩
    split <;> omega
  rw [timeOfDay?_text bounds]
  cases hl : t.isLeap with
  | true =>
    have last : t.secondOfDay % 60 = 59 := by
      have := h.leap hl
      omega
    have whole : t.secondOfDay / 3600 * 3600 + t.secondOfDay / 60 % 60 * 60 + 59 = t.secondOfDay := by
      omega
    simp [last, whole]
  | false =>
    have notSixty : t.secondOfDay % 60 ≠ 60 := by omega
    have whole : t.secondOfDay / 3600 * 3600 + t.secondOfDay / 60 % 60 * 60 + t.secondOfDay % 60 =
        t.secondOfDay := by
      omega
    simp [notSixty, whole]

/-- What is written for an instant reads as it, but for the fraction. -/
theorem parse?_format {t : Instant} (h : t.Writable) : parse? t.format = some t.truncated := by
  have valid := Date.isValid_ofDays (t.second / secondsPerDay)
  have text : t.secondText ++ ['Z'] =
      yearText (Date.ofDays (t.second / secondsPerDay)).year ++
        '-' :: padded 2 (Date.ofDays (t.second / secondsPerDay)).month ++
        '-' :: padded 2 (Date.ofDays (t.second / secondsPerDay)).day ++
        'T' :: (padded 2 (t.secondOfDay / 3600) ++ ':' :: padded 2 (t.secondOfDay / 60 % 60) ++
          ':' :: padded 2 (t.secondOfDay % 60 + if t.isLeap then 1 else 0) ++ ['Z']) := by
    simp only [secondText, secondOfDay, List.append_assoc, List.cons_append]
  have zone : offset? (Text.skipBlanks ['Z']) = some (0, []) := by decide
  have done : (Text.skipBlanks []).isEmpty = true := rfl
  have second : t.second / secondsPerDay * secondsPerDay + (t.secondOfDay : Int) - 0 = t.second := by
    rw [secondOfDay_eq, Int.ediv_mul_add_emod, Int.sub_zero]
  rw [parse?, format, String.toList_ofList, text, date?_text h.year valid]
  simp only [Option.bind_eq_bind, Option.bind_some, separator?, timeOfDay?_secondOfDay h,
    Date.toDays_ofDays, zone, done, if_true, second]
  exact ofParts?_truncated h

/-- A time reads as it was written, without its fraction. -/
theorem ofJson?_toJson {t : Instant} (h : t.Writable) : ofJson? t.toJson = some t.truncated := by
  simp only [ofJson?, toJson, Json.string?, Option.bind_some, parse?_format h]

end Instant
end PolicyAttachment
