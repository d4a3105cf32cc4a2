import PolicyAttachment.Proofs.Wire.StatusJson

/-!
# Wire forms

How the values of a type are written and read. Values may hold times, of which the fraction is lost when
they are written; a form that is `Lawful` loses no more than that. It then makes a round trip, from
either end: `WireForm.Lawful.roundTrips`.

The forms of conditions, of entries and of the three shapes of a status are lawful.
-/

namespace PolicyAttachment
set_option autoImplicit false

open Json.Members (defaulted_eq)

/-! ### Times -/

namespace Instant

/-- An instant of the years that are written without a sign. -/
def InYears (t : Instant) : Prop := 0 ≤ t.year ∧ t.year ≤ 9999

instance (t : Instant) : Decidable t.InYears := inferInstanceAs (Decidable (_ ∧ _))

/-- Leap seconds end a minute. -/
def IsTime (t : Instant) : Prop := t.isLeap = true → t.second % 60 = 59

/-- An instant without a fraction. -/
def IsWhole (t : Instant) : Prop := t.truncated = t

/-- Whatever parts are read as an instant, a leap second of it ends a minute. -/
theorem isTime_of_ofParts? {second : Int} {nanosecond : Nat} {t : Instant}
    (h : ofParts? second nanosecond = some t) : t.IsTime := by
  unfold ofParts? at h
  split at h
  · nomatch h
  · split at h
    · cases h
      intro leap
      simp only [isLeap, decide_eq_true_eq] at leap
      omega
    · split at h
      · cases h
        rename_i inLeap
        exact fun _ => inLeap.2
      · nomatch h

/-- Whatever is read is a time. -/
theorem isTime_of_ofJson? (j : Json) (t : Instant) (h : ofJson? j = some t) : t.IsTime := by
  obtain ⟨text, -, h⟩ := Option.bind_eq_some_iff.1 h
  simp only [parse?, Option.bind_eq_bind, Option.bind_eq_some_iff] at h
  obtain ⟨_, -, _, -, _, -, _, -, h⟩ := h
  split at h
  · exact isTime_of_ofParts? h
  · cases h

/-- A fraction is not written. -/
theorem toJson_truncated (t : Instant) : t.truncated.toJson = t.toJson := by
  rw [toJson, toJson, format, format, secondText, secondText, isLeap_truncated]
  rfl

end Instant

/-! ### Forms -/

/-- How the values of a type are written as documents and read from them. -/
structure WireForm (α : Type) where
  decode : Json → Option α
  encode : α → Json
  /-- Numbers are in the range of their fields, and leap seconds end a minute. -/
  Fits : α → Prop
  /-- All times in a value. -/
  times : α → List Instant
  /-- The values whose parts are all looked at. -/
  Covers : α → Prop := fun _ => True

namespace WireForm

variable {α : Type}

/-- Reading what was written gives the value again, and writing what was read gives a document that is
written again and again. -/
structure RoundTrips (w : WireForm α) : Prop where
  value : ∀ v, w.Fits v → w.Covers v → (∀ t ∈ w.times v, t.InYears ∧ t.IsWhole) →
    w.decode (w.encode v) = some v
  document : ∀ j v, w.decode j = some v → w.Covers v → (∀ t ∈ w.times v, t.InYears) →
    ∃ v', w.decode (w.encode v) = some v' ∧ w.encode v' = w.encode v

/-- What is written for a value reads as `written` of it, which is the value without the fractions of
its times. -/
structure Lawful (w : WireForm α) (written : α → α) : Prop where
  reads : ∀ v, w.Fits v → w.Covers v → (∀ t ∈ w.times v, t.InYears) →
    w.decode (w.encode v) = some (written v)
  fits : ∀ j v, w.decode j = some v → w.Fits v
  notNull : ∀ v, w.encode v ≠ .null
  encode_written : ∀ v, w.encode (written v) = w.encode v
  written_eq : ∀ v, (∀ t ∈ w.times v, t.IsWhole) → written v = v

/-- A lawful form makes a round trip from either end. -/
theorem Lawful.roundTrips {w : WireForm α} {written : α → α} (law : w.Lawful written) :
    w.RoundTrips where
  value v fits covers times := by
    rw [law.reads v fits covers fun t ht => (times t ht).1, law.written_eq v fun t ht => (times t ht).2]
  document j v read covers years :=
    ⟨written v, law.reads v (law.fits j v read) covers years, law.encode_written v⟩

/-- The form of lists of such values. -/
def list (w : WireForm α) : WireForm (List α) where
  decode := Json.list? w.decode
  encode := Json.ofList w.encode
  Fits l := ∀ a ∈ l, w.Fits a
  times l := l.flatMap w.times
  Covers l := ∀ a ∈ l, w.Covers a

/-- Lists of what is lawful are lawful. -/
theorem Lawful.list {w : WireForm α} {written : α → α} (law : w.Lawful written) :
    w.list.Lawful (List.map written) where
  reads l fits covers years :=
    Json.list?_ofList fun a ha => law.reads a (fits a ha) (covers a ha) fun t ht =>
      years t (List.mem_flatMap.2 ⟨a, ha, ht⟩)
  fits j l h := by
    obtain ⟨items, -, h⟩ := Option.bind_eq_some_iff.1 h
    exact Json.forall_mem_of_mapM law.fits h
  notNull l := by simp [WireForm.list, Json.ofList]
  encode_written l := by
    simp only [WireForm.list, Json.ofList, List.map_map]
    exact congrArg Json.arr (List.map_congr_left fun a _ => law.encode_written a)
  written_eq l whole := by
    have same : ∀ a ∈ l, written a = id a := fun a ha =>
      law.written_eq a fun t ht => whole t (List.mem_flatMap.2 ⟨a, ha, ht⟩)
    rw [List.map_congr_left same, List.map_id]

/-! A list that is left out when it is empty. -/

section Lists

variable {w : WireForm α} {written : α → α} (law : w.Lawful written)
include law

/-- A list that is left out when it is empty reads as it was written. -/
theorem Lawful.readDefaulted_givenList {l : List α} (fits : ∀ a ∈ l, w.Fits a)
    (covers : ∀ a ∈ l, w.Covers a) (years : ∀ t ∈ w.list.times l, t.InYears) :
    Json.Members.readDefaulted (Json.list? w.decode) []
      (if l = [] then [] else [Json.ofList w.encode l]) = some (l.map written) :=
  Json.Members.readDefaulted_givenList (law.list.reads l fits covers years)

/-- What is read for a list of values fits, also where none are given. -/
theorem Lawful.fits_of_defaulted {ms : Json.Members} {name : String} {l : List α}
    (h : ms.defaulted name (Json.list? w.decode) [] = some l) : ∀ a ∈ l, w.Fits a :=
  Json.Members.forall_of_defaulted law.list.fits (fun _ ha => absurd ha List.not_mem_nil) h

/-- Cutting off fractions leaves what is written for a list. -/
theorem Lawful.givenList_written (name : String) (l : List α) :
    Json.givenList name w.encode (l.map written) = Json.givenList name w.encode l := by
  cases l with
  | nil => rfl
  | cons a l =>
    have whole : Json.ofList w.encode ((a :: l).map written) = Json.ofList w.encode (a :: l) :=
      law.list.encode_written (a :: l)
    simp only [Json.givenList, List.map_cons] at whole ⊢
    rw [whole]

end Lists
end WireForm

/-! ### Conditions -/

namespace StoredCondition

/-- The generation and the time are ones their fields can hold. -/
structure Fits (c : StoredCondition) : Prop where
  generation : ∀ n ∈ c.generation, Json.IsInt64 n
  lastTransition : c.lastTransition.IsTime

/-- How stored conditions go over the wire. -/
def form : WireForm StoredCondition where
  decode := ofJson?
  encode := toJson
  Fits := Fits
  times c := [c.lastTransition]

/-- Conditions read as they were written, in whatever zone their time was given before. -/
theorem form_lawful : form.Lawful written where
  reads c fits _ years :=
    ofJson?_toJson
      { time := ⟨years c.lastTransition List.mem_cons_self, fits.lastTransition⟩
        generation := fits.generation }
  fits j c h := by
    simp only [form, ofJson?, time?, Option.bind_eq_bind, Option.bind_eq_some_iff,
      Option.some.injEq] at h
    obtain ⟨_, -, _, -, _, -, _, -, _, -, time, ⟨times, htimes, hlast⟩, generation, hgeneration,
      rfl⟩ := h
    exact
      { generation := Json.Members.forall_mem_of_last Json.exact_int64.fits hgeneration
        lastTransition := Json.forall_mem_of_mapM Instant.isTime_of_ofJson? htimes _
          (List.mem_of_getLast? hlast) }
  notNull c := by simp [form, toJson]
  encode_written c := by simp [form, toJson, written, Instant.toJson_truncated]
  written_eq c whole := by
    have time : c.lastTransition.truncated = c.lastTransition := whole _ List.mem_cons_self
    rw [written, time]

end StoredCondition

/-! ### Entries -/

/-- References to parents are read and written without loss. -/
theorem ParentReference.exact : Json.Exact ofJson? toJson Writable where
  reads p h := ofJson?_toJson h
  fits j p h := by
    simp only [ofJson?, Option.bind_eq_bind, Option.bind_eq_some_iff, Option.some.injEq] at h
    obtain ⟨_, -, _, -, _, -, _, -, _, -, _, -, port, hport, rfl⟩ := h
    exact Json.exact_word16.fits_optional hport
  notNull p := by simp [toJson]

namespace AncestorStatus

/-- The port and the conditions are ones their fields can hold. -/
structure Fits (a : AncestorStatus) : Prop where
  ancestorRef : a.ancestorRef.Writable
  conditions : ∀ c ∈ a.conditions, c.Fits

/-- How entries go over the wire. -/
def form : WireForm AncestorStatus where
  decode := ofJson?
  encode := toJson
  Fits := Fits
  times a := StoredCondition.form.list.times a.conditions

/-- Entries read as they were written, as their conditions do. -/
theorem form_lawful : form.Lawful written where
  reads a fits _ years := by
    have conditions := StoredCondition.form_lawful.readDefaulted_givenList fits.conditions
      (fun _ _ => trivial) years
    rw [StoredCondition.form] at conditions
    simp [form, toJson, ofJson?, Json.members?, defaulted_eq, Json.Members.required,
      Json.Members.once?, ParentReference.exact.reads _ fits.ancestorRef, Json.string?, written,
      conditions]
  fits j a h := by
    simp only [form, ofJson?, Option.bind_eq_bind, Option.bind_eq_some_iff, Option.some.injEq] at h
    obtain ⟨_, -, ref, href, _, -, conditions, hconditions, rfl⟩ := h
    exact
      { ancestorRef := ParentReference.exact.fits_required href
        conditions := StoredCondition.form_lawful.fits_of_defaulted hconditions }
  notNull a := by simp [form, toJson]
  encode_written a := by
    have conditions := StoredCondition.form_lawful.givenList_written "conditions" a.conditions
    simp only [form, toJson, written, StoredCondition.form] at conditions ⊢
    rw [conditions]
  written_eq a whole := by
    rw [written, StoredCondition.form_lawful.list.written_eq a.conditions whole]

end AncestorStatus

/-! ### Statuses -/

namespace StatusByAncestor

/-- Every entry is one that can be written. -/
structure Fits (s : StatusByAncestor) : Prop where
  ancestors : ∀ a ∈ s.ancestors, a.Fits

/-- How statuses with entries go over the wire. -/
def form : WireForm StatusByAncestor where
  decode := ofJson?
  encode := toJson
  Fits := Fits
  times s := AncestorStatus.form.list.times s.ancestors

/-- The status without the fractions of its times. -/
def written (s : StatusByAncestor) : StatusByAncestor := ⟨s.ancestors.map AncestorStatus.written⟩

/-- Statuses with entries read as they were written. -/
theorem form_lawful : form.Lawful written where
  reads s fits _ years := by
    have ancestors := AncestorStatus.form_lawful.list.reads s.ancestors fits.ancestors
      (fun _ _ => trivial) years
    simp only [WireForm.list, AncestorStatus.form] at ancestors
    simp [form, toJson, ofJson?, Json.members?, Json.Members.defaulted, Json.Members.once?, ancestors,
      written]
  fits j s h := by
    simp only [form, ofJson?, Option.bind_eq_bind, Option.bind_eq_some_iff, Option.some.injEq] at h
    obtain ⟨_, -, ancestors, hancestors, rfl⟩ := h
    exact ⟨AncestorStatus.form_lawful.fits_of_defaulted hancestors⟩
  notNull s := by simp [form, toJson]
  encode_written s := by
    have ancestors := AncestorStatus.form_lawful.list.encode_written s.ancestors
    simp only [form, toJson, written, WireForm.list, AncestorStatus.form] at ancestors ⊢
    rw [ancestors]
  written_eq s whole := by
    rw [written, AncestorStatus.form_lawful.list.written_eq s.ancestors whole]

end StatusByAncestor

namespace StatusAsWhole

/-- Every condition is one that can be written. -/
structure Fits (s : StatusAsWhole) : Prop where
  conditions : ∀ c ∈ s.conditions, c.Fits

/-- How statuses with conditions go over the wire. -/
def form : WireForm StatusAsWhole where
  decode := ofJson?
  encode := toJson
  Fits := Fits
  times s := StoredCondition.form.list.times s.conditions

/-- The status without the fractions of its times. -/
def written (s : StatusAsWhole) : StatusAsWhole := ⟨s.conditions.map StoredCondition.written⟩

/-- Statuses with conditions read as they were written. -/
theorem form_lawful : form.Lawful written where
  reads s fits _ years := by
    have conditions := StoredCondition.form_lawful.readDefaulted_givenList fits.conditions
      (fun _ _ => trivial) years
    rw [StoredCondition.form] at conditions
    simp [form, toJson, ofJson?, Json.members?, defaulted_eq, conditions, written]
  fits j s h := by
    simp only [form, ofJson?, Option.bind_eq_bind, Option.bind_eq_some_iff, Option.some.injEq] at h
    obtain ⟨_, -, conditions, hconditions, rfl⟩ := h
    exact ⟨StoredCondition.form_lawful.fits_of_defaulted hconditions⟩
  notNull s := by simp [form, toJson]
  encode_written s := by
    have conditions := StoredCondition.form_lawful.givenList_written "conditions" s.conditions
    simp only [form, toJson, written, StoredCondition.form] at conditions ⊢
    rw [conditions]
  written_eq s whole := by
    rw [written, StoredCondition.form_lawful.list.written_eq s.conditions whole]

end StatusAsWhole

namespace StatusBothWays

/-- Every entry and every condition is one that can be written. -/
structure Fits (s : StatusBothWays) : Prop where
  ancestors : ∀ a ∈ s.ancestors, a.Fits
  conditions : ∀ c ∈ s.conditions, c.Fits

/-- How statuses with both go over the wire. -/
def form : WireForm StatusBothWays where
  decode := ofJson?
  encode := toJson
  Fits := Fits
  times s := AncestorStatus.form.list.times s.ancestors ++ StoredCondition.form.list.times s.conditions

/-- The status without the fractions of its times. -/
def written (s : StatusBothWays) : StatusBothWays :=
  ⟨s.ancestors.map AncestorStatus.written, s.conditions.map StoredCondition.written⟩

/-- Statuses with both read as they were written. -/
theorem form_lawful : form.Lawful written where
  reads s fits _ years := by
    obtain ⟨inAncestors, inConditions⟩ := List.forall_mem_append.1 years
    have ancestors := AncestorStatus.form_lawful.readDefaulted_givenList fits.ancestors
      (fun _ _ => trivial) inAncestors
    have conditions := StoredCondition.form_lawful.readDefaulted_givenList fits.conditions
      (fun _ _ => trivial) inConditions
    rw [AncestorStatus.form] at ancestors
    rw [StoredCondition.form] at conditions
    simp [form, toJson, ofJson?, Json.members?, defaulted_eq, ancestors, conditions, written]
  fits j s h := by
    simp only [form, ofJson?, Option.bind_eq_bind, Option.bind_eq_some_iff, Option.some.injEq] at h
    obtain ⟨_, -, ancestors, hancestors, conditions, hconditions, rfl⟩ := h
    exact
      { ancestors := AncestorStatus.form_lawful.fits_of_defaulted hancestors
        conditions := StoredCondition.form_lawful.fits_of_defaulted hconditions }
  notNull s := by simp [form, toJson]
  encode_written s := by
    have ancestors := AncestorStatus.form_lawful.givenList_written "ancestors" s.ancestors
    have conditions := StoredCondition.form_lawful.givenList_written "conditions" s.conditions
    simp only [form, toJson, written, AncestorStatus.form, StoredCondition.form]
      at ancestors conditions ⊢
    rw [ancestors, conditions]
  written_eq s whole := by
    obtain ⟨inAncestors, inConditions⟩ := List.forall_mem_append.1 whole
    rw [written, AncestorStatus.form_lawful.list.written_eq s.ancestors inAncestors,
      StoredCondition.form_lawful.list.written_eq s.conditions inConditions]

end StatusBothWays
end PolicyAttachment
