import PolicyAttachment.Json.Decode

/-!
# Reading back the members that were written

An object is written member by member and read member by member. The values that are given for a name
are read off the way the members were put together, so each member is dealt with by itself, and an
object by its members.

A type of values is `Json.Exact` when what is written for a value that fits its fields reads as that
value, and nothing else is ever read.
-/

namespace PolicyAttachment.Json
set_option autoImplicit false

section Read

variable {α β : Type} {decode : Json → Option α} {encode : β → Json} {P : α → Prop}

/-- A list reads as its items do. -/
theorem list?_ofList {l : List β} {f : β → α} (h : ∀ b ∈ l, decode (encode b) = some (f b)) :
    list? decode (ofList encode l) = some (l.map f) := by
  simp only [list?, ofList, items?, Option.bind_eq_bind, Option.bind_some]
  induction l with
  | nil => rfl
  | cons b l ih =>
    rw [List.map_cons, List.mapM_cons, h b List.mem_cons_self,
      ih fun c hc => h c (List.mem_cons_of_mem b hc)]
    rfl

/-- Every item of a list that is read is read. -/
theorem map_eq_of_mapM {items : List Json} {l : List α} (h : items.mapM decode = some l) :
    items.map decode = l.map some := by
  induction items generalizing l with
  | nil =>
    cases h
    rfl
  | cons item items ih =>
    simp only [List.mapM_cons, Option.bind_eq_bind, Option.bind_eq_some_iff] at h
    obtain ⟨a, ha, rest, hrest, heq⟩ := h
    cases heq
    rw [List.map_cons, List.map_cons, ha, ih hrest]

/-- What is read of some items is what one of them reads as. -/
theorem mem_of_mapM {items : List Json} {l : List α} (h : items.mapM decode = some l) {a : α} :
    a ∈ l ↔ ∃ item ∈ items, decode item = some a := by
  rw [← List.mem_map, map_eq_of_mapM h]
  simp only [List.mem_map, Option.some.injEq, exists_eq_right]

theorem exists_of_mapM {items : List Json} {l : List α} (h : items.mapM decode = some l) {item : Json}
    (hitem : item ∈ items) : ∃ a ∈ l, decode item = some a := by
  have read : decode item ∈ l.map some := map_eq_of_mapM h ▸ List.mem_map_of_mem hitem
  obtain ⟨a, ha, same⟩ := List.mem_map.1 read
  exact ⟨a, ha, same.symm⟩

/-- What holds of all that is read holds of each item of a list that is read. -/
theorem forall_mem_of_mapM (h : ∀ j a, decode j = some a → P a) {items : List Json} {l : List α}
    (hl : items.mapM decode = some l) : ∀ a ∈ l, P a := by
  intro a ha
  obtain ⟨item, -, read⟩ := (mem_of_mapM hl).1 ha
  exact h item a read

/-- A value that is read again, where none is written as `null`. -/
theorem nullable?_ofOption {o : Option β} {f : β → α} (notNull : ∀ b, encode b ≠ .null)
    (h : ∀ b, o = some b → decode (encode b) = some (f b)) :
    nullable? decode (ofOption encode o) = some (o.map f) := by
  cases o with
  | none => rfl
  | some b =>
    have read : nullable? decode (encode b) = (decode (encode b)).map some := by
      unfold nullable?
      split
      · rename_i heq
        exact absurd heq (notNull b)
      · rfl
    rw [ofOption, read, h b rfl]
    rfl

/-- What holds of all that is read holds of a value that is read where it may be `null`. -/
theorem forall_mem_of_nullable? (h : ∀ j a, decode j = some a → P a) (j : Json) (o : Option α)
    (ho : nullable? decode j = some o) : ∀ a ∈ o, P a := by
  unfold nullable? at ho
  split at ho
  · cases ho
    exact fun a ha => nomatch ha
  · obtain ⟨b, hb, rfl⟩ := Option.map_eq_some_iff.1 ho
    intro a ha
    cases ha
    exact h j b hb

theorem int64?_int {n : Int} (h : Int64.minValue.toInt ≤ n ∧ n ≤ Int64.maxValue.toInt) :
    int64? (.int n) = some n := if_pos h

theorem word16?_int {n : Nat} (h : n < UInt16.size) : word16? (.int n) = some n := by
  have inRange : (0 : Int) ≤ n ∧ (n : Int) ≤ (UInt16.size : Int) - 1 := by omega
  simp only [word16?, natBelow?, intIn?]
  rw [if_pos inRange]
  rfl

end Read

/-! ### Members by the values that are given for their names -/

namespace Members

variable {α β : Type} {decode : Json → Option α} {encode : β → Json} {name : String}

@[simp] theorem valuesOf_nil : valuesOf [] name = [] := rfl

@[simp] theorem valuesOf_cons (other : String) (j : Json) (ms : Members) :
    valuesOf ((other, j) :: ms) name =
      if other = name then j :: valuesOf ms name else valuesOf ms name := by
  by_cases h : other = name <;> simp [valuesOf, h]

@[simp] theorem valuesOf_append (ms ms' : Members) :
    valuesOf (ms ++ ms') name = valuesOf ms name ++ valuesOf ms' name := by
  simp [valuesOf]

/-- A member that is given has one value, under its own name. -/
@[simp] theorem valuesOf_given (other : String) (encode : α → Json) (o : Option α) :
    valuesOf (given other encode o) name = if other = name then (o.map encode).toList else [] := by
  cases o <;> simp [given]

@[simp] theorem valuesOf_givenList (other : String) (encode : α → Json) (l : List α) :
    valuesOf (givenList other encode l) name =
      if other = name then if l = [] then [] else [ofList encode l] else [] := by
  cases l <;> simp [givenList]

/-- What the values given for an optional member read as. -/
def readOptional (decode : Json → Option α) : List Json → Option (Option α)
  | [] => some none
  | [j] => nullable? decode j
  | _ => none

/-- An optional member goes by the values under its name. -/
theorem optional_eq (ms : Members) (name : String) (decode : Json → Option α) :
    ms.optional name decode = readOptional decode (ms.valuesOf name) := by
  unfold optional once?
  split <;> simp_all [readOptional]

/-- A value that is left out when there is none. -/
theorem readOptional_given {o : Option β} {f : β → α} (notNull : ∀ b, encode b ≠ .null)
    (h : ∀ b, o = some b → decode (encode b) = some (f b)) :
    readOptional decode (o.map encode).toList = some (o.map f) := by
  cases o with
  | none => rfl
  | some b => exact nullable?_ofOption notNull h

/-- What holds of everything that is decoded holds of an optional member. -/
theorem forall_mem_of_optional {P : α → Prop} (h : ∀ j a, decode j = some a → P a) {ms : Members}
    {name : String} {o : Option α} (ho : ms.optional name decode = some o) : ∀ a ∈ o, P a := by
  rw [optional_eq] at ho
  unfold readOptional at ho
  split at ho
  · cases ho
    exact fun a ha => nomatch ha
  · exact forall_mem_of_nullable? h _ o ho
  · nomatch ho

/-- What holds of everything that is decoded holds of a required member. -/
theorem forall_of_required {P : α → Prop} (h : ∀ j a, decode j = some a → P a) {ms : Members}
    {name : String} {a : α} (ha : ms.required name decode = some a) : P a := by
  obtain ⟨o, -, ha⟩ := Option.bind_eq_some_iff.1 ha
  obtain ⟨j, -, ha⟩ := Option.bind_eq_some_iff.1 ha
  exact h j a ha

/-- What the values given for a defaulted member read as. -/
def readDefaulted (decode : Json → Option α) (default : α) : List Json → Option α
  | [] => some default
  | [j] => decode j
  | _ => none

/-- A defaulted member goes by the values under its name. -/
theorem defaulted_eq (ms : Members) (name : String) (decode : Json → Option α) (default : α) :
    ms.defaulted name decode default = readDefaulted decode default (ms.valuesOf name) := by
  unfold defaulted once?
  split <;> simp_all [readDefaulted]

/-- A list that is left out when it is empty. -/
theorem readDefaulted_givenList {l : List β} {f : β → α}
    (h : list? decode (ofList encode l) = some (l.map f)) :
    readDefaulted (list? decode) [] (if l = [] then [] else [ofList encode l]) = some (l.map f) := by
  split
  · rename_i empty
    rw [empty]
    rfl
  · exact h

theorem forall_of_defaulted {P : α → Prop} {default : α} (h : ∀ j a, decode j = some a → P a)
    (hd : P default) {ms : Members} {name : String} {a : α}
    (ha : ms.defaulted name decode default = some a) : P a := by
  rw [defaulted_eq] at ha
  unfold readDefaulted at ha
  split at ha
  · cases ha
    exact hd
  · exact h _ a ha
  · nomatch ha

/-- What the values given for a member read as whose last value counts. -/
def readLast (decode : Json → Option α) (values : List Json) : Option (Option α) :=
  (values.mapM (nullable? decode)).map fun l => l.getLast?.join

/-- A member of which the last value counts goes by the values under its name. -/
theorem last_eq (ms : Members) (name : String) (decode : Json → Option α) :
    ms.last name decode = readLast decode (ms.valuesOf name) := by
  unfold last readLast
  cases (ms.valuesOf name).mapM (nullable? decode) <;> rfl

/-- A value of a member whose last value counts. -/
theorem forall_mem_of_last {P : α → Prop} (h : ∀ j a, decode j = some a → P a) {ms : Members}
    {name : String} {o : Option α} (ho : ms.last name decode = some o) : ∀ a ∈ o, P a := by
  rw [last_eq] at ho
  obtain ⟨read, hread, rfl⟩ := Option.map_eq_some_iff.1 ho
  intro a ha
  obtain ⟨o, hlast, rfl⟩ : ∃ o, read.getLast? = some o ∧ o = some a := by
    simpa [Option.join_eq_some_iff] using ha
  exact forall_mem_of_mapM (forall_mem_of_nullable? h) hread _ (List.mem_of_getLast? hlast) a rfl

/-- A value that is left out when there is none. -/
theorem readLast_given {o : Option β} {f : β → α} (notNull : ∀ b, encode b ≠ .null)
    (h : ∀ b, o = some b → decode (encode b) = some (f b)) :
    readLast decode (o.map encode).toList = some (o.map f) := by
  cases o with
  | none => rfl
  | some b =>
    have read := nullable?_ofOption notNull h
    rw [ofOption] at read
    simp [readLast, read]

end Members

/-! ### Types whose values read as themselves -/

/-- What is written for a value that fits reads as that value, and what is read always fits. -/
structure Exact {α : Type} (decode : Json → Option α) (encode : α → Json) (Fits : α → Prop) :
    Prop where
  reads : ∀ a, Fits a → decode (encode a) = some a
  fits : ∀ j a, decode j = some a → Fits a
  notNull : ∀ a, encode a ≠ .null

section Exact

variable {α : Type} {decode : Json → Option α} {encode : α → Json} {Fits : α → Prop}

/-- An optional value that is written as `null` when it is missing is read and written without loss.
-/
theorem Exact.readOptional_ofOption (e : Exact decode encode Fits) {o : Option α}
    (h : ∀ a ∈ o, Fits a) : Members.readOptional decode [ofOption encode o] = some o := by
  have read := nullable?_ofOption (f := id) e.notNull fun a ha => e.reads a (h a ha)
  rwa [Option.map_id, id_eq] at read

/-- An optional value that is left out when it is missing is read and written without loss. -/
theorem Exact.readOptional_given (e : Exact decode encode Fits) {o : Option α}
    (h : ∀ a ∈ o, Fits a) : Members.readOptional decode (o.map encode).toList = some o := by
  have read := Members.readOptional_given (f := id) e.notNull fun a ha => e.reads a (h a ha)
  rwa [Option.map_id, id_eq] at read

/-- An optional value that is read fits. -/
theorem Exact.fits_optional (e : Exact decode encode Fits) {ms : Members} {name : String}
    {o : Option α} (h : ms.optional name decode = some o) : ∀ a ∈ o, Fits a :=
  Members.forall_mem_of_optional e.fits h

theorem Exact.fits_required (e : Exact decode encode Fits) {ms : Members} {name : String} {a : α}
    (h : ms.required name decode = some a) : Fits a :=
  Members.forall_of_required e.fits h

/-- Lists of what is exact are exact. -/
theorem Exact.list (e : Exact decode encode Fits) :
    Exact (list? decode) (ofList encode) fun l => ∀ a ∈ l, Fits a where
  reads l h := by
    rw [list?_ofList (f := id) fun a ha => e.reads a (h a ha), List.map_id]
  fits j l h := by
    obtain ⟨items, -, h⟩ := Option.bind_eq_some_iff.1 h
    exact forall_mem_of_mapM e.fits h
  notNull l := by simp [ofList]

/-- A number within some bounds is read and written without loss. -/
theorem exact_intIn (low high : Int) :
    Exact (intIn? low high) .int fun n => low ≤ n ∧ n ≤ high where
  reads n h := if_pos h
  fits j n h := by
    cases j with
    | int m =>
      simp only [intIn?] at h
      split at h
      · cases h
        assumption
      · nomatch h
    | _ => nomatch h
  notNull n := by simp

/-- The numbers of a field with 64 bits. -/
def IsInt64 (n : Int) : Prop := Int64.minValue.toInt ≤ n ∧ n ≤ Int64.maxValue.toInt

/-- The numbers of a field with 32 bits. -/
def IsInt32 (n : Int) : Prop := Int32.minValue.toInt ≤ n ∧ n ≤ Int32.maxValue.toInt

theorem exact_int64 : Exact int64? .int IsInt64 := exact_intIn _ _

theorem exact_int32 : Exact int32? .int IsInt32 := exact_intIn _ _

theorem exact_word16 : Exact word16? (fun n : Nat => .int n) (· < UInt16.size) where
  reads n h := word16?_int h
  fits j n h := by
    obtain ⟨m, hm, rfl⟩ := Option.map_eq_some_iff.1 h
    have bounds := (exact_intIn 0 (UInt16.size - 1)).fits j m hm
    omega
  notNull n := by simp

/-- A text is read and written without loss. -/
theorem exact_string : Exact string? .str fun _ => True where
  reads s _ := rfl
  fits _ _ _ := trivial
  notNull s := by simp

theorem exact_bool : Exact bool? .bool fun _ => True where
  reads b _ := rfl
  fits _ _ _ := trivial
  notNull b := by simp

/-- A text that may be `null`. -/
@[simp] theorem readOptional_text (o : Option String) :
    Members.readOptional string? [ofOption .str o] = some o :=
  exact_string.readOptional_ofOption fun _ _ => trivial

/-- A text that may be left out. -/
@[simp] theorem readOptional_givenText (o : Option String) :
    Members.readOptional string? (o.map .str).toList = some o :=
  exact_string.readOptional_given fun _ _ => trivial

/-- A flag that may be `null`. -/
@[simp] theorem readOptional_flag (o : Option Bool) :
    Members.readOptional bool? [ofOption .bool o] = some o :=
  exact_bool.readOptional_ofOption fun _ _ => trivial

end Exact
end PolicyAttachment.Json
