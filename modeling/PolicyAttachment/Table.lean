/-!
# Tables

A finite table from keys to values that remembers the order in which its keys came in. A key occurs
once: setting it again replaces its value in place. Everything a table holds is seen through `get?`;
`mem_entries_iff` says that the entries in order are no more than that.
-/

namespace PolicyAttachment
set_option autoImplicit false

/-- Entries with distinct keys, in the order in which the keys came in. -/
structure Table (κ : Type) (ν : Type) where
  entries : List (κ × ν)
  nodup : (entries.map Prod.fst).Nodup
deriving Repr

namespace Table

variable {κ ν μ : Type}

theorem ext_entries {a b : Table κ ν} (h : a.entries = b.entries) : a = b := by
  cases a
  cases b
  cases h
  rfl

def empty : Table κ ν := ⟨[], .nil⟩

instance : Inhabited (Table κ ν) := ⟨empty⟩

def keys (t : Table κ ν) : List κ := t.entries.map Prod.fst

def values (t : Table κ ν) : List ν := t.entries.map Prod.snd

def isEmpty (t : Table κ ν) : Bool := t.entries.isEmpty

/-- Changes every value, knowing its key. -/
def mapValues (f : κ → ν → μ) (t : Table κ ν) : Table κ μ :=
  ⟨t.entries.map fun e => (e.1, f e.1 e.2), by
    have h : (Prod.fst ∘ fun e : κ × ν => (e.1, f e.1 e.2)) = Prod.fst := rfl
    rw [List.map_map, h]
    exact t.nodup⟩

/-- Keeps the entries that `p` accepts. -/
def filter (p : κ → ν → Bool) (t : Table κ ν) : Table κ ν :=
  ⟨t.entries.filter fun e => p e.1 e.2,
    (List.filter_sublist.map Prod.fst).nodup t.nodup⟩

variable [DecidableEq κ]

def get? (t : Table κ ν) (key : κ) : Option ν := t.entries.lookup key

def contains (t : Table κ ν) (key : κ) : Bool := (t.get? key).isSome

/-- Sets `key`, in place if it is there and at the end if it is not. -/
def insert (t : Table κ ν) (key : κ) (value : ν) : Table κ ν :=
  if h : key ∈ t.keys then
    t.mapValues fun k v => if k = key then value else v
  else
    ⟨t.entries ++ [(key, value)], by
      rw [List.map_append, List.nodup_append]
      refine ⟨t.nodup, by simp, ?_⟩
      intro a ha b hb
      simp only [List.map_cons, List.map_nil, List.mem_singleton] at hb
      exact fun hab => h (hb ▸ hab ▸ ha)⟩

def erase (t : Table κ ν) (key : κ) : Table κ ν :=
  t.filter fun k _ => k != key

/-- Where no key occurs twice, looking up is membership. -/
theorem lookup_eq_some_iff {es : List (κ × ν)} (h : (es.map Prod.fst).Nodup) {key : κ}
    {value : ν} : es.lookup key = some value ↔ (key, value) ∈ es := by
  induction es with
  | nil => simp
  | cons e es ih =>
    obtain ⟨k, v⟩ := e
    rw [List.map_cons, List.nodup_cons] at h
    by_cases hk : key = k
    · subst hk
      simp only [List.lookup_cons, beq_self_eq_true, Option.some.injEq, List.mem_cons,
        Prod.mk.injEq, true_and]
      constructor
      · intro hv
        exact .inl hv.symm
      · rintro (hv | hmem)
        · exact hv.symm
        · exact absurd (List.mem_map_of_mem (f := Prod.fst) hmem) h.1
    · simp [List.lookup_cons, beq_eq_false_iff_ne.2 hk, hk, ih h.2]

/-- An entry is there exactly when its key has its value. -/
theorem mem_entries_iff {t : Table κ ν} {key : κ} {value : ν} :
    (key, value) ∈ t.entries ↔ t.get? key = some value :=
  (lookup_eq_some_iff t.nodup).symm

theorem mem_keys_iff {t : Table κ ν} {key : κ} : key ∈ t.keys ↔ (t.get? key).isSome := by
  rw [keys, List.mem_map, Option.isSome_iff_exists]
  constructor
  · rintro ⟨⟨k, v⟩, hmem, rfl⟩
    exact ⟨v, mem_entries_iff.1 hmem⟩
  · rintro ⟨v, hv⟩
    exact ⟨(key, v), mem_entries_iff.2 hv, rfl⟩

theorem contains_of_bind {f : ν → Option μ} {t : Table κ ν} {key : κ} {value : μ}
    (h : (t.get? key).bind f = some value) : t.contains key = true := by
  obtain ⟨found, hfound, -⟩ := Option.bind_eq_some_iff.1 h
  rw [contains, hfound, Option.isSome_some]

@[simp] theorem get?_empty (key : κ) : (empty : Table κ ν).get? key = none := rfl

theorem get?_mapValues (f : κ → ν → μ) (t : Table κ ν) (key : κ) :
    (t.mapValues f).get? key = (t.get? key).map (f key) := by
  simp only [get?, mapValues]
  induction t.entries with
  | nil => rfl
  | cons e es ih =>
    obtain ⟨k, v⟩ := e
    by_cases h : key = k
    · subst h
      simp
    · simp [List.lookup_cons, beq_eq_false_iff_ne.2 h, ih]

theorem get?_filter (p : κ → ν → Bool) (t : Table κ ν) (key : κ) :
    (t.filter p).get? key = (t.get? key).filter (p key) := by
  apply Option.ext
  intro value
  rw [← mem_entries_iff, Option.filter_eq_some_iff, ← mem_entries_iff, filter, List.mem_filter]

theorem get?_insert (t : Table κ ν) (key : κ) (value : ν) (other : κ) :
    (t.insert key value).get? other = if other = key then some value else t.get? other := by
  unfold insert
  split
  · rename_i h
    rw [get?_mapValues]
    by_cases ho : other = key
    · subst ho
      obtain ⟨v, hv⟩ := Option.isSome_iff_exists.1 (mem_keys_iff.1 h)
      simp [hv]
    · simp [ho]
  · rename_i h
    have hk : t.get? key = none := by
      cases hg : t.get? key with
      | none => rfl
      | some v => exact absurd (mem_keys_iff.2 (by simp [hg])) h
    simp only [get?] at hk ⊢
    rw [List.lookup_append]
    by_cases ho : other = key
    · subst ho
      simp [hk]
    · simp [List.lookup_cons, beq_eq_false_iff_ne.2 ho, ho]

theorem get?_erase (t : Table κ ν) (key other : κ) :
    (t.erase key).get? other = if other = key then none else t.get? other := by
  rw [erase, get?_filter]
  by_cases h : other = key <;> cases t.get? other <;> simp [h]

end Table
end PolicyAttachment
