import PolicyAttachment.Proofs.Tracker.Conditions
import PolicyAttachment.Proofs.Tracker.Reorder

/-!
# Who wins a contest

The order of precedence is a strict order on contenders with ids of their own: by creation time, those
without one last, then by namespace and name. `Contest.Decides` says what a contest comes to in terms of
that order alone: the least of the valid contenders wins if the target exists, and what becomes of a
contender depends on who won and on nothing else. So a contender that is invalid, or comes after the
winner, may come and go without a change for the others: `Contest.ofContenders_decides`.
-/

namespace PolicyAttachment
set_option autoImplicit false

namespace Instant

theorem eq_of_compare {a b : Instant} (h : compare a b = .eq) : a = b := by
  obtain ⟨second, nanosecond⟩ := a
  obtain ⟨second', nanosecond'⟩ := b
  obtain ⟨hsecond, hnanosecond⟩ := compareLex_eq_eq.1 h
  obtain rfl : second = second' := Std.LawfulEqCmp.eq_of_compare hsecond
  obtain rfl : nanosecond = nanosecond' := Std.LawfulEqCmp.eq_of_compare hnanosecond
  rfl

instance : Std.LawfulEqOrd Instant where
  eq_of_compare := eq_of_compare

end Instant

theorem compare_text_eq_lt {s t : String} : compare s t = .lt ↔ s < t := compareOfLessAndEq_eq_lt

namespace PolicyId

/-- The policy is in an earlier namespace, or in the same under an earlier name. -/
def Precedes (a b : PolicyId) : Prop := a.ns < b.ns ∨ a.ns = b.ns ∧ a.name < b.name

instance (a b : PolicyId) : Decidable (a.Precedes b) :=
  inferInstanceAs (Decidable (a.ns < b.ns ∨ a.ns = b.ns ∧ a.name < b.name))

theorem compare_eq_lt {a b : PolicyId} : compare a b = .lt ↔ a.Precedes b := by
  have lexicographic : compare a b = (compare a.ns b.ns).then (compare a.name b.name) := rfl
  rw [lexicographic, Ordering.then_eq_lt, compare_text_eq_lt, Std.LawfulEqCmp.compare_eq_iff_eq,
    compare_text_eq_lt, Precedes]

end PolicyId

namespace Contender

/-- The contender was created earlier, where one without a time comes after all that have one, or at the
same time, and its id precedes the other's. -/
def Precedes (c d : Contender) : Prop :=
  match c.created, d.created with
  | some a, some b => a.before b = true ∨ a = b ∧ c.id.Precedes d.id
  | some _, none => True
  | none, some _ => False
  | none, none => c.id.Precedes d.id

/-- The order that contenders are ranked by is `Precedes`. -/
theorem precedence_eq_lt {c d : Contender} : c.precedence d = .lt ↔ c.Precedes d := by
  obtain ⟨id, created, invalid⟩ := c
  obtain ⟨id', created', invalid'⟩ := d
  have lexicographic : precedence ⟨id, created, invalid⟩ ⟨id', created', invalid'⟩ =
      (compare created.isNone created'.isNone).then
        ((compare created created').then (compare id id')) := rfl
  rw [lexicographic, Precedes, Ordering.then_eq_lt, Ordering.then_eq_lt, PolicyId.compare_eq_lt]
  cases created with
  | none =>
    cases created' with
    | none => simp
    | some b => simp
  | some a =>
    cases created' with
    | none =>
      have earlier : compare false true = .lt := rfl
      simp [earlier]
    | some b =>
      have times : compare (some a) (some b) = compare a b := rfl
      simp [times, Instant.before, Ordering.isLT_iff_eq_lt]

instance (c d : Contender) : Decidable (c.Precedes d) :=
  decidable_of_iff (c.precedence d = .lt) precedence_eq_lt

/-- No two contenders come before each other. -/
theorem Precedes.asymm {c d : Contender} (h : c.Precedes d) : ¬ d.Precedes c := by
  rw [← precedence_eq_lt, ← Std.OrientedCmp.gt_iff_lt, precedence_eq_lt.2 h]
  exact nofun

theorem Precedes.ne {c d : Contender} (h : c.Precedes d) : c ≠ d := by
  rintro rfl
  exact h.asymm h

theorem isValid_iff {c : Contender} : c.isValid = true ↔ c.invalid = none :=
  Option.isNone_iff_eq_none

end Contender

namespace Contest

/-- The valid contenders in order of precedence. -/
def validRanked (cs : List Contender) : List Contender :=
  (cs.filter Contender.isValid).mergeSort fun a b => (a.precedence b).isLE

/-- The invalid contenders by id. -/
def invalidRanked (cs : List Contender) : List Contender :=
  (cs.filter fun c => !c.isValid).mergeSort fun a b => (compare a.id b.id).isLE

/-- What becomes of any contender, given who won. -/
def verdict (winner : Option PolicyId) (c : Contender) : Attachment :=
  match c.invalid with
  | none => outcome winner c
  | some why => .invalid why

/-- `c` is the contender that no valid one of `cs` comes before. -/
structure Least (cs : List Contender) (c : Contender) : Prop where
  mem : c ∈ cs
  valid : c.invalid = none
  first : ∀ d ∈ cs, d.invalid = none → d ≠ c → c.Precedes d

/-- What a contest among `cs` comes to, `there` telling whether the target exists. -/
structure Decides (there : Bool) (cs : List Contender) (contest : Contest) : Prop where
  /-- Every contender is listed once. -/
  once : (contest.attachments.map Prod.fst).Perm (cs.map Contender.id)
  /-- Someone wins exactly if the target exists and there is a valid contender. -/
  won_iff : (∃ w, contest.winner = some w) ↔ there = true ∧ ∃ c ∈ cs, c.invalid = none
  winner_iff : ∀ w, contest.winner = some w ↔ there = true ∧ ∃ c, Least cs c ∧ c.id = w
  attached_iff : ∀ id, contest.get? id = some .attached ↔ contest.winner = some id
  conflicted : ∀ w, contest.winner = some w → ∀ c ∈ cs, c.invalid = none → c.id ≠ w →
    contest.get? c.id = some (.conflicted w)
  targetNotFound : there = false → ∀ c ∈ cs, c.invalid = none →
    contest.get? c.id = some .targetNotFound
  invalid : ∀ c ∈ cs, ∀ why, c.invalid = some why → contest.get? c.id = some (.invalid why)
  /-- The valid ones come first, in order of precedence, and then the others by id. -/
  ranked : ∃ valid rest : List Contender,
    contest.attachments.map Prod.fst = (valid ++ rest).map Contender.id ∧
    (∀ c, c ∈ valid ↔ c ∈ cs ∧ c.invalid = none) ∧
    (∀ c, c ∈ rest ↔ c ∈ cs ∧ c.invalid ≠ none) ∧
    valid.Pairwise Contender.Precedes ∧ rest.Pairwise fun c d => c.id.Precedes d.id

/-- The contender has no say in who wins: it is invalid, or it comes after the winner. -/
def StandsBack (cs : List Contender) (winner : Option PolicyId) (d : Contender) : Prop :=
  d.invalid ≠ none ∨ ∃ c ∈ cs, winner = some c.id ∧ c.Precedes d

variable {targetExists : Target → Bool} {target : Target} {cs : List Contender} {c d : Contender}
  {w : PolicyId}

/-- The winner is the first valid contender, if the target exists. -/
theorem winner_ofContenders : (ofContenders targetExists target cs).winner =
    if targetExists target then (validRanked cs).head?.map Contender.id else none := rfl

theorem mem_validRanked_iff : c ∈ validRanked cs ↔ c ∈ cs ∧ c.invalid = none := by
  rw [validRanked, List.mem_mergeSort, List.mem_filter, Contender.isValid_iff]

theorem mem_invalidRanked_iff : c ∈ invalidRanked cs ↔ c ∈ cs ∧ c.invalid ≠ none := by
  rw [invalidRanked, List.mem_mergeSort, List.mem_filter, Bool.not_eq_true', ← Bool.not_eq_true,
    Contender.isValid_iff]

/-- The ranked contenders are all of them. -/
theorem validRanked_append_invalidRanked_perm (cs : List Contender) :
    (validRanked cs ++ invalidRanked cs).Perm cs :=
  ((List.mergeSort_perm _ _).append (List.mergeSort_perm _ _)).trans (List.filter_append_perm _ cs)

/-- Every contender gets its verdict, the valid ones first. -/
theorem attachments_ofContenders : (ofContenders targetExists target cs).attachments =
    (validRanked cs ++ invalidRanked cs).map fun c =>
      (c.id, verdict (ofContenders targetExists target cs).winner c) := by
  rw [List.map_append]
  refine congrArg₂ _ (List.map_congr_left fun c hc => ?_) (List.map_congr_left fun c hc => ?_)
  · rw [verdict, (mem_validRanked_iff.1 hc).2]
    rfl
  · obtain ⟨why, hw⟩ := Option.ne_none_iff_exists'.1 (mem_invalidRanked_iff.1 hc).2
    rw [verdict, hw, Option.getD_some]

theorem map_fst_attachments : (ofContenders targetExists target cs).attachments.map Prod.fst =
    (validRanked cs ++ invalidRanked cs).map Contender.id := by
  rw [attachments_ofContenders, List.map_map]
  rfl

/-- There is a winner if the target exists and some contender is valid. -/
theorem exists_winner_iff : (∃ w, (ofContenders targetExists target cs).winner = some w) ↔
    targetExists target = true ∧ ∃ c ∈ cs, c.invalid = none := by
  rw [winner_ofContenders]
  cases targetExists target with
  | false => simp
  | true =>
    simp only [if_true, true_and, Option.map_eq_some_iff, ← mem_validRanked_iff]
    cases validRanked cs <;> simp

section Distinct

variable (distinct : (cs.map Contender.id).Nodup)
include distinct

theorem id_ne_filter (p : Contender → Bool) : (cs.filter p).Pairwise fun a b => a.id ≠ b.id :=
  (List.pairwise_map.1 distinct).sublist List.filter_sublist

/-- The valid contenders are in order. -/
theorem validRanked_pairwise : (validRanked cs).Pairwise Contender.Precedes := by
  have apart : (cs.filter Contender.isValid).Pairwise fun a b => a.precedence b ≠ .eq :=
    (id_ne_filter distinct _).imp fun ne same => ne (Contender.id_eq_of_precedence same)
  exact (pairwise_lt_mergeSort _ apart).imp Contender.precedence_eq_lt.1

theorem invalidRanked_pairwise : (invalidRanked cs).Pairwise fun c d => c.id.Precedes d.id := by
  have apart : (cs.filter fun c => !c.isValid).Pairwise fun a b =>
      compareOn Contender.id a b ≠ .eq :=
    (id_ne_filter distinct _).imp fun ne same => ne (PolicyId.eq_of_compare same)
  exact (pairwise_lt_mergeSort _ apart).imp PolicyId.compare_eq_lt.1

/-- The first in order of precedence is the least one. -/
theorem head?_validRanked_iff : (validRanked cs).head? = some c ↔ Least cs c := by
  have sorted := validRanked_pairwise distinct
  have valid : ∀ d, d ∈ validRanked cs ↔ d ∈ cs ∧ d.invalid = none := fun d => mem_validRanked_iff
  cases hv : validRanked cs with
  | nil =>
    rw [hv] at valid
    refine iff_of_false nofun fun least => ?_
    exact List.not_mem_nil ((valid c).2 ⟨least.mem, least.valid⟩)
  | cons a rest =>
    rw [hv] at valid sorted
    have first := (List.pairwise_cons.1 sorted).1
    obtain ⟨ha, validA⟩ := (valid a).1 List.mem_cons_self
    rw [List.head?_cons, Option.some.injEq]
    constructor
    · rintro rfl
      refine ⟨ha, validA, fun d hd validD ne => ?_⟩
      exact first d ((List.mem_cons.1 ((valid d).2 ⟨hd, validD⟩)).resolve_left ne)
    · intro least
      by_contra ne
      have later := (List.mem_cons.1 ((valid c).2 ⟨least.mem, least.valid⟩)).resolve_left (Ne.symm ne)
      exact (first c later).asymm (least.first a ha validA ne)

/-- The winner is the contender that no valid one comes before. -/
theorem winner_eq_some_iff : (ofContenders targetExists target cs).winner = some w ↔
    targetExists target = true ∧ ∃ c, Least cs c ∧ c.id = w := by
  rw [winner_ofContenders, Option.ite_none_right_eq_some, Option.map_eq_some_iff]
  simp only [head?_validRanked_iff distinct]

/-- What becomes of a contender is decided by who won. -/
theorem get?_eq_verdict (hc : c ∈ cs) : (ofContenders targetExists target cs).get? c.id =
    some (verdict (ofContenders targetExists target cs).winner c) := by
  have order := validRanked_append_invalidRanked_perm cs
  have nodup : ((ofContenders targetExists target cs).attachments.map Prod.fst).Nodup := by
    rw [map_fst_attachments]
    exact (order.map _).nodup_iff.2 distinct
  rw [get?, Table.lookup_eq_some_iff nodup, attachments_ofContenders]
  exact List.mem_map_of_mem (order.mem_iff.2 hc)

/-- Exactly the winner is attached. -/
theorem get?_eq_attached_iff {id : PolicyId} :
    (ofContenders targetExists target cs).get? id = some .attached ↔
      (ofContenders targetExists target cs).winner = some id := by
  constructor
  · intro h
    rcases mem_attachments_iff.1 (mem_attachments_of_get? h) with
      ⟨c, -, -, rfl, same⟩ | ⟨c, -, why, -, -, same⟩
    · unfold outcome at same
      split at same
      · nomatch same
      · rename_i w hw
        split at same
        · rename_i heq
          rw [hw, heq]
        · nomatch same
    · nomatch same
  · intro won
    obtain ⟨c, hc, valid, rfl⟩ := exists_valid_of_winner won
    rw [get?_eq_verdict distinct hc, verdict, valid, won]
    simp [outcome]

/-- What is computed decides the contest. -/
theorem decides_ofContenders :
    Decides (targetExists target) cs (ofContenders targetExists target cs) where
  once := by
    rw [map_fst_attachments]
    exact (validRanked_append_invalidRanked_perm cs).map _
  won_iff := exists_winner_iff
  winner_iff w := winner_eq_some_iff distinct
  attached_iff id := get?_eq_attached_iff distinct
  conflicted w won c hc valid ne := by
    rw [get?_eq_verdict distinct hc, verdict, valid, won]
    simp [outcome, Ne.symm ne]
  targetNotFound missing c hc valid := by
    have nobody : (ofContenders targetExists target cs).winner = none := by
      rw [winner_ofContenders, missing]
      rfl
    rw [get?_eq_verdict distinct hc, verdict, valid, nobody]
    rfl
  invalid c hc why hw := by
    rw [get?_eq_verdict distinct hc, verdict, hw]
  ranked := ⟨validRanked cs, invalidRanked cs, map_fst_attachments, fun _ => mem_validRanked_iff,
    fun _ => mem_invalidRanked_iff, validRanked_pairwise distinct, invalidRanked_pairwise distinct⟩

end Distinct

section StandingBack

/-- A contender that comes later does not change who is first. -/
theorem Least.cons (least : Least cs c) (before : c.Precedes d) : Least (d :: cs) c where
  mem := List.mem_cons_of_mem d least.mem
  valid := least.valid
  first e he valid ne := by
    rcases List.mem_cons.1 he with rfl | he
    · exact before
    · exact least.first e he valid ne

/-- Who is first of all is first among those that are left. -/
theorem Least.of_cons (least : Least (d :: cs) c) (ne : c ≠ d) : Least cs c where
  mem := (List.mem_cons.1 least.mem).resolve_left ne
  valid := least.valid
  first e he := least.first e (List.mem_cons_of_mem d he)

/-- With distinct ids, whoever has the id of the winner is the least contender. -/
theorem least_of_winner (distinct : (cs.map Contender.id).Nodup) (hc : c ∈ cs)
    (won : (ofContenders targetExists target cs).winner = some c.id) :
    targetExists target = true ∧ Least cs c := by
  obtain ⟨there, e, least, same⟩ := (winner_eq_some_iff distinct).1 won
  obtain rfl := List.inj_on_of_nodup_map distinct least.mem hc same
  exact ⟨there, least⟩

/-- An invalid contender does not change who wins. -/
theorem winner_cons_of_invalid (invalid : d.invalid ≠ none) :
    (ofContenders targetExists target (d :: cs)).winner =
      (ofContenders targetExists target cs).winner := by
  have left : validRanked (d :: cs) = validRanked cs := by
    rw [validRanked, List.filter_cons_of_neg (mt Contender.isValid_iff.1 invalid), validRanked]
  rw [winner_ofContenders, winner_ofContenders, left]

variable (distinct : ((d :: cs).map Contender.id).Nodup)
include distinct

/-- One that stands back does not win when it comes in, and the winner stays. -/
theorem winner_cons (back : StandsBack cs (ofContenders targetExists target cs).winner d) :
    (ofContenders targetExists target (d :: cs)).winner =
      (ofContenders targetExists target cs).winner := by
  rcases back with invalid | ⟨c, hc, won, before⟩
  · exact winner_cons_of_invalid invalid
  · obtain ⟨there, least⟩ := least_of_winner distinct.of_cons hc won
    rw [won, winner_eq_some_iff distinct]
    exact ⟨there, c, least.cons before, rfl⟩

/-- One that stands back has not won, and the winner stays when it goes. -/
theorem winner_of_cons
    (back : StandsBack (d :: cs) (ofContenders targetExists target (d :: cs)).winner d) :
    (ofContenders targetExists target (d :: cs)).winner =
      (ofContenders targetExists target cs).winner := by
  rcases back with invalid | ⟨c, hc, won, before⟩
  · exact winner_cons_of_invalid invalid
  · obtain ⟨there, least⟩ := least_of_winner distinct hc won
    rw [won, eq_comm, winner_eq_some_iff distinct.of_cons]
    exact ⟨there, c, least.of_cons before.ne, rfl⟩

/-- As long as the winner stays, so does what becomes of the others. -/
theorem get?_cons (winner : (ofContenders targetExists target (d :: cs)).winner =
      (ofContenders targetExists target cs).winner) (hc : c ∈ cs) :
    (ofContenders targetExists target (d :: cs)).get? c.id =
      (ofContenders targetExists target cs).get? c.id := by
  rw [get?_eq_verdict distinct (List.mem_cons_of_mem d hc), winner,
    get?_eq_verdict distinct.of_cons hc]

end StandingBack

/-- Among contenders with ids of their own, a contest `Decides` by precedence, and it comes out the same
in whatever order they come. A contender that stands back changes nothing for any other one, be it that
it comes in or that it goes. -/
theorem ofContenders_decides (targetExists : Target → Bool) (target : Target) {cs : List Contender}
    (distinct : (cs.map Contender.id).Nodup) :
    Decides (targetExists target) cs (ofContenders targetExists target cs) ∧
    (∀ cs', cs.Perm cs' →
      ofContenders targetExists target cs' = ofContenders targetExists target cs) ∧
    (∀ d more, d.id ∉ cs.map Contender.id → more.Perm (d :: cs) →
      StandsBack cs (ofContenders targetExists target cs).winner d →
      ∀ c ∈ cs, (ofContenders targetExists target more).get? c.id =
        (ofContenders targetExists target cs).get? c.id) ∧
    ∀ d fewer, cs.Perm (d :: fewer) →
      StandsBack cs (ofContenders targetExists target cs).winner d →
      ∀ c ∈ fewer, (ofContenders targetExists target fewer).get? c.id =
        (ofContenders targetExists target cs).get? c.id := by
  have reordered : ∀ cs', cs.Perm cs' →
      ofContenders targetExists target cs' = ofContenders targetExists target cs :=
    fun cs' order => ofContenders_perm order fun c hc d hd => List.inj_on_of_nodup_map distinct hc hd
  refine ⟨decides_ofContenders distinct, reordered, ?_, ?_⟩
  · intro d more new order back c hc
    have distinct' : ((d :: cs).map Contender.id).Nodup := List.nodup_cons.2 ⟨new, distinct⟩
    have nodup : (more.map Contender.id).Nodup := (order.map _).nodup_iff.2 distinct'
    rw [← ofContenders_perm order fun a ha b hb => List.inj_on_of_nodup_map nodup ha hb]
    exact get?_cons distinct' (winner_cons distinct' back) hc
  · intro d fewer order back c hc
    have distinct' : ((d :: fewer).map Contender.id).Nodup := (order.map _).nodup_iff.1 distinct
    rw [← reordered _ order] at back ⊢
    refine (get?_cons distinct' (winner_of_cons distinct' ?_) hc).symm
    exact back.imp_right fun ⟨e, he, won, before⟩ => ⟨e, order.mem_iff.1 he, won, before⟩

namespace Sample

def named (name : String) (created : Option Instant) (invalid : Option String) : Contender :=
  ⟨⟨"store", name⟩, created, invalid⟩

/-- One of two that were created at the same time. -/
def alpha : Contender := named "alpha" (some ⟨100, 0⟩) none

def zeta : Contender := named "zeta" (some ⟨100, 0⟩) none

/-- A contender without a time. -/
def undated : Contender := named "a" none none

/-- An invalid contender, created before all others. -/
def broken : Contender := named "oldest" (some ⟨1, 0⟩) (some "bad")

/-- What they compete for. -/
def checkout : Target := ⟨"", "Service", "store", "checkout"⟩

/-- Of two created at the same time the one with the smaller name wins. The one without a time loses
wherever its name stands, and nothing changes without it; the oldest is invalid. -/
theorem decides_tie :
    (ofContenders (fun _ => true) checkout [zeta, undated, broken, alpha]).winner = some alpha.id ∧
    (ofContenders (fun _ => true) checkout [zeta, undated, broken, alpha]).get? undated.id =
      some (.conflicted alpha.id) ∧
    (ofContenders (fun _ => true) checkout [zeta, undated, broken, alpha]).get? broken.id =
      some (.invalid "bad") ∧
    (ofContenders (fun _ => true) checkout [zeta, broken, alpha]).get? zeta.id =
      some (.conflicted alpha.id) := by
  have distinct : ([zeta, undated, broken, alpha].map Contender.id).Nodup := by decide
  obtain ⟨decides, -, -, removing⟩ := ofContenders_decides (fun _ => true) checkout distinct
  have least : Least [zeta, undated, broken, alpha] alpha := ⟨by decide, rfl, by decide⟩
  have won := (decides.winner_iff alpha.id).2 ⟨rfl, alpha, least, rfl⟩
  have back : StandsBack [zeta, undated, broken, alpha]
      (ofContenders (fun _ => true) checkout [zeta, undated, broken, alpha]).winner undated :=
    .inr ⟨alpha, least.mem, won, by decide⟩
  refine ⟨won, decides.conflicted _ won undated (by decide) rfl (by decide),
    decides.invalid broken (by decide) "bad" rfl, ?_⟩
  rw [removing undated [zeta, broken, alpha] (.swap undated zeta _) back zeta (by decide)]
  exact decides.conflicted _ won zeta (by decide) rfl (by decide)

end Sample

end Contest
end PolicyAttachment
