import PolicyAttachment.Register.Basic

/-!
# Entries of other controllers

Other controllers change their entries on the stored object. `mergeForeign` brings a register up to
date with what was seen there: entries on both sides keep their position, stale ones go, and new
ones are added while there is room. Our own entries are left alone, in the register and in what was
seen.
-/

namespace PolicyAttachment.Register
set_option autoImplicit false

theorem size_eraseAt_lt {r : Register} {i : Nat} (h : i < r.size) :
    (r.eraseAt i).size < r.size := by
  simp only [size] at h
  simp only [size, eraseAt, List.length_eraseIdx, h, if_true]
  omega

/-- Takes out every entry from position `i` on that is `stale`, and tells whether there was one. -/
def dropStale (stale : Entry → Bool) (r : Register) (i : Nat) (changed : Bool) :
    Bool × Register :=
  if _ : i < r.size then
    match r.entries[i]? with
    | some entry =>
      if stale entry then dropStale stale (r.eraseAt i) i true
      else dropStale stale r (i + 1) changed
    | none => (changed, r)
  else (changed, r)
termination_by r.size - i
decreasing_by
  · have := size_eraseAt_lt ‹i < r.size›
    omega
  · omega

/-- Brings one foreign entry up to date. One that finds no room is dropped. -/
def adopt (state : Bool × Register) (entry : Entry) : Bool × Register :=
  let (changed, r) := state
  match entry with
  | .known key conditions =>
    match r.put key conditions with
    | .ok (.unchanged, r) => (changed, r)
    | .ok (_, r) => (true, r)
    | .error _ => (changed, r)
  | .verbatim _ =>
    match r.entries.findIdx? (·.describesSame entry) with
    | some i => if r.entries[i]? = some entry then (changed, r) else (true, r.setAt i entry)
    | none => if r.isFull then (changed, r) else (true, r.push entry)

/-- Reconciles the entries of other controllers than `ours` with those of `seen`, and tells whether
anything changed. -/
def mergeForeign (r : Register) (ours : ControllerName) (seen : List Entry) : Bool × Register :=
  let foreign := seen.filter (Entry.isByOther ours)
  let isStale := fun entry : Entry => entry.isByOther ours && !foreign.any (·.describesSame entry)
  foreign.foldl adopt (r.dropStale isStale 0 false)

end PolicyAttachment.Register
