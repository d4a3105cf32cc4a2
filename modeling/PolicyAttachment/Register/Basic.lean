import PolicyAttachment.StoredStatus
import PolicyAttachment.Condition.Set
import PolicyAttachment.Table

/-!
# The register of a policy's status

The entries of one policy's ancestor status, in order and at most sixteen. An entry that reads under
the rules for names and conditions is known by its key; any other is kept verbatim. Entries stay in
their place for as long as they exist, so updating one never reorders the list. Known entries are
found through a table of positions, which every operation keeps in step with the list.
-/

namespace PolicyAttachment
set_option autoImplicit false

/-- The most entries a policy's status may hold. -/
def maxAncestors : Nat := 16

/-- One entry of a policy's ancestor status. -/
inductive Entry where
  | known (key : EntryKey) (conditions : ConditionSet)
  /-- An entry that does not read, carried through as it is. -/
  | verbatim (entry : AncestorStatus)
deriving DecidableEq

namespace Entry

def key? : Entry → Option EntryKey
  | known key _ => some key
  | verbatim _ => none

def conditions? : Entry → Option ConditionSet
  | known _ conditions => some conditions
  | verbatim _ => none

/-- The name of the controller that wrote the entry. -/
def writer : Entry → String
  | known key _ => key.controller.text
  | verbatim entry => entry.controllerName

/-- Whether another controller than `ours` wrote the entry. -/
def isByOther (ours : ControllerName) (s : Entry) : Bool := s.writer != ours.text

/-- Whether both entries describe the same ancestor for the same writer. A known entry and a
verbatim one never do. -/
def describesSame : Entry → Entry → Bool
  | known a _, known b _ => a = b
  | verbatim a, verbatim b =>
    a.controllerName = b.controllerName ∧ a.ancestorRef = b.ancestorRef
  | _, _ => false

end Entry

/-- What recording an entry did. -/
inductive Recorded where
  | inserted
  | updated
  | unchanged
deriving DecidableEq, Repr

/-- A new entry found no room. -/
structure RegisterFull where
  key : EntryKey
deriving DecidableEq

def RegisterFull.message (e : RegisterFull) : String :=
  "policy status already holds 16 ancestors; cannot record " ++ e.key.ancestor.describe

/-- Why a list of entries is not a register. -/
inductive InvalidRegister where
  | duplicateKey (key : EntryKey)
  | tooManyEntries (count : Nat)
deriving DecidableEq

def InvalidRegister.message : InvalidRegister → String
  | duplicateKey key =>
    "duplicate ancestor entry for " ++ key.ancestor.describe ++ " from " ++ key.controller.text
  | tooManyEntries count => "status holds " ++ toString count ++ " ancestors, more than 16"

/-- The entries of a policy's ancestor status, with the position of each known one. -/
structure Register where
  entries : List Entry
  positions : Table EntryKey Nat

namespace Register

def empty : Register := ⟨[], .empty⟩

instance : Inhabited Register := ⟨empty⟩

def size (r : Register) : Nat := r.entries.length

def isEmpty (r : Register) : Bool := r.entries.isEmpty

def isFull (r : Register) : Bool := maxAncestors ≤ r.size

/-- The known entries in order. -/
def known (r : Register) : List (EntryKey × ConditionSet) :=
  r.entries.filterMap fun
    | .known key conditions => some (key, conditions)
    | .verbatim _ => none

/-- Adds an entry at the end. -/
def push (r : Register) (entry : Entry) : Register where
  entries := r.entries ++ [entry]
  positions :=
    match entry.key? with
    | some key => r.positions.insert key r.size
    | none => r.positions

/-- Adds an entry whose key must be new. -/
def pushNew (r : Register) (entry : Entry) : Except InvalidRegister Register :=
  match entry.key? with
  | some key => if r.positions.contains key then .error (.duplicateKey key) else .ok (r.push entry)
  | none => .ok (r.push entry)

/-- The register of `entries`, in their order. -/
def ofEntries (entries : List Entry) : Except InvalidRegister Register := do
  let r ← entries.foldlM pushNew empty
  if maxAncestors < r.size then .error (.tooManyEntries r.size) else .ok r

/-- Puts `entry` in the place of the entry at `i`, which must be of the same key. -/
def setAt (r : Register) (i : Nat) (entry : Entry) : Register :=
  { r with entries := r.entries.set i entry }

/-- Takes out the entry at `i`; the later ones move up. -/
def eraseAt (r : Register) (i : Nat) : Register where
  entries := r.entries.eraseIdx i
  positions :=
    let kept :=
      match (r.entries[i]?).bind Entry.key? with
      | some key => r.positions.erase key
      | none => r.positions
    kept.mapValues fun _ p => if i < p then p - 1 else p

/-- The position and the conditions recorded for `key`. -/
def find? (r : Register) (key : EntryKey) : Option (Nat × ConditionSet) := do
  let i ← r.positions.get? key
  let conditions ← (r.entries[i]?).bind Entry.conditions?
  some (i, conditions)

def get? (r : Register) (key : EntryKey) : Option ConditionSet := (r.find? key).map (·.2)

/-- Records `conditions` for `key`: in place if there is an entry, at the end if there is room. -/
def put (r : Register) (key : EntryKey) (conditions : ConditionSet) :
    Except RegisterFull (Recorded × Register) :=
  match r.find? key with
  | some (i, existing) =>
    if existing = conditions then .ok (.unchanged, r)
    else .ok (.updated, r.setAt i (.known key conditions))
  | none =>
    if r.isFull then .error ⟨key⟩ else .ok (.inserted, r.push (.known key conditions))

/-- Takes out the entry of `key`, if there is one. -/
def extract? (r : Register) (key : EntryKey) : Option (ConditionSet × Register) :=
  (r.find? key).map fun (i, conditions) => (conditions, r.eraseAt i)

/-- The ancestors that `controller` has known entries for, in order. -/
def ancestorsOf (r : Register) (controller : ControllerName) : List AncestorRef :=
  (r.known.filter fun e => e.1.controller = controller).map fun e => e.1.ancestor

end Register
end PolicyAttachment
