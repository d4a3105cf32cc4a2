import PolicyAttachment.StatusChange

/-!
# The queue of status changes

Changes wait in a queue of fixed capacity for the writer. Nothing is offered by an instance that
does not lead; a change that finds the queue full is counted and dropped, and one that finds it
closed is dropped.
-/

namespace PolicyAttachment
set_option autoImplicit false

/-- The changes that wait to be written. -/
structure Queue where
  capacity : Nat
  isOpen : Bool
  waiting : List StatusChange
  /-- How many changes were taken in. -/
  enqueued : Nat
  /-- How many changes found the queue full. -/
  overflowed : Nat
deriving Repr

namespace Queue

def ofCapacity (capacity : Nat) : Queue := ⟨capacity, true, [], 0, 0⟩

/-- Offers a change to the queue, and tells whether it was taken in. -/
def offer (q : Queue) (leads : Bool) (change : StatusChange) : Bool × Queue :=
  if !leads || !q.isOpen then (false, q)
  else if q.waiting.length < q.capacity then
    (true, { q with waiting := q.waiting ++ [change], enqueued := q.enqueued + 1 })
  else (false, { q with overflowed := q.overflowed + 1 })

/-- Takes everything out of the queue. -/
def drain (q : Queue) : List StatusChange × Queue := (q.waiting, { q with waiting := [] })

/-- No further change is taken in, and what waits is lost. -/
def close (q : Queue) : Queue := { q with isOpen := false, waiting := [] }

end Queue
end PolicyAttachment
