import PolicyAttachment.Instant.Rfc3339
import PolicyAttachment.Json.Decode

/-!
# Instants in documents

A document holds an instant as its time string, so its fraction is lost when it is written.
-/

namespace PolicyAttachment.Instant
set_option autoImplicit false

def toJson (t : Instant) : Json := .str t.format

def ofJson? (j : Json) : Option Instant := j.string?.bind parse?

end PolicyAttachment.Instant
