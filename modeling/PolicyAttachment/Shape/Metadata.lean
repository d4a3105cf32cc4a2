import PolicyAttachment.Policy.Metadata
import PolicyAttachment.Shape.Basic

/-!
# Shapes of metadata

The metadata of objects, and how objects are selected by their labels.
-/

namespace PolicyAttachment.Shape
set_option autoImplicit false

def metadata : Shape := of Metadata.ofJson?

/-- A requirement on a value: an operator and the values it compares with. -/
def requirement : Shape :=
  entity [("key", text), ("operator", text), ("values", listOf text)]

def labelSelector : Shape :=
  entity [("matchExpressions", listOf requirement), ("matchLabels", tableOf text)]

end PolicyAttachment.Shape
