import PolicyAttachment.Shape.Metadata
import PolicyAttachment.Shape.Service

/-!
# The shape of a Gateway

Spec and status of a Gateway, on which nothing depends but that they read.
-/

namespace PolicyAttachment.Shape
set_option autoImplicit false

/-- A kind of route. -/
def routeKind : Shape := record [("kind", text)] [("group", text)]

def gatewayAddress : Shape := record [("value", text)] [("type", text)]

def listenerTls : Shape :=
  record []
    [("mode", text),
      ("certificateRefs",
        listOf (record [("name", text)] [("group", text), ("kind", text), ("namespace", text)])),
      ("options", tableOf text)]

/-- Which routes may attach to a listener. -/
def allowedRoutes : Shape :=
  record []
    [("namespaces", record [] [("from", text), ("selector", labelSelector)]),
      ("kinds", listOf routeKind)]

def listener : Shape :=
  record [("name", text), ("port", word16), ("protocol", text)]
    [("hostname", text), ("tls", listenerTls), ("allowedRoutes", allowedRoutes)]

def gatewaySpec : Shape :=
  record [("gatewayClassName", text), ("listeners", listOf listener)]
    [("addresses", listOf gatewayAddress)]

def listenerStatus : Shape :=
  record [("name", text), ("supportedKinds", listOf routeKind), ("attachedRoutes", word16),
    ("conditions", listOf storedCondition)] []

def gatewayStatus : Shape :=
  record []
    [("addresses", listOf gatewayAddress), ("conditions", listOf storedCondition),
      ("listeners", listOf listenerStatus)]

end PolicyAttachment.Shape
