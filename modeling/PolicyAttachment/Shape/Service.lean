import PolicyAttachment.Condition.Basic
import PolicyAttachment.Shape.Basic

/-!
# The shape of a Service

Spec and status of a Service, on which nothing depends but that they read.
-/

namespace PolicyAttachment.Shape
set_option autoImplicit false

def storedCondition : Shape := of StoredCondition.ofJson?

def servicePort : Shape :=
  entity [("appProtocol", text), ("name", text), ("nodePort", int32), ("port", int32),
    ("protocol", text), ("targetPort", int32OrText)]

def serviceSpec : Shape :=
  entity [("allocateLoadBalancerNodePorts", flag), ("clusterIP", text), ("clusterIPs", listOf text),
    ("externalIPs", listOf text), ("externalName", text), ("externalTrafficPolicy", text),
    ("healthCheckNodePort", int32), ("internalTrafficPolicy", text), ("ipFamilies", listOf text),
    ("ipFamilyPolicy", text), ("loadBalancerClass", text), ("loadBalancerIP", text),
    ("loadBalancerSourceRanges", listOf text), ("ports", listOf servicePort),
    ("publishNotReadyAddresses", flag), ("selector", tableOf text), ("sessionAffinity", text),
    ("sessionAffinityConfig", entity [("clientIP", entity [("timeoutSeconds", int32)])]),
    ("type", text)]

def loadBalancerIngress : Shape :=
  entity [("hostname", text), ("ip", text),
    ("ports", listOf (entity [("error", text), ("port", int32), ("protocol", text)]))]

def serviceStatus : Shape :=
  entity [("conditions", listOf storedCondition),
    ("loadBalancer", entity [("ingress", listOf loadBalancerIngress)])]

end PolicyAttachment.Shape
