import PolicyAttachment.Shape.Pod

/-!
# The shape of a deployment

Spec and status of a deployment, on which nothing depends but that they read.
-/

namespace PolicyAttachment.Shape
set_option autoImplicit false

def deploymentSpec : Shape :=
  entity [("minReadySeconds", int32), ("paused", flag), ("progressDeadlineSeconds", int32),
    ("replicas", int32), ("revisionHistoryLimit", int32), ("selector", labelSelector),
    ("strategy", entity [("type", text),
      ("rollingUpdate", entity [("maxSurge", int32OrText), ("maxUnavailable", int32OrText)])]),
    ("template", podTemplate)]

def deploymentCondition : Shape :=
  entity [("lastTransitionTime", time), ("lastUpdateTime", time), ("message", text),
    ("reason", text), ("status", text), ("type", text)]

def deploymentStatus : Shape :=
  entity [("availableReplicas", int32), ("collisionCount", int32),
    ("conditions", listOf deploymentCondition), ("observedGeneration", int64),
    ("readyReplicas", int32), ("replicas", int32), ("unavailableReplicas", int32),
    ("updatedReplicas", int32)]

end PolicyAttachment.Shape
