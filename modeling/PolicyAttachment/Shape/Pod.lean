import PolicyAttachment.Shape.Volume

/-!
# The shape of a pod template

What a deployment starts its pods from.
-/

namespace PolicyAttachment.Shape
set_option autoImplicit false

/-- A name and a value, both texts. -/
def namedText : Shape := entity [("name", text), ("value", text)]

/-- A place in a set of named values, which may be missing where it says so. -/
def keyReference : Shape := entity [("key", text), ("name", text), ("optional", flag)]

def environmentVariable : Shape :=
  entity [("name", text), ("value", text),
    ("valueFrom", entity [("configMapKeyRef", keyReference), ("fieldRef", fieldReference),
      ("resourceFieldRef", resourceReference), ("secretKeyRef", keyReference)])]

def environmentSource : Shape :=
  let source := entity [("name", text), ("optional", flag)]
  entity [("configMapRef", source), ("prefix", text), ("secretRef", source)]

def command : Shape := entity [("command", listOf text)]

def httpCall : Shape :=
  entity [("host", text), ("httpHeaders", listOf namedText), ("path", text),
    ("port", int32OrText), ("scheme", text)]

def socket : Shape := entity [("host", text), ("port", int32OrText)]

def lifecycleHandler : Shape :=
  entity [("exec", command), ("httpGet", httpCall), ("tcpSocket", socket)]

def probe : Shape :=
  entity [("exec", command), ("failureThreshold", int32),
    ("grpc", entity [("port", int32), ("service", text)]), ("httpGet", httpCall),
    ("initialDelaySeconds", int32), ("periodSeconds", int32), ("successThreshold", int32),
    ("tcpSocket", socket), ("terminationGracePeriodSeconds", int64), ("timeoutSeconds", int32)]

/-- Whom a process runs as. -/
def runAs : Fields :=
  [("runAsGroup", int64), ("runAsNonRoot", flag), ("runAsUser", int64),
    ("seLinuxOptions", entity [("level", text), ("role", text), ("type", text), ("user", text)]),
    ("seccompProfile", entity [("localhostProfile", text), ("type", text)]),
    ("windowsOptions", entity [("gmsaCredentialSpec", text), ("gmsaCredentialSpecName", text),
      ("hostProcess", flag), ("runAsUserName", text)])]

def containerSecurity : Shape :=
  entity (runAs ++ [("allowPrivilegeEscalation", flag),
    ("capabilities", entity [("add", listOf text), ("drop", listOf text)]), ("privileged", flag),
    ("procMount", text), ("readOnlyRootFilesystem", flag)])

def containerPort : Shape :=
  entity [("containerPort", int32), ("hostIP", text), ("hostPort", int32), ("name", text),
    ("protocol", text)]

def volumeMount : Shape :=
  entity [("mountPath", text), ("mountPropagation", text), ("name", text), ("readOnly", flag),
    ("subPath", text), ("subPathExpr", text)]

/-- What all containers of a pod may have. -/
def containerFields : Fields :=
  [("args", listOf text), ("command", listOf text), ("env", listOf environmentVariable),
    ("envFrom", listOf environmentSource), ("image", text), ("imagePullPolicy", text),
    ("lifecycle", entity [("postStart", lifecycleHandler), ("preStop", lifecycleHandler)]),
    ("livenessProbe", probe), ("name", text), ("ports", listOf containerPort),
    ("readinessProbe", probe),
    ("resources", resourceAmounts), ("securityContext", containerSecurity),
    ("startupProbe", probe), ("stdin", flag), ("stdinOnce", flag),
    ("terminationMessagePath", text), ("terminationMessagePolicy", text), ("tty", flag),
    ("volumeDevices", listOf (entity [("devicePath", text), ("name", text)])),
    ("volumeMounts", listOf volumeMount), ("workingDir", text)]

def container : Shape := entity containerFields

/-- A container that is added to a running pod for looking into another one. -/
def ephemeralContainer : Shape := entity (("targetContainerName", text) :: containerFields)

def nodeSelectorTerm : Shape :=
  entity [("matchExpressions", listOf requirement), ("matchFields", listOf requirement)]

def nodeAffinity : Shape :=
  entity [("preferredDuringSchedulingIgnoredDuringExecution",
      listOf (entity [("preference", nodeSelectorTerm), ("weight", int32)])),
    ("requiredDuringSchedulingIgnoredDuringExecution",
      entity [("nodeSelectorTerms", listOf nodeSelectorTerm)])]

def podAffinityTerm : Shape :=
  entity [("labelSelector", labelSelector), ("namespaceSelector", labelSelector),
    ("namespaces", listOf text), ("topologyKey", text)]

def podAffinity : Shape :=
  entity [("preferredDuringSchedulingIgnoredDuringExecution",
      listOf (entity [("podAffinityTerm", podAffinityTerm), ("weight", int32)])),
    ("requiredDuringSchedulingIgnoredDuringExecution", listOf podAffinityTerm)]

def toleration : Shape :=
  entity [("effect", text), ("key", text), ("operator", text), ("tolerationSeconds", int64),
    ("value", text)]

def topologySpread : Shape :=
  entity [("labelSelector", labelSelector), ("maxSkew", int32), ("minDomains", int32),
    ("topologyKey", text), ("whenUnsatisfiable", text)]

def nameResolution : Shape :=
  entity [("nameservers", listOf text), ("options", listOf namedText), ("searches", listOf text)]

def podSpec : Shape :=
  entity [("activeDeadlineSeconds", int64),
    ("affinity", entity [("nodeAffinity", nodeAffinity), ("podAffinity", podAffinity),
      ("podAntiAffinity", podAffinity)]),
    ("automountServiceAccountToken", flag), ("containers", listOf container),
    ("dnsConfig", nameResolution), ("dnsPolicy", text), ("enableServiceLinks", flag),
    ("ephemeralContainers", listOf ephemeralContainer),
    ("hostAliases", listOf (entity [("hostnames", listOf text), ("ip", text)])),
    ("hostIPC", flag), ("hostNetwork", flag), ("hostPID", flag), ("hostname", text),
    ("imagePullSecrets", listOf localReference), ("initContainers", listOf container),
    ("nodeName", text), ("nodeSelector", tableOf text), ("os", entity [("name", text)]),
    ("overhead", tableOf text), ("preemptionPolicy", text), ("priority", int32),
    ("priorityClassName", text), ("readinessGates", listOf (entity [("conditionType", text)])),
    ("restartPolicy", text), ("runtimeClassName", text), ("schedulerName", text),
    ("securityContext", entity (runAs ++ [("fsGroup", int64), ("fsGroupChangePolicy", text),
      ("supplementalGroups", listOf int64), ("sysctls", listOf namedText)])),
    ("serviceAccount", text), ("serviceAccountName", text), ("setHostnameAsFQDN", flag),
    ("shareProcessNamespace", flag), ("subdomain", text),
    ("terminationGracePeriodSeconds", int64), ("tolerations", listOf toleration),
    ("topologySpreadConstraints", listOf topologySpread), ("volumes", listOf volume)]

def podTemplate : Shape := entity [("metadata", metadata), ("spec", podSpec)]

end PolicyAttachment.Shape
