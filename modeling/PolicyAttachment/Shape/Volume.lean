import PolicyAttachment.Shape.Metadata

/-!
# The shape of a volume

Where the files come from that the containers of a pod share. Each kind of source has settings of
its own, and all of them have to read.
-/

namespace PolicyAttachment.Shape
set_option autoImplicit false

/-- An object in the same namespace, by its name. -/
def localReference : Shape := entity [("name", text)]

/-- An object in the same namespace, by its group, kind and name. -/
def typedReference : Shape := entity [("apiGroup", text), ("kind", text), ("name", text)]

/-- A field of the pod. -/
def fieldReference : Shape := entity [("apiVersion", text), ("fieldPath", text)]

/-- An amount that a container asks for or is limited to. -/
def resourceReference : Shape :=
  entity [("containerName", text), ("divisor", text), ("resource", text)]

/-- The amounts that are asked for, and their limits. -/
def resourceAmounts : Shape := entity [("limits", tableOf text), ("requests", tableOf text)]

/-- Files made of named values. -/
def namedFiles : Fields :=
  [("items", listOf (entity [("key", text), ("mode", int32), ("path", text)])), ("optional", flag)]

/-- Files made of facts about the pod. -/
def podFiles : Fields :=
  [("items", listOf (entity [("fieldRef", fieldReference), ("mode", int32), ("path", text),
    ("resourceFieldRef", resourceReference)]))]

/-- A claim to storage. -/
def storageClaim : Shape :=
  entity [("accessModes", listOf text), ("dataSource", typedReference),
    ("dataSourceRef", typedReference), ("resources", resourceAmounts), ("selector", labelSelector),
    ("storageClassName", text), ("volumeMode", text), ("volumeName", text)]

/-- One of several sources that are put together in one volume. -/
def projection : Shape :=
  entity [("configMap", entity (("name", text) :: namedFiles)), ("downwardAPI", entity podFiles),
    ("secret", entity (("name", text) :: namedFiles)),
    ("serviceAccountToken",
      entity [("audience", text), ("expirationSeconds", int64), ("path", text)])]

/-- Sources that belong to the cluster or to the node. -/
def clusterSources : Fields :=
  [("configMap", entity ([("defaultMode", int32), ("name", text)] ++ namedFiles)),
    ("downwardAPI", entity (("defaultMode", int32) :: podFiles)),
    ("emptyDir", entity [("medium", text), ("sizeLimit", text)]),
    ("ephemeral", entity [("volumeClaimTemplate",
      entity [("metadata", metadata), ("spec", storageClaim)])]),
    ("gitRepo", entity [("directory", text), ("repository", text), ("revision", text)]),
    ("hostPath", entity [("path", text), ("type", text)]),
    ("persistentVolumeClaim", entity [("claimName", text), ("readOnly", flag)]),
    ("projected", entity [("defaultMode", int32), ("sources", listOf projection)]),
    ("secret", entity ([("defaultMode", int32), ("secretName", text)] ++ namedFiles))]

/-- Sources that are disks of a cloud. -/
def cloudSources : Fields :=
  [("awsElasticBlockStore",
      entity [("fsType", text), ("partition", int32), ("readOnly", flag), ("volumeID", text)]),
    ("azureDisk",
      entity [("cachingMode", text), ("diskName", text), ("diskURI", text), ("fsType", text),
        ("kind", text), ("readOnly", flag)]),
    ("azureFile", entity [("readOnly", flag), ("secretName", text), ("shareName", text)]),
    ("cinder",
      entity [("fsType", text), ("readOnly", flag), ("secretRef", localReference),
        ("volumeID", text)]),
    ("gcePersistentDisk",
      entity [("fsType", text), ("partition", int32), ("pdName", text), ("readOnly", flag)]),
    ("photonPersistentDisk", entity [("fsType", text), ("pdID", text)]),
    ("vsphereVolume",
      entity [("fsType", text), ("storagePolicyID", text), ("storagePolicyName", text),
        ("volumePath", text)])]

/-- Sources that are reached over a network of storage. -/
def storageSources : Fields :=
  [("cephfs",
      entity [("monitors", listOf text), ("path", text), ("readOnly", flag), ("secretFile", text),
        ("secretRef", localReference), ("user", text)]),
    ("csi",
      entity [("driver", text), ("fsType", text), ("nodePublishSecretRef", localReference),
        ("readOnly", flag), ("volumeAttributes", tableOf text)]),
    ("fc",
      entity [("fsType", text), ("lun", int32), ("readOnly", flag), ("targetWWNs", listOf text),
        ("wwids", listOf text)]),
    ("flexVolume",
      entity [("driver", text), ("fsType", text), ("options", tableOf text), ("readOnly", flag),
        ("secretRef", localReference)]),
    ("flocker", entity [("datasetName", text), ("datasetUUID", text)]),
    ("glusterfs", entity [("endpoints", text), ("path", text), ("readOnly", flag)]),
    ("iscsi",
      entity [("chapAuthDiscovery", flag), ("chapAuthSession", flag), ("fsType", text),
        ("initiatorName", text), ("iqn", text), ("iscsiInterface", text), ("lun", int32),
        ("portals", listOf text), ("readOnly", flag), ("secretRef", localReference),
        ("targetPortal", text)]),
    ("nfs", entity [("path", text), ("readOnly", flag), ("server", text)]),
    ("portworxVolume", entity [("fsType", text), ("readOnly", flag), ("volumeID", text)]),
    ("quobyte",
      entity [("group", text), ("readOnly", flag), ("registry", text), ("tenant", text),
        ("user", text), ("volume", text)]),
    ("rbd",
      entity [("fsType", text), ("image", text), ("keyring", text), ("monitors", listOf text),
        ("pool", text), ("readOnly", flag), ("secretRef", localReference), ("user", text)]),
    ("scaleIO",
      entity [("fsType", text), ("gateway", text), ("protectionDomain", text), ("readOnly", flag),
        ("secretRef", localReference), ("sslEnabled", flag), ("storageMode", text),
        ("storagePool", text), ("system", text), ("volumeName", text)]),
    ("storageos",
      entity [("fsType", text), ("readOnly", flag), ("secretRef", localReference),
        ("volumeName", text), ("volumeNamespace", text)])]

def volume : Shape :=
  entity (("name", text) :: clusterSources ++ cloudSources ++ storageSources)

end PolicyAttachment.Shape
