import PolicyAttachment.Json.Basic
import PolicyAttachment.Uri

/-!
# Requests

Requests to the API server: reads of one address, and patches of one document in a content type that
says how it is combined with the object.
-/

namespace PolicyAttachment
set_option autoImplicit false

/-- How the document of a patch is combined with the object. -/
inductive PatchType where
  | merge
  | strategicMerge
  | apply
deriving DecidableEq, Repr

def PatchType.contentType : PatchType → String
  | merge => "application/merge-patch+json"
  | strategicMerge => "application/strategic-merge-patch+json"
  | apply => "application/apply-patch+yaml"

/-- A request to the API server. -/
inductive Request where
  | get (uri : String)
  | patch (uri : String) (type : PatchType) (body : Json)
deriving Repr

namespace Request

def uri : Request → String
  | get uri => uri
  | patch uri _ _ => uri

/-- A request as a document; a read has no body. -/
def toJson : Request → Json
  | get uri => .obj [("method", .str "GET"), ("uri", .str uri), ("body", .null)]
  | patch uri type body =>
    .obj [("method", .str "PATCH"), ("uri", .str uri), ("contentType", .str type.contentType),
      ("body", body)]

/-- The most bytes that the name of a manager may have. -/
def maxManagerBytes : Nat := 128

/-- The query of a patch made in the name of `manager`; a forced one overrides other managers. -/
def patchQuery (force : Bool) (manager : String) : String :=
  (if force then "?&force=true" else "?") ++ "&fieldManager=" ++ Uri.encoded manager

end Request
end PolicyAttachment
