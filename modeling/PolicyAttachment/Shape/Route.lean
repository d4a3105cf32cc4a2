import PolicyAttachment.Ancestor
import PolicyAttachment.Shape.Service

/-!
# The shape of an HTTP route

The parts of a route that nothing depends on: what its rules match and how they change requests, and
what became of it at its parents.
-/

namespace PolicyAttachment.Shape
set_option autoImplicit false

def parentReference : Shape := of ParentReference.ofJson?

def pathMatch : Shape :=
  let operand := record [("value", text)] []
  variant "type" [("Exact", operand), ("PathPrefix", operand), ("RegularExpression", operand)]

/-- A match of a header or a query parameter, by its name. -/
def namedMatch : Shape :=
  let operand := record [("name", text), ("value", text)] []
  variant "type" [("Exact", operand), ("RegularExpression", operand)]

/-- Which requests a rule is for. -/
def routeMatch : Shape :=
  record []
    [("path", pathMatch), ("headers", listOf namedMatch), ("queryParams", listOf namedMatch),
      ("method", text)]

def headerChange : Shape :=
  let headers := listOf (record [("name", text), ("value", text)] [])
  record [] [("set", headers), ("add", headers), ("remove", listOf text)]

def pathChange : Shape :=
  innerVariant "type"
    [("ReplaceFullPath", record [("replaceFullPath", text)] []),
      ("ReplacePrefixMatch", record [("replacePrefixMatch", text)] [])]

/-- The object that a filter sends requests to. -/
def backendObject : Shape :=
  record [("name", text)]
    [("group", text), ("kind", text), ("namespace", text), ("port", word16)]

def redirect : Shape :=
  record []
    [("scheme", text), ("hostname", text), ("path", pathChange), ("port", word16),
      ("statusCode", word16)]

/-- How a rule changes requests or their answers. -/
def routeFilter : Shape :=
  variant "type"
    [("RequestHeaderModifier", record [("requestHeaderModifier", headerChange)] []),
      ("ResponseHeaderModifier", record [("responseHeaderModifier", headerChange)] []),
      ("RequestMirror",
        record [("requestMirror", record [("backendRef", backendObject)] [])] []),
      ("RequestRedirect", record [("requestRedirect", redirect)] []),
      ("URLRewrite",
        record [("urlRewrite", record [] [("hostname", text), ("path", pathChange)])] []),
      ("ExtensionRef",
        record [("extensionRef",
          record [("group", text), ("kind", text), ("name", text)] [])] [])]

/-- What one parent made of a route. -/
def routeParentStatus : Shape :=
  record [("parentRef", parentReference), ("controllerName", text),
    ("conditions", listOf storedCondition)] []

def routeStatus : Shape := record [("parents", listOf routeParentStatus)] []

end PolicyAttachment.Shape
