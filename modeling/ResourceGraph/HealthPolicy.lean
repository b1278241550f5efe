import ResourceGraph.Resource

namespace ResourceGraph

/-- A health policy: a table that also names the resources to which it applies. -/
structure HealthPolicy where
  fields : Config
  deriving DecidableEq, Repr

namespace HealthPolicy

/-- Only tables are health policies. -/
def ofJson? : Json → Option HealthPolicy
  | .object members => some ⟨members⟩
  | _ => none

def textField (p : HealthPolicy) (name : String) : String :=
  ((p.fields.get? name).bind Json.asString?).getD ""

def apiVersion (p : HealthPolicy) : String := p.textField "apiVersion"

def kind (p : HealthPolicy) : String := p.textField "kind"

/-- ASCII letters are equal to those of the other case. -/
def equalIgnoringCase (a b : String) : Bool := a.toLower == b.toLower

/-- Policies apply to Kubernetes resources of the kind that they name; what is missing on either
side is empty. -/
def appliesTo (p : HealthPolicy) (r : Resource) : Bool :=
  r.type == .kubernetes && equalIgnoringCase (r.apiVersion?.getD "") p.apiVersion &&
    equalIgnoringCase (r.kind?.getD "") p.kind

end HealthPolicy

end ResourceGraph
