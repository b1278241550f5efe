import ResourceGraph.Resource

namespace ResourceGraph.Namespace

def resourceId (name : String) : String := "v1:Namespace:" ++ name

def resource (name : String) : Resource :=
  .new (resourceId name) .kubernetes
    [("apiVersion", .string "v1"), ("kind", .string "Namespace"),
      ("metadata", .object [("name", .string name)])]

/-- The resources that have to be added to a graph: none if the namespace is in it. -/
def additions (name : String) (resources : List Resource) : List Resource :=
  if resources.any (·.id == resourceId name) then [] else [resource name]

end ResourceGraph.Namespace
