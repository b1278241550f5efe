import ResourceGraph.Json.Value

namespace ResourceGraph.Json

def membersOf : Json → Dict Json
  | .object members => members
  | _ => []

mutual

def merge (doc : Json) : Json → Json
  | .object members => .object (mergeMembers doc.membersOf members)
  | other => other

def mergeMembers (doc : Dict Json) : List (String × Json) → Dict Json
  | [] => doc
  | (k, v) :: rest =>
      match v with
      | .null => mergeMembers (doc.erase k) rest
      -- A missing member counts as null, so that nulls inside its patch are dropped as well.
      | v => mergeMembers (doc.insert k (merge ((doc.get? k).getD .null) v)) rest

end

end ResourceGraph.Json
