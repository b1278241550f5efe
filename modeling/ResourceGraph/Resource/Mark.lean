import ResourceGraph.HealthPolicy

namespace ResourceGraph.Resource

/-- An imported resource carries the identifier of what is imported and loses its attributes: what
the import finds is authoritative. -/
def markImported (imported : Dict String) (r : Resource) : Resource :=
  match imported.get? r.id with
  | none => r
  | some id => { r with attributes := [], extensions := r.extensions.insert importId (.string id) }

def withHealthPolicy (r : Resource) (p : HealthPolicy) : Resource :=
  { r with extensions := r.extensions.insert healthPolicy (.object p.fields) }

/-- Attach a value as health policy if it is one. -/
def withHealthValue (r : Resource) (value : Json) : Resource :=
  match HealthPolicy.ofJson? value with
  | some p => r.withHealthPolicy p
  | none => r

theorem markImported_id (imported : Dict String) (r : Resource) :
    (r.markImported imported).id = r.id := by
  unfold markImported
  split <;> rfl

end ResourceGraph.Resource
