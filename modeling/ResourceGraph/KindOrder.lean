import ResourceGraph.Resource

namespace ResourceGraph

/-- Kinds in the order in which their resources are applied. -/
abbrev KindOrder := List String

namespace KindOrder

def standard : KindOrder := [
  "Namespace", "ResourceQuota", "StorageClass", "CustomResourceDefinition", "ServiceAccount",
  "PodSecurityPolicy", "Role", "ClusterRole", "RoleBinding", "ClusterRoleBinding", "ConfigMap",
  "Secret", "Endpoints", "Service", "LimitRange", "PriorityClass", "PersistentVolume",
  "PersistentVolumeClaim", "Deployment", "StatefulSet", "CronJob", "PodDisruptionBudget",
  "MutatingWebhookConfiguration", "ValidatingWebhookConfiguration"]

/-- The first position of the kind of a Kubernetes resource. -/
def rank? (kinds : KindOrder) (r : Resource) : Option Nat :=
  match r.type with
  | .kubernetes => r.kind?.bind fun kind => kinds.findIdx? (· == kind)
  | .terraform => none

def addMissing (present : List String) : List String → List String
  | [] => present
  | id :: rest => addMissing (if present.contains id then present else present ++ [id]) rest

/-- The ids of the resources with a rank below `n`, in graph order. -/
def idsBelow (kinds : KindOrder) (resources : List Resource) (n : Nat) : List String :=
  (resources.filter fun r => (kinds.rank? r).any (· < n)).map Resource.id

def orderOne (kinds : KindOrder) (resources : List Resource) (r : Resource) : Resource :=
  match kinds.rank? r with
  | none => r
  | some n => { r with dependsOn := addMissing r.dependsOn (kinds.idsBelow resources n) }

def order (kinds : KindOrder) (resources : List Resource) : List Resource :=
  resources.map (kinds.orderOne resources)

theorem rank?_orderOne (kinds : KindOrder) (resources : List Resource) (r : Resource) :
    kinds.rank? (kinds.orderOne resources r) = kinds.rank? r := by
  unfold orderOne
  split <;> rfl

theorem order_map_id (kinds : KindOrder) (resources : List Resource) :
    (kinds.order resources).map Resource.id = resources.map Resource.id := by
  simp only [order, List.map_map]
  refine List.map_congr_left fun r _ => ?_
  simp only [Function.comp_apply, orderOne]
  split <;> rfl

end KindOrder

end ResourceGraph
