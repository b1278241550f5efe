import Mathlib.Data.List.Induction
import Mathlib.Data.Option.Defs
import ResourceGraph.Proofs.Generation.Answers
import ResourceGraph.Proofs.Plugin.Wire

namespace ResourceGraph

structure Delivery where
  key : ModuleKey
  briefing : Briefing
  response : Response

structure Contribution extends Answer where
  policy : Option HealthPolicy
  patcher : Option Patcher

structure Delivery.Brings (d : Delivery) (c : Contribution) : Prop where
  key_eq : c.key = d.key
  policy_eq : c.policy = d.briefing.healthPolicy
  carries : d.response.Carries d.key c.resources c.patcher

theorem Delivery.map_key_of_brings {deliveries : List Delivery} {contributions : List Contribution}
    (h : List.Forall₂ Brings deliveries contributions) :
    contributions.map (fun c => c.key) = deliveries.map Delivery.key := by
  induction h with
  | nil => rfl
  | cons brings _ ih => rw [List.map_cons, List.map_cons, brings.key_eq, ih]

def Delivery.ofTexts (key : ModuleKey) (briefing : Briefing) (texts : List String)
    (patch : Option String) : Delivery :=
  ⟨key, briefing, texts.map Bytes.ofText, patch.map Bytes.ofText⟩

theorem Delivery.brings_ofTexts {key : ModuleKey} {briefing : Briefing} {texts : List String}
    {patch : Option String} {resources : List Resource} {patcher : Option Patcher}
    (hresources : texts.map Resource.schema.ofYamlText? = resources.map some)
    (hpatcher : patch.map Patcher.schema.ofYamlText? = patcher.map some) :
    (ofTexts key briefing texts patch).Brings ⟨⟨key, resources⟩, briefing.healthPolicy, patcher⟩ := by
  refine ⟨rfl, rfl, ?_, ?_⟩
  · rw [← List.forall₂_eq_eq_eq, List.forall₂_map_left_iff, List.forall₂_map_right_iff]
      at hresources
    rw [ofTexts, ← List.forall₂_eq_eq_eq, List.forall₂_map_left_iff, List.forall₂_map_left_iff,
      List.forall₂_map_right_iff]
    refine hresources.imp fun text r h => ModuleResults.decodeResource_eq_ok_iff.mpr ?_
    rw [Schema.ofYamlBytes?_ofText, h]
  · cases patch with
    | none =>
        obtain rfl := Option.map_eq_none_iff.mp hpatcher.symm
        rfl
    | some text =>
        obtain ⟨p, rfl, h⟩ := Option.map_eq_some_iff.mp hpatcher.symm
        refine congrArg some (ModuleResults.decodePatcher_eq_ok_iff.mpr ?_)
        rw [Schema.ofYamlBytes?_ofText, h]

def Contribution.split (workloadKey : Option ModuleKey) (c : Contribution) :
    Option Resource × List Resource :=
  if workloadKey = some c.key then ModuleResults.splitWorkload c.resources else (none, c.resources)

theorem Gathered.append_contribution {workloadKey : Option ModuleKey} {answers : List Answer}
    {workload : Option Resource} {others : List Resource} {c : Contribution}
    (h : Gathered workloadKey answers workload others) (fresh : ∀ b ∈ answers, b.key ≠ c.key) :
    Gathered workloadKey (answers ++ [c.toAnswer]) ((c.split workloadKey).1.or workload)
      (others ++ (c.split workloadKey).2) := by
  rw [Contribution.split]
  by_cases hkey : workloadKey = some c.key
  · obtain ⟨rfl, hgathered⟩ := h.append_workload (a := c.toAnswer) hkey fresh
    rwa [if_pos hkey, Option.or_none]
  · rw [if_neg hkey]
    exact h.append_other hkey

namespace Resource

theorem isWorkload_iff {r : Resource} :
    r.isWorkload = true ↔ r.extensions.get? workloadMark = some (.bool true) ∨
      r.extensions.get? workloadMark = some (.string "true") := by
  unfold isWorkload
  split <;> simp_all

/-- Resources that differ at most in some of their notes. -/
structure AgreesBut (notes : List String) (r r' : Resource) : Prop where
  eq_with : r' = { r with extensions := r'.extensions }
  extensions_eq : ∀ note, note ∉ notes → r'.extensions.get? note = r.extensions.get? note

/-- A resource, and what it becomes as a workload. -/
structure BecomesWorkload (r r' : Resource) : Prop
    extends AgreesBut [workloadMark, healthPolicy] r r' where
  marked : r'.extensions.get? workloadMark = some (.bool true)

variable {notes : List String} {note : String} {r r' : Resource}

theorem AgreesBut.refl (notes : List String) (r : Resource) : AgreesBut notes r r :=
  ⟨rfl, fun _ _ => rfl⟩

theorem AgreesBut.insert (h : AgreesBut notes r r') (hnote : note ∈ notes) (value : Json) :
    AgreesBut notes r { r' with extensions := r'.extensions.insert note value } where
  eq_with := by rw [h.eq_with]
  extensions_eq other hother := by
    have hne : other ≠ note := fun heq => hother (heq ▸ hnote)
    rw [Dict.get?_insert_of_ne _ _ hne, h.extensions_eq other hother]

end Resource

namespace ModuleResults

def addAll (workloadKey : Option ModuleKey) (a : ModuleResults) (deliveries : List Delivery) :
    Except GenerationError ModuleResults :=
  deliveries.foldlM (fun a d => a.add d.key workloadKey d.briefing d.response) a

def contribute (workloadKey : Option ModuleKey) (a : ModuleResults) (c : Contribution) :
    ModuleResults :=
  a.collect (workloadKey == some c.key) c.policy c.resources c.patcher

variable {workloadKey : Option ModuleKey} {a a' : ModuleResults}

theorem addAll_eq_ok_iff {deliveries : List Delivery} :
    addAll workloadKey a deliveries = .ok a' ↔
      ∃ contributions, List.Forall₂ Delivery.Brings deliveries contributions ∧
        contributions.foldl (contribute workloadKey) a = a' := by
  induction deliveries generalizing a with
  | nil =>
      rw [addAll, List.foldlM_nil, Except.pure_eq_ok_iff]
      simp
  | cons d rest ih =>
      rw [addAll, List.foldlM_cons, Except.bind_eq_ok_iff]
      constructor
      · rintro ⟨between, hadd, hrest⟩
        obtain ⟨resources, patcher, hcarries, rfl⟩ := add_eq_ok_iff.mp hadd
        obtain ⟨contributions, hbrings, rfl⟩ := ih.mp hrest
        exact ⟨⟨⟨d.key, resources⟩, d.briefing.healthPolicy, patcher⟩ :: contributions,
          .cons ⟨rfl, rfl, hcarries⟩ hbrings, rfl⟩
      · rintro ⟨contributions, hall, rfl⟩
        cases hall with
        | @cons _ c _ contributions hbrings hrest =>
            refine ⟨a.contribute workloadKey c, add_eq_ok_iff.mpr ?_, ih.mpr ⟨_, hrest, rfl⟩⟩
            refine ⟨c.resources, c.patcher, hbrings.carries, ?_⟩
            rw [contribute, hbrings.key_eq, hbrings.policy_eq]

/-- Results of modules consist of a workload, other resources and patchers; the resources differ from
these in notes only. -/
structure Consists (a : ModuleResults) (workload : Option Resource) (others : List Resource)
    (patchers : List Patcher) : Prop where
  workload_becomes : Option.Rel Resource.BecomesWorkload workload a.workload
  others_agree : List.Forall₂ (Resource.AgreesBut [Resource.healthPolicy]) others a.resources
  patchers_eq : a.patchers = patchers

theorem becomesWorkload_markedWorkload (policy : Option HealthPolicy) (r : Resource) :
    r.BecomesWorkload (markedWorkload policy r) := by
  have hmarked : Resource.AgreesBut [Resource.workloadMark, Resource.healthPolicy] r r.asWorkload :=
    (Resource.AgreesBut.refl _ r).insert (by decide) _
  have hmark : r.asWorkload.extensions.get? Resource.workloadMark = some (.bool true) :=
    Dict.get?_insert_self _ _ _
  cases policy with
  | none => exact ⟨hmarked, hmark⟩
  | some p =>
      refine ⟨hmarked.insert (by decide) _, ?_⟩
      rw [markedWorkload, Resource.withHealthPolicy, Dict.get?_insert_of_ne _ _ (by decide), hmark]

theorem agreesBut_applyPolicy {others resources : List Resource}
    (h : List.Forall₂ (Resource.AgreesBut [Resource.healthPolicy]) others resources)
    (policy : Option HealthPolicy) :
    List.Forall₂ (Resource.AgreesBut [Resource.healthPolicy]) others
      (applyPolicy policy resources) :=
  forall₂_applyPolicy (fun _ _ _ hr => hr.insert List.mem_cons_self _) h policy

theorem contribute_eq (workloadKey : Option ModuleKey) (a : ModuleResults) (c : Contribution) :
    a.contribute workloadKey c =
      ⟨((c.split workloadKey).1.map (markedWorkload c.policy)).or a.workload,
        applyPolicy c.policy (a.resources ++ (c.split workloadKey).2),
        a.patchers ++ c.patcher.toList⟩ := by
  rw [contribute, Contribution.split]
  by_cases hkey : workloadKey = some c.key
  · rw [hkey, beq_self_eq_true, if_pos rfl]
    rfl
  · rw [beq_false_of_ne hkey, if_neg hkey]
    rfl

theorem Consists.contribute {workload : Option Resource} {others : List Resource}
    {patchers : List Patcher} (h : a.Consists workload others patchers) (c : Contribution) :
    (a.contribute workloadKey c).Consists ((c.split workloadKey).1.or workload)
      (others ++ (c.split workloadKey).2) (patchers ++ c.patcher.toList) := by
  rw [contribute_eq]
  constructor
  · cases (c.split workloadKey).1 with
    | none => exact h.workload_becomes
    | some w => exact .some (becomesWorkload_markedWorkload c.policy w)
  · refine agreesBut_applyPolicy (List.rel_append h.others_agree ?_) c.policy
    exact List.forall₂_same.mpr fun r _ => .refl _ r
  · rw [h.patchers_eq]

/-- Contributions under distinct keys are kept as a whole. -/
theorem exists_consists (contributions : List Contribution)
    (distinct : (contributions.map fun c => c.key).Nodup) :
    ∃ workload others,
      Gathered workloadKey (contributions.map Contribution.toAnswer) workload others ∧
        (contributions.foldl (contribute workloadKey) .empty).Consists workload others
          (contributions.filterMap Contribution.patcher) := by
  -- The last contribution is added to what all earlier ones have left.
  induction contributions using List.reverseRecOn with
  | nil => exact ⟨none, [], .unchosen nofun, .none, .nil, rfl⟩
  | append_singleton earlier c ih =>
      rw [List.map_append, List.nodup_append] at distinct
      obtain ⟨hearlier, -, hfresh⟩ := distinct
      obtain ⟨workload, others, hgathered, hconsists⟩ := ih hearlier
      refine ⟨(c.split workloadKey).1.or workload, others ++ (c.split workloadKey).2, ?_, ?_⟩
      · rw [List.map_append]
        refine hgathered.append_contribution fun b hb => ?_
        obtain ⟨c', hc', rfl⟩ := List.mem_map.mp hb
        exact hfresh _ (List.mem_map_of_mem hc') _ List.mem_cons_self
      · have hpatchers : [c].filterMap Contribution.patcher = c.patcher.toList := by
          cases hpatcher : c.patcher <;> simp [hpatcher]
        rw [List.foldl_append, List.filterMap_append, hpatchers]
        exact hconsists.contribute c

/-- Results of modules hold all that responses decode to: the workload that its module returned, if
there is one, all other resources in the order of the responses, and all patchers. -/
structure Assembled (workloadKey : Option ModuleKey) (deliveries : List Delivery)
    (contributions : List Contribution) (workload : Option Resource) (others : List Resource)
    (a : ModuleResults) : Prop
    extends a.Consists workload others (contributions.filterMap Contribution.patcher) where
  brings : List.Forall₂ Delivery.Brings deliveries contributions
  gathered : Gathered workloadKey (contributions.map Contribution.toAnswer) workload others

/-- When responses of distinct modules are all added, nothing that they decode to is lost, doubled or
moved. The workload carries the mark, which its module may have spelled in two ways; otherwise no
more than health policies is written on the resources. -/
theorem exists_assembled (workloadKey : Option ModuleKey) (deliveries : List Delivery)
    (a : ModuleResults) (distinct : (deliveries.map Delivery.key).Nodup)
    (h : addAll workloadKey .empty deliveries = .ok a) :
    (∃ contributions workload others,
      Assembled workloadKey deliveries contributions workload others a) ∧
      ∀ r : Resource, r.isWorkload = true ↔
        r.extensions.get? Resource.workloadMark = some (.bool true) ∨
          r.extensions.get? Resource.workloadMark = some (.string "true") := by
  constructor
  · obtain ⟨contributions, hbrings, rfl⟩ := addAll_eq_ok_iff.mp h
    rw [← Delivery.map_key_of_brings hbrings] at distinct
    obtain ⟨workload, others, hgathered, hconsists⟩ := exists_consists contributions distinct
    exact ⟨contributions, workload, others, hconsists, hbrings, hgathered⟩
  · intro r
    exact Resource.isWorkload_iff

def shopDeliveries : List Delivery :=
  [.ofTexts ⟨"acme/network@1"⟩ ⟨none, none, none⟩ ["id: net\ntype: Terraform\n"] none,
    .ofTexts ⟨"acme/service@1"⟩ ⟨none, none, none⟩
      ["id: svc\ntype: Kubernetes\n",
        "id: web\ntype: Kubernetes\nextensions:\n  kusion.io/is-workload: 'true'\n"]
      (some "labels:\n  team: a\n")]

def shopContributions : List Contribution :=
  [⟨⟨⟨"acme/network@1"⟩, [.new "net" .terraform []]⟩, none, none⟩,
    ⟨⟨⟨"acme/service@1"⟩, [.new "svc" .kubernetes [],
      { Resource.new "web" .kubernetes [] with
        extensions := [("kusion.io/is-workload", .string "true")] }]⟩, none,
      some ⟨some [("team", "a")], none, none, none, none, none⟩⟩]

def shopResults : ModuleResults :=
  ⟨some (Resource.new "web" .kubernetes []).asWorkload,
    [.new "net" .terraform [], .new "svc" .kubernetes []],
    [⟨some [("team", "a")], none, none, none, none, none⟩]⟩

theorem exists_assembled_of_text_mark :
    (shopDeliveries.map Delivery.key).Nodup ∧
      addAll (some ⟨"acme/service@1"⟩) .empty shopDeliveries = .ok shopResults ∧
      ∃ contributions workload others, Assembled (some ⟨"acme/service@1"⟩) shopDeliveries
        contributions workload others shopResults := by
  have hdistinct : (shopDeliveries.map Delivery.key).Nodup := by decide
  have hbrings : List.Forall₂ Delivery.Brings shopDeliveries shopContributions :=
    .cons (Delivery.brings_ofTexts (by decide +kernel) rfl)
      (.cons (Delivery.brings_ofTexts (by decide +kernel) (by decide +kernel)) .nil)
  have hadded : addAll (some ⟨"acme/service@1"⟩) .empty shopDeliveries = .ok shopResults :=
    addAll_eq_ok_iff.mpr ⟨shopContributions, hbrings, by decide +kernel⟩
  exact ⟨hdistinct, hadded, (exists_assembled _ _ _ hdistinct hadded).1⟩

end ModuleResults

end ResourceGraph
