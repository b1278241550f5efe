import ResourceGraph.Proofs.ModuleResults.Contributions

/-!
Which health policy a resource follows. A policy reaches the Kubernetes resources that it names among
those that have arrived, its own module's included, and a later one takes the place of an earlier one.
The workload follows the policy of its own module alone.
-/

namespace ResourceGraph

def textAt (table : Dict Json) (name : String) : String :=
  match table.get? name with
  | some (.string s) => s
  | _ => ""

def SameIgnoringCase (a b : String) : Prop := a.toList.map Char.toLower = b.toList.map Char.toLower

/-- A policy is made for resources of this version and kind. -/
structure HealthPolicy.Names (p : HealthPolicy) (r : Resource) : Prop where
  apiVersion : SameIgnoringCase (textAt r.attributes "apiVersion") (textAt p.fields "apiVersion")
  kind : SameIgnoringCase (textAt r.attributes "kind") (textAt p.fields "kind")

/-- A resource, and what becomes of it under policies that come one after the other: the last one
that names it is attached as a whole. -/
inductive Resource.Follows (policies : List HealthPolicy) (r : Resource) : Resource → Prop
  | terraform (type_eq : r.type = .terraform) : Follows policies r r
  | last {earlier later : List HealthPolicy} {p : HealthPolicy} (type_eq : r.type = .kubernetes)
      (split : policies = earlier ++ p :: later) (names : p.Names r)
      (final : ∀ q ∈ later, ¬q.Names r) :
      Follows policies r
        { r with extensions := r.extensions.insert healthPolicy (.object p.fields) }
  | own (type_eq : r.type = .kubernetes) (unnamed : ∀ p ∈ policies, ¬p.Names r) :
      Follows policies r r

/-- The health policy of a workload is that of its own module, or the one that it came with. -/
def Resource.FollowsOwn (policy : Option HealthPolicy) (r r' : Resource) : Prop :=
  r'.extensions.get? healthPolicy =
    (policy.map fun p => .object p.fields).or (r.extensions.get? healthPolicy)

/-- The workload of a contribution, if it holds the workload, and all its other resources. -/
inductive Contribution.Parted (workloadKey : Option ModuleKey) (c : Contribution) :
    Option Resource → List Resource → Prop
  | chosen {before after : List Resource} {workload : Resource} (key_eq : workloadKey = some c.key)
      (resources_eq : c.resources = before ++ workload :: after)
      (rule : Chosen before workload after) : Parted workloadKey c (some workload) (before ++ after)
  | unchosen (rule : workloadKey = some c.key → NoneChosen c.resources) :
      Parted workloadKey c none c.resources

/-- What becomes of the resources of contributions that arrive in turn. A resource is under the policy
of its own module and of those that come later. -/
inductive Ruled (workloadKey : Option ModuleKey) (final : Option Resource) :
    List Contribution → List (List Resource) → Prop
  | nil : Ruled workloadKey final [] []
  | cons {c : Contribution} {later : List Contribution} {workload : Option Resource}
      {plain part : List Resource} {parts : List (List Resource)}
      (parted : c.Parted workloadKey workload plain)
      (follow : List.Forall₂ (Resource.Follows ((c :: later).filterMap Contribution.policy)) plain part)
      (own : workloadKey = some c.key → Option.Rel (Resource.FollowsOwn c.policy) workload final)
      (more : Ruled workloadKey final later parts) :
      Ruled workloadKey final (c :: later) (part :: parts)

namespace HealthPolicy

variable {p : HealthPolicy} {r : Resource}

theorem ofJson?_eq_some_iff {value : Json} : ofJson? value = some p ↔ value = .object p.fields := by
  unfold ofJson?
  split
  · obtain ⟨fields⟩ := p
    simp
  · next h =>
    constructor
    · exact nofun
    · rintro rfl
      exact absurd rfl (h _)

theorem getD_asString? (table : Dict Json) (name : String) :
    ((table.get? name).bind Json.asString?).getD "" = textAt table name := by
  rw [textAt]
  cases table.get? name with
  | none => rfl
  | some value => cases value <;> rfl

theorem equalIgnoringCase_iff {a b : String} :
    equalIgnoringCase a b = true ↔ SameIgnoringCase a b := by
  have hlower : ∀ s : String, s.toLower.toList = s.toList.map Char.toLower :=
    fun _ => String.toList_map
  rw [equalIgnoringCase, beq_iff_eq, ← String.toList_inj, hlower, hlower, SameIgnoringCase]

theorem appliesTo_iff : p.appliesTo r = true ↔ r.type = .kubernetes ∧ p.Names r := by
  simp only [appliesTo, apiVersion, kind, textField, Resource.apiVersion?, Resource.kind?,
    getD_asString?, Bool.and_eq_true, beq_iff_eq, equalIgnoringCase_iff]
  constructor
  · rintro ⟨⟨htype, hversion⟩, hkind⟩
    exact ⟨htype, hversion, hkind⟩
  · rintro ⟨htype, hversion, hkind⟩
    exact ⟨⟨htype, hversion⟩, hkind⟩

end HealthPolicy

theorem Briefing.healthPolicy_eq_some_iff {b : Briefing} {config : Option Config}
    (h : b.platform = config.map Platform.ofConfig) {p : HealthPolicy} :
    b.healthPolicy = some p ↔
      ∃ entries, config = some entries ∧ entries.get? "healthPolicy" = some (.object p.fields) := by
  rw [healthPolicy, h]
  cases config with
  | none => simp
  | some entries =>
      simp [Platform.ofConfig, Option.bind_eq_some_iff, HealthPolicy.ofJson?_eq_some_iff]

theorem Contribution.policies_cons (c : Contribution) (later : List Contribution) :
    (c :: later).filterMap policy = c.policy.toList ++ later.filterMap policy := by
  rw [List.filterMap_cons]
  cases c.policy <;> rfl

theorem Contribution.parted_split (workloadKey : Option ModuleKey) (c : Contribution) :
    c.Parted workloadKey (c.split workloadKey).1 (c.split workloadKey).2 := by
  rw [split]
  by_cases hkey : workloadKey = some c.key
  · rw [if_pos hkey]
    rcases ModuleResults.splitWorkload_cases c.resources with
      ⟨before, workload, after, hresources, hrule, hsplit⟩ | ⟨hrule, hsplit⟩
    · rw [hsplit]
      exact .chosen hkey hresources hrule
    · rw [hsplit]
      exact .unchosen fun _ => hrule
  · rw [if_neg hkey]
    exact .unchosen fun heq => absurd heq hkey

namespace Resource

variable {policies : List HealthPolicy} {r r' : Resource}

def under (policies : List HealthPolicy) (r : Resource) : Resource :=
  policies.foldl (fun r p => if p.appliesTo r then r.withHealthPolicy p else r) r

theorem under_append (policies more : List HealthPolicy) (r : Resource) :
    r.under (policies ++ more) = (r.under policies).under more :=
  List.foldl_append

theorem Follows.next (h : r.Follows policies r') (p : HealthPolicy) :
    p.appliesTo r' = p.appliesTo r ∧ r'.withHealthPolicy p = r.withHealthPolicy p := by
  cases h with
  | terraform _ => exact ⟨rfl, rfl⟩
  | last _ _ _ _ =>
      refine ⟨rfl, ?_⟩
      simp only [withHealthPolicy, Dict.insert_insert]
  | own _ _ => exact ⟨rfl, rfl⟩

theorem Follows.append (h : r.Follows policies r') (p : HealthPolicy) :
    r.Follows (policies ++ [p]) (if p.appliesTo r' then r'.withHealthPolicy p else r') := by
  obtain ⟨happlies, hattached⟩ := h.next p
  rw [happlies, hattached]
  split
  · next hp =>
    obtain ⟨htype, hnames⟩ := HealthPolicy.appliesTo_iff.mp hp
    exact .last htype rfl hnames nofun
  · next hp =>
    cases h with
    | terraform htype => exact .terraform htype
    | @last earlier later q htype hsplit hnames hfinal =>
        refine .last htype (by rw [hsplit, List.append_assoc, List.cons_append]) hnames ?_
        intro q' hq'
        rcases List.mem_append.mp hq' with hq' | hq'
        · exact hfinal q' hq'
        · obtain rfl := List.mem_singleton.mp hq'
          exact fun hnamed => hp (HealthPolicy.appliesTo_iff.mpr ⟨htype, hnamed⟩)
    | own htype hunnamed =>
        refine .own htype ?_
        intro q hq
        rcases List.mem_append.mp hq with hq | hq
        · exact hunnamed q hq
        · obtain rfl := List.mem_singleton.mp hq
          exact fun hnamed => hp (HealthPolicy.appliesTo_iff.mpr ⟨htype, hnamed⟩)

theorem follows_under (policies : List HealthPolicy) (r : Resource) :
    r.Follows policies (r.under policies) := by
  induction policies using List.reverseRecOn with
  | nil =>
      cases htype : r.type with
      | kubernetes => exact .own htype nofun
      | terraform => exact .terraform htype
  | append_singleton earlier p ih =>
      rw [under, List.foldl_append]
      exact ih.append p

end Resource

namespace ModuleResults

variable {workloadKey : Option ModuleKey}

theorem applyPolicy_eq (policy : Option HealthPolicy) (resources : List Resource) :
    applyPolicy policy resources = resources.map (Resource.under policy.toList) := by
  cases policy with
  | none => exact (List.map_id _).symm
  | some p => rfl

/-- The resources of contributions, other than the workload, under the policies that reach them. -/
def settled (workloadKey : Option ModuleKey) : List Contribution → List (List Resource)
  | [] => []
  | c :: later =>
      (c.split workloadKey).2.map
        (Resource.under ((c :: later).filterMap Contribution.policy)) :: settled workloadKey later

theorem resources_foldl_contribute (contributions : List Contribution) (a : ModuleResults) :
    (contributions.foldl (contribute workloadKey) a).resources =
      a.resources.map (Resource.under (contributions.filterMap Contribution.policy)) ++
        (settled workloadKey contributions).flatten := by
  induction contributions generalizing a with
  | nil =>
      rw [settled, List.flatten_nil, List.append_nil]
      exact (List.map_id _).symm
  | cons c later ih =>
      have hunder : Resource.under (later.filterMap Contribution.policy) ∘
          Resource.under c.policy.toList =
            Resource.under ((c :: later).filterMap Contribution.policy) := by
        funext r
        rw [Contribution.policies_cons, Function.comp_apply, Resource.under_append]
      rw [List.foldl_cons, ih, contribute_eq, applyPolicy_eq, List.map_map, hunder, List.map_append,
        List.append_assoc, settled, List.flatten_cons]

theorem workload_foldl_contribute {contributions : List Contribution}
    (other : ∀ c ∈ contributions, workloadKey ≠ some c.key) (a : ModuleResults) :
    (contributions.foldl (contribute workloadKey) a).workload = a.workload := by
  induction contributions generalizing a with
  | nil => rfl
  | cons c later ih =>
      obtain ⟨hother, hlater⟩ := List.forall_mem_cons.mp other
      rw [List.foldl_cons, ih hlater, contribute_eq, Contribution.split, if_neg hother]
      rfl

theorem followsOwn_markedWorkload (policy : Option HealthPolicy) (r : Resource) :
    r.FollowsOwn policy (markedWorkload policy r) := by
  cases policy with
  | none => exact Dict.get?_insert_of_ne _ _ (by decide)
  | some p => exact Dict.get?_insert_self _ _ _

/-- No other module has a say in the workload. -/
theorem followsOwn_workload {contributions : List Contribution} {c : Contribution}
    (distinct : (contributions.map fun c => c.key).Nodup) (hc : c ∈ contributions)
    (hkey : workloadKey = some c.key) :
    Option.Rel (Resource.FollowsOwn c.policy) (c.split workloadKey).1
      (contributions.foldl (contribute workloadKey) .empty).workload := by
  obtain ⟨earlier, later, rfl⟩ := List.append_of_mem hc
  rw [List.map_append, List.map_cons] at distinct
  obtain ⟨-, hlater, hearlier⟩ := List.nodup_append.mp distinct
  have hbefore : ∀ b ∈ earlier, workloadKey ≠ some b.key := by
    intro b hb heq
    exact hearlier _ (List.mem_map_of_mem hb) _ List.mem_cons_self
      (Option.some.inj (heq.symm.trans hkey))
  have hafter : ∀ b ∈ later, workloadKey ≠ some b.key := by
    intro b hb heq
    refine (List.nodup_cons.mp hlater).1 ?_
    rw [← Option.some.inj (heq.symm.trans hkey)]
    exact List.mem_map_of_mem hb
  rw [List.foldl_append, List.foldl_cons, workload_foldl_contribute hafter, contribute_eq,
    workload_foldl_contribute hbefore]
  cases (c.split workloadKey).1 with
  | none => exact .none
  | some w => exact .some (followsOwn_markedWorkload c.policy w)

theorem ruled_settled {final : Option Resource} {contributions : List Contribution}
    (own : ∀ c ∈ contributions, workloadKey = some c.key →
      Option.Rel (Resource.FollowsOwn c.policy) (c.split workloadKey).1 final) :
    Ruled workloadKey final contributions (settled workloadKey contributions) := by
  induction contributions with
  | nil => exact .nil
  | cons c later ih =>
      obtain ⟨hown, hlater⟩ := List.forall_mem_cons.mp own
      refine .cons (c.parted_split workloadKey) ?_ hown (ih hlater)
      rw [List.forall₂_map_right_iff]
      exact List.forall₂_same.mpr fun r _ => r.follows_under _

/-- When responses of distinct modules are all added, each Kubernetes resource other than the workload
ends with the last policy that names it, of its own module or of a later one, and otherwise with what
it came with; the workload ends with the policy of its own module, if there is one. A policy is the
table that the configuration of a platform holds, and no other value. -/
theorem exists_ruled (workloadKey : Option ModuleKey) (deliveries : List Delivery)
    (a : ModuleResults) (distinct : (deliveries.map Delivery.key).Nodup)
    (h : addAll workloadKey .empty deliveries = .ok a) :
    (∃ contributions parts, List.Forall₂ Delivery.Brings deliveries contributions ∧
      Ruled workloadKey a.workload contributions parts ∧ a.resources = parts.flatten ∧
      ((∀ c ∈ contributions, workloadKey ≠ some c.key) → a.workload = none)) ∧
    ∀ d ∈ deliveries, ∀ config : Option Config, d.briefing.platform = config.map .ofConfig →
      ∀ p, d.briefing.healthPolicy = some p ↔
        ∃ entries, config = some entries ∧
          entries.get? "healthPolicy" = some (.object p.fields) := by
  constructor
  · obtain ⟨contributions, hbrings, rfl⟩ := addAll_eq_ok_iff.mp h
    rw [← Delivery.map_key_of_brings hbrings] at distinct
    refine ⟨contributions, settled workloadKey contributions, hbrings, ?_, ?_, ?_⟩
    · exact ruled_settled fun c hc hkey => followsOwn_workload distinct hc hkey
    · exact resources_foldl_contribute contributions .empty
    · exact fun hother => workload_foldl_contribute hother .empty
  · intro d _ config hconfig p
    exact Briefing.healthPolicy_eq_some_iff hconfig

def jobDocument (id type : String) : String :=
  "id: " ++ id ++ "\ntype: " ++ type ++ "\nattributes:\n  kind: Job\n"

def job (id : String) (type : ResourceType) : Resource :=
  .new id type [("kind", .string "Job")]

def jobPolicy (check : String) : HealthPolicy :=
  ⟨[("apiVersion", .number (.int 1)), ("check", .string check), ("kind", .string "JOB")]⟩

def jobBriefing (check : String) : Briefing :=
  ⟨none, some (.ofConfig [("healthPolicy", .object (jobPolicy check).fields)]), none⟩

def jobDeliveries : List Delivery :=
  [.ofTexts ⟨"acme/first@1"⟩ (jobBriefing "one") [jobDocument "a" "Kubernetes"] none,
    .ofTexts ⟨"acme/main@1"⟩ (jobBriefing "two") [jobDocument "b" "Kubernetes"] none,
    .ofTexts ⟨"acme/more@1"⟩ (jobBriefing "three") [jobDocument "c" "Terraform"] none,
    .ofTexts ⟨"acme/next@1"⟩ ⟨none, none, none⟩ [jobDocument "d" "Kubernetes"] none]

def jobContributions : List Contribution :=
  [⟨⟨⟨"acme/first@1"⟩, [job "a" .kubernetes]⟩, some (jobPolicy "one"), none⟩,
    ⟨⟨⟨"acme/main@1"⟩, [job "b" .kubernetes]⟩, some (jobPolicy "two"), none⟩,
    ⟨⟨⟨"acme/more@1"⟩, [job "c" .terraform]⟩, some (jobPolicy "three"), none⟩,
    ⟨⟨⟨"acme/next@1"⟩, [job "d" .kubernetes]⟩, none, none⟩]

def jobResults : ModuleResults :=
  ⟨some ((job "b" .kubernetes).asWorkload.withHealthPolicy (jobPolicy "two")),
    [(job "a" .kubernetes).withHealthPolicy (jobPolicy "three"), job "c" .terraform,
      job "d" .kubernetes], []⟩

theorem appliesTo_jobPolicy (check : String) {r : Resource}
    (h : r.attributes = [("kind", .string "Job")]) :
    (jobPolicy check).appliesTo r = (r.type == .kubernetes) := by
  have hnames : (jobPolicy check).Names r := by
    constructor
    · rw [h]
      rfl
    · rw [h]
      change "Job".toList.map Char.toLower = "JOB".toList.map Char.toLower
      decide
  rw [Bool.eq_iff_iff, HealthPolicy.appliesTo_iff, beq_iff_eq]
  exact and_iff_left hnames

theorem exists_ruled_of_three_policies :
    (jobDeliveries.map Delivery.key).Nodup ∧
      addAll (some ⟨"acme/main@1"⟩) .empty jobDeliveries = .ok jobResults ∧
      ∃ contributions parts, List.Forall₂ Delivery.Brings jobDeliveries contributions ∧
        Ruled (some ⟨"acme/main@1"⟩) jobResults.workload contributions parts ∧
        jobResults.resources = parts.flatten := by
  have hdistinct : (jobDeliveries.map Delivery.key).Nodup := by decide
  have hbrings : List.Forall₂ Delivery.Brings jobDeliveries jobContributions :=
    .cons (Delivery.brings_ofTexts (by decide +kernel) rfl)
      (.cons (Delivery.brings_ofTexts (by decide +kernel) rfl)
        (.cons (Delivery.brings_ofTexts (by decide +kernel) rfl)
          (.cons (Delivery.brings_ofTexts (by decide +kernel) rfl) .nil)))
  have hadded : addAll (some ⟨"acme/main@1"⟩) .empty jobDeliveries = .ok jobResults := by
    refine addAll_eq_ok_iff.mpr ⟨jobContributions, hbrings, ?_⟩
    simp [jobContributions, jobResults, job, contribute_eq, Contribution.split, splitWorkload,
      markedWorkload, applyPolicy, appliesTo_jobPolicy, Resource.withHealthPolicy, Resource.new,
      Dict.insert_insert, empty]
  obtain ⟨contributions, parts, hcontributions, hruled, hresources, -⟩ :=
    (exists_ruled _ _ _ hdistinct hadded).1
  exact ⟨hdistinct, hadded, contributions, parts, hcontributions, hruled, hresources⟩

end ModuleResults

end ResourceGraph
