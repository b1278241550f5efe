import Mathlib.Data.List.Nodup
import Mathlib.Logic.Relation
import ResourceGraph.Proofs.Generation.Order

namespace ResourceGraph

open Relation

/-- A resource with the id `a` depends directly on the id `b`, which is among the resources. -/
def DependsOn (resources : List Resource) (a b : String) : Prop :=
  ∃ r ∈ resources, r.id = a ∧ b ∈ r.dependsOn ∧ b ∈ resources.map Resource.id

/-- No id depends on itself, however indirectly. -/
def Acyclic (resources : List Resource) : Prop := ∀ id, ¬TransGen (DependsOn resources) id id

namespace KindOrder

variable {kinds : KindOrder} {resources : List Resource} {a b : String} {c d r s : Resource}

theorem Below.trans_of_not_below (hs : kinds.Below s r) (hd : kinds.Below d c)
    (h : ¬kinds.Below d r) : kinds.Below s c := by
  obtain ⟨m, n, hm, hn, hlt⟩ := hs
  obtain ⟨p, q, hp, hq, hlt'⟩ := hd
  have hnp : ¬p < n := fun hpn => h ⟨p, n, hp, hn, hpn⟩
  exact ⟨m, q, hm, hq, by omega⟩

theorem not_below_self : ¬kinds.Below r r := by
  rintro ⟨m, n, hm, hn, hlt⟩
  obtain rfl := Option.some.inj (hm.symm.trans hn)
  exact Nat.lt_irrefl m hlt

theorem dependsOn_order_iff :
    DependsOn (kinds.order resources) a b ↔
      DependsOn resources a b ∨
        ∃ r ∈ resources, ∃ s ∈ resources, r.id = a ∧ s.id = b ∧ kinds.Below s r := by
  constructor
  · rintro ⟨r', hr', rfl, hdepends, hids⟩
    obtain ⟨r, hr, rfl⟩ := List.mem_map.mp hr'
    rw [order_map_id] at hids
    rw [(kinds.untouched_orderOne resources r).id_eq]
    rcases mem_dependsOn_orderOne_iff.mp hdepends with hold | ⟨s, hs, hbelow, rfl⟩
    · exact .inl ⟨r, hr, rfl, hold, hids⟩
    · exact .inr ⟨r, hr, s, hs, rfl, rfl, hbelow⟩
  · rintro (⟨r, hr, rfl, hold, hids⟩ | ⟨r, hr, s, hs, rfl, rfl, hbelow⟩)
    · refine ⟨_, List.mem_map_of_mem hr, (kinds.untouched_orderOne resources r).id_eq, ?_, ?_⟩
      · exact mem_dependsOn_orderOne_iff.mpr (.inl hold)
      · rwa [order_map_id]
    · refine ⟨_, List.mem_map_of_mem hr, (kinds.untouched_orderOne resources r).id_eq, ?_, ?_⟩
      · exact mem_dependsOn_orderOne_iff.mpr (.inr ⟨s, hs, hbelow, rfl⟩)
      · rw [order_map_id]
        exact List.mem_map_of_mem hs

/-- No ranked resource depends, directly or by way of others, on one of a strictly greater rank. -/
def Descends (kinds : KindOrder) (resources : List Resource) : Prop :=
  ∀ r ∈ resources, ∀ s ∈ resources, TransGen (DependsOn resources) r.id s.id → ¬kinds.Below r s

theorem Descends.not_below (h : kinds.Descends resources) (hids : (resources.map Resource.id).Nodup)
    (hr : r ∈ resources) (hs : s ∈ resources)
    (hpath : ReflTransGen (DependsOn resources) r.id s.id) : ¬kinds.Below r s := by
  rcases reflTransGen_iff_eq_or_transGen.mp hpath with heq | hpath
  · obtain rfl := List.inj_on_of_nodup_map hids hs hr heq
    exact not_below_self
  · exact h r hr s hs hpath

/-- A path after the pass is one from before, or it leads from a ranked resource to one of a smaller
rank, with paths from before in front and behind. -/
theorem Descends.path_order (h : kinds.Descends resources)
    (hids : (resources.map Resource.id).Nodup) (hpath : TransGen (DependsOn (kinds.order resources)) a b) :
    TransGen (DependsOn resources) a b ∨
      ∃ c ∈ resources, ∃ d ∈ resources, ReflTransGen (DependsOn resources) a c.id ∧
        ReflTransGen (DependsOn resources) d.id b ∧ kinds.Below d c := by
  induction hpath with
  | single hedge =>
      rcases dependsOn_order_iff.mp hedge with hold | ⟨r, hr, s, hs, rfl, rfl, hbelow⟩
      · exact .inl (.single hold)
      · exact .inr ⟨r, hr, s, hs, .refl, .refl, hbelow⟩
  | tail _ hedge ih =>
      rcases dependsOn_order_iff.mp hedge with hold | ⟨r, hr, s, hs, rfl, rfl, hbelow⟩
      · rcases ih with hpath | ⟨c, hc, d, hd, hfront, hback, hdc⟩
        · exact .inl (hpath.tail hold)
        · exact .inr ⟨c, hc, d, hd, hfront, hback.tail hold, hdc⟩
      · rcases ih with hpath | ⟨c, hc, d, hd, hfront, hback, hdc⟩
        · exact .inr ⟨r, hr, s, hs, hpath.to_reflTransGen, .refl, hbelow⟩
        · -- Between two added dependencies the rank does not grow.
          have hflat := h.not_below hids hd hr hback
          exact .inr ⟨c, hc, s, hs, hfront, .refl, hbelow.trans_of_not_below hdc hflat⟩

/-- Where ids are distinct, the pass leaves no cycle exactly when there was none and no ranked resource
depended, directly or not, on one of a greater rank. -/
theorem acyclic_order_iff (hids : (resources.map Resource.id).Nodup) :
    Acyclic (kinds.order resources) ↔
      Acyclic resources ∧ kinds.Descends resources := by
  have hmono : ∀ {a b}, TransGen (DependsOn resources) a b →
      TransGen (DependsOn (kinds.order resources)) a b :=
    fun hpath => TransGen.mono (fun _ _ hedge => dependsOn_order_iff.mpr (.inl hedge)) _ _ hpath
  constructor
  · intro h
    constructor
    · intro id hcycle
      exact h id (hmono hcycle)
    · intro r hr s hs hpath hbelow
      have hback : DependsOn (kinds.order resources) s.id r.id :=
        dependsOn_order_iff.mpr (.inr ⟨s, hs, r, hr, rfl, rfl, hbelow⟩)
      exact h r.id ((hmono hpath).tail hback)
  · rintro ⟨hacyclic, hdescends⟩ id hcycle
    rcases hdescends.path_order hids hcycle with hpath | ⟨c, hc, d, hd, hfront, hback, hbelow⟩
    · exact hacyclic id hpath
    · exact hdescends.not_below hids hd hc (hback.trans hfront) hbelow

end KindOrder

theorem acyclic_of_measure {resources : List Resource} (f : String → Nat)
    (hf : ∀ a b, DependsOn resources a b → f b < f a) : Acyclic resources := by
  intro id hcycle
  have hlt : ∀ b, TransGen (DependsOn resources) id b → f b < f id := by
    intro b hpath
    induction hpath with
    | single hedge => exact hf _ _ hedge
    | tail _ hedge ih => exact Nat.lt_trans (hf _ _ hedge) ih
  exact Nat.lt_irrefl _ (hlt id hcycle)

namespace KindOrder

def climbing : List Resource :=
  [{ Resource.new "svc" .kubernetes [("kind", .string "Service")] with dependsOn := ["tf"] },
    { Resource.new "tf" .terraform [] with dependsOn := ["deploy"] },
    .new "deploy" .kubernetes [("kind", .string "Deployment")]]

theorem acyclic_order_of_climbing :
    (climbing.map Resource.id).Nodup ∧ Acyclic climbing ∧ ¬Acyclic (order standard climbing) := by
  have hids : (climbing.map Resource.id).Nodup := by decide +kernel
  have hfirst : DependsOn climbing "svc" "tf" := ⟨_, .head _, rfl, by decide, by decide⟩
  have hsecond : DependsOn climbing "tf" "deploy" :=
    ⟨_, .tail _ (.head _), rfl, by decide, by decide⟩
  refine ⟨hids, ?_, ?_⟩
  · apply acyclic_of_measure fun id => if id = "svc" then 2 else if id = "tf" then 1 else 0
    rintro a b ⟨r, hr, rfl, hb, -⟩
    have hall : ∀ r ∈ climbing, ∀ b ∈ r.dependsOn,
        (if b = "svc" then 2 else if b = "tf" then 1 else 0) <
          (if r.id = "svc" then 2 else if r.id = "tf" then 1 else 0) := by decide +kernel
    exact hall r hr b hb
  · intro hacyclic
    have hbelow : Below standard climbing[0] climbing[2] := ⟨13, 18, by decide, by decide, by decide⟩
    exact ((acyclic_order_iff hids).mp hacyclic).2 climbing[0] (by decide) climbing[2] (by decide)
      (.tail (.single hfirst) hsecond) hbelow

end KindOrder

end ResourceGraph
