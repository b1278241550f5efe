import Mathlib.Data.List.Forall2
import ResourceGraph.Proofs.Generation.Lifecycle
import ResourceGraph.Proofs.Generation.Passes
import ResourceGraph.Proofs.Plugin.Wire
import ResourceGraph.Proofs.Resource.Untouched

namespace ResourceGraph

variable {σ : Type}

structure Answer where
  key : ModuleKey
  resources : List Resource

def Answer.all (answers : List Answer) : List Resource := answers.flatMap Answer.resources

/-- The answers that accepted visits brought. -/
inductive Answered : List Visit → List Answer → Prop
  | nil : Answered [] []
  | cons {key : ModuleKey} {call : Call} {response : Response} {resources : List Resource}
      {visits : List Visit} {answers : List Answer}
      (decoded : response.resources.mapM (ModuleResults.decodeResource key) = .ok resources)
      (more : Answered visits answers) :
      Answered (⟨key, .accepted call response⟩ :: visits) (⟨key, resources⟩ :: answers)

/-- The workload is the only resource of its module, or the first one that is marked. -/
def Chosen (before : List Resource) (workload : Resource) (after : List Resource) : Prop :=
  (before = [] ∧ after = []) ∨
    (workload.isWorkload = true ∧ ∀ r ∈ before, r.isWorkload = false)

def NoneChosen (resources : List Resource) : Prop :=
  resources.length ≠ 1 ∧ ∀ r ∈ resources, r.isWorkload = false

/-- The workload among answers, if there is one, and all other resources. -/
inductive Gathered (workloadKey : Option ModuleKey) (answers : List Answer) :
    Option Resource → List Resource → Prop
  | chosen {earlier later : List Answer} {key : ModuleKey} {before after : List Resource}
      {workload : Resource}
      (split : answers = earlier ++ ⟨key, before ++ workload :: after⟩ :: later)
      (key_eq : workloadKey = some key)
      (rule : Chosen before workload after) :
      Gathered workloadKey answers (some workload)
        (Answer.all earlier ++ (before ++ after) ++ Answer.all later)
  | unchosen (rule : ∀ a ∈ answers, workloadKey = some a.key → NoneChosen a.resources) :
      Gathered workloadKey answers none (Answer.all answers)

theorem Answer.all_append (earlier later : List Answer) :
    Answer.all (earlier ++ later) = Answer.all earlier ++ Answer.all later :=
  List.flatMap_append

theorem Answer.all_singleton (a : Answer) : Answer.all [a] = a.resources :=
  List.flatMap_singleton _ _

theorem ModuleResults.splitWorkload_cases (resources : List Resource) :
    (∃ before workload after, resources = before ++ workload :: after ∧
        Chosen before workload after ∧
        splitWorkload resources = (some workload, before ++ after)) ∨
      (NoneChosen resources ∧ splitWorkload resources = (none, resources)) := by
  by_cases hsingle : ∃ r, resources = [r]
  · obtain ⟨r, rfl⟩ := hsingle
    exact .inl ⟨[], r, [], rfl, .inl ⟨rfl, rfl⟩, rfl⟩
  · have hlength : resources.length ≠ 1 := fun h => hsingle (List.length_eq_one_iff.mp h)
    have hsplit : splitWorkload resources =
        (resources.find? Resource.isWorkload, resources.eraseP Resource.isWorkload) := by
      unfold splitWorkload
      split
      · exact absurd rfl hlength
      · rfl
    rw [hsplit]
    cases hfind : resources.find? Resource.isWorkload with
    | none =>
        have hunmarked := List.find?_eq_none.mp hfind
        refine .inr ⟨⟨hlength, fun r hr => by simpa using hunmarked r hr⟩, ?_⟩
        rw [List.eraseP_of_forall_not hunmarked]
    | some workload =>
        obtain ⟨hmarked, before, after, rfl, hbefore⟩ := List.find?_eq_some_iff_append.mp hfind
        have hunmarked : ∀ r ∈ before, r.isWorkload = false := by
          intro r hr
          simpa using hbefore r hr
        refine .inl ⟨before, workload, after, rfl, .inr ⟨hmarked, hunmarked⟩, ?_⟩
        rw [List.eraseP_append_right _ fun r hr => by simp [hunmarked r hr],
          List.eraseP_cons_of_pos hmarked]

namespace Gathered

variable {workloadKey : Option ModuleKey} {answers : List Answer} {workload : Option Resource}
  {others : List Resource}

theorem append_other (h : Gathered workloadKey answers workload others) {a : Answer}
    (other : workloadKey ≠ some a.key) :
    Gathered workloadKey (answers ++ [a]) workload (others ++ a.resources) := by
  cases h with
  | @chosen earlier later key before after w split key_eq rule =>
      have hsplit : answers ++ [a] =
          earlier ++ ⟨key, before ++ w :: after⟩ :: (later ++ [a]) := by
        rw [split, List.append_assoc, List.cons_append]
      have hall := Gathered.chosen hsplit key_eq rule
      rwa [Answer.all_append, Answer.all_singleton, ← List.append_assoc] at hall
  | unchosen rule =>
      rw [← Answer.all_singleton a, ← Answer.all_append]
      refine .unchosen fun b hb hkey => ?_
      rcases List.mem_append.mp hb with hb | hb
      · exact rule b hb hkey
      · obtain rfl := List.mem_singleton.mp hb
        exact absurd hkey other

theorem eq_none (h : Gathered workloadKey answers workload others)
    (fresh : ∀ a ∈ answers, workloadKey ≠ some a.key) :
    workload = none ∧ others = Answer.all answers := by
  cases h with
  | chosen split key_eq rule => 
      rw [split] at fresh
      exact absurd key_eq (fresh _ (List.mem_append_right _ List.mem_cons_self))
  | unchosen rule => exact ⟨rfl, rfl⟩

theorem append_workload (h : Gathered workloadKey answers workload others) {a : Answer}
    (key_eq : workloadKey = some a.key) (fresh : ∀ b ∈ answers, b.key ≠ a.key) :
    workload = none ∧ Gathered workloadKey (answers ++ [a])
      (ModuleResults.splitWorkload a.resources).1
      (others ++ (ModuleResults.splitWorkload a.resources).2) := by
  have hfresh : ∀ b ∈ answers, workloadKey ≠ some b.key := by
    intro b hb he
    exact fresh b hb (Option.some.inj (he.symm.trans key_eq))
  obtain ⟨rfl, rfl⟩ := h.eq_none hfresh
  refine ⟨rfl, ?_⟩
  rcases ModuleResults.splitWorkload_cases a.resources with
    ⟨before, w, after, hresources, hrule, hsplit⟩ | ⟨hrule, hsplit⟩
  · have hanswers : answers ++ [a] = answers ++ ⟨a.key, before ++ w :: after⟩ :: [] := by
      rw [← hresources]
    have hall := Gathered.chosen hanswers key_eq hrule
    rw [hsplit]
    rwa [show Answer.all [] = [] from rfl, List.append_nil] at hall
  · rw [hsplit]
    change Gathered workloadKey (answers ++ [a]) none (Answer.all answers ++ a.resources)
    rw [← Answer.all_singleton a, ← Answer.all_append]
    refine .unchosen fun b hb hkey => ?_
    rcases List.mem_append.mp hb with hb | hb
    · exact absurd hkey (hfresh b hb)
    · obtain rfl := List.mem_singleton.mp hb
      exact hrule

end Gathered

/-- Results of modules agree with the workload and the other resources of their answers, up to notes
and the mark of the workload. -/
structure ModuleResults.Holds (a : ModuleResults) (workload : Option Resource)
    (others : List Resource) : Prop where
  workload_face : a.workload.map Resource.face =
    workload.map fun r => (r.id, r.type, true)
  others_face : a.resources.map Resource.face = others.map Resource.face

/-- Results of modules also keep what was in the other resources. -/
structure ModuleResults.Keeps (a : ModuleResults) (workload : Option Resource)
    (others : List Resource) : Prop extends a.Holds workload others where
  others_untouched : List.Forall₂ Resource.Untouched others a.resources

namespace ModuleResults

theorem map_face_applyPolicy (policy : Option HealthPolicy) (resources : List Resource) :
    (applyPolicy policy resources).map Resource.face = resources.map Resource.face := by
  cases policy with
  | none => rfl
  | some p =>
      rw [applyPolicy, List.map_map]
      refine List.map_congr_left fun r _ => ?_
      simp only [Function.comp_apply]
      split
      · exact r.face_withHealthPolicy p
      · rfl

theorem forall₂_applyPolicy {holds : Resource → Resource → Prop}
    (hone : ∀ r r' p, holds r r' → holds r (r'.withHealthPolicy p))
    {others resources : List Resource} (h : List.Forall₂ holds others resources)
    (policy : Option HealthPolicy) :
    List.Forall₂ holds others (applyPolicy policy resources) := by
  cases policy with
  | none => exact h
  | some p =>
      rw [applyPolicy, List.forall₂_map_right_iff]
      refine h.imp fun r r' hr => ?_
      split
      · exact hone r r' p hr
      · exact hr

theorem untouched_applyPolicy {others resources : List Resource}
    (h : List.Forall₂ Resource.Untouched others resources) (policy : Option HealthPolicy) :
    List.Forall₂ Resource.Untouched others (applyPolicy policy resources) :=
  forall₂_applyPolicy (fun _ r' p hr => hr.trans (r'.untouched_withHealthPolicy p)) h policy

theorem face_markedWorkload (policy : Option HealthPolicy) (r : Resource) :
    (markedWorkload policy r).face = (r.id, r.type, true) := by
  have hmarked : r.asWorkload.face = (r.id, r.type, true) := by
    rw [Resource.face, Resource.isWorkload_asWorkload]
    rfl
  cases policy with
  | none => exact hmarked
  | some p => exact (r.asWorkload.face_withHealthPolicy p).trans hmarked

theorem Holds.addResources {a : ModuleResults} {workload : Option Resource}
    {others : List Resource} (h : a.Holds workload others) (policy : Option HealthPolicy)
    (decoded : List Resource) :
    (a.addResources false policy decoded).Holds workload (others ++ decoded) := by
  constructor
  · exact h.workload_face
  · change (applyPolicy policy (a.resources ++ decoded)).map Resource.face = _
    rw [map_face_applyPolicy, List.map_append, List.map_append, h.others_face]

theorem Holds.addWorkload {a : ModuleResults} {others : List Resource} (h : a.Holds none others)
    (policy : Option HealthPolicy) (decoded : List Resource) :
    (a.addResources true policy decoded).Holds (splitWorkload decoded).1
      (others ++ (splitWorkload decoded).2) := by
  have hnone : a.workload = none := by simpa using h.workload_face
  constructor
  · simp only [ModuleResults.addResources, if_true, hnone, Option.or_none, Option.map_map]
    congr 1
    funext r
    exact face_markedWorkload policy r
  · simp only [ModuleResults.addResources, if_true, map_face_applyPolicy, List.map_append,
      h.others_face]

theorem untouched_append {others resources : List Resource}
    (h : List.Forall₂ Resource.Untouched others resources) (added : List Resource) :
    List.Forall₂ Resource.Untouched (others ++ added) (resources ++ added) :=
  List.rel_append h (List.forall₂_same.mpr fun r _ => .refl r)

theorem Keeps.addResources {a : ModuleResults} {workload : Option Resource}
    {others : List Resource} (h : a.Keeps workload others) (policy : Option HealthPolicy)
    (decoded : List Resource) :
    (a.addResources false policy decoded).Keeps workload (others ++ decoded) :=
  ⟨h.toHolds.addResources policy decoded,
    untouched_applyPolicy (untouched_append h.others_untouched _) policy⟩

theorem Keeps.addWorkload {a : ModuleResults} {others : List Resource} (h : a.Keeps none others)
    (policy : Option HealthPolicy) (decoded : List Resource) :
    (a.addResources true policy decoded).Keeps (splitWorkload decoded).1
      (others ++ (splitWorkload decoded).2) :=
  ⟨h.toHolds.addWorkload policy decoded,
    untouched_applyPolicy (untouched_append h.others_untouched _) policy⟩

end ModuleResults

section Run

variable {rules : PoolRules σ} {base : RequestBase} {workloadKey : Option ModuleKey}

theorem Visited.exists_answer {key : ModuleKey} {briefing : Briefing} {a a' : ModuleResults}
    {w w' : World σ} {ending : Ending} {answers : List Answer} {workload : Option Resource}
    {others : List Resource}
    (h : Visited rules base workloadKey key briefing a w ending a' w')
    (succeeds : ending.error? = none) (gathered : Gathered workloadKey answers workload others)
    (keeps : a.Keeps workload others) (fresh : ∀ b ∈ answers, b.key ≠ key) :
    ∃ call response resources workload' others', ending = .accepted call response ∧
      response.resources.mapM (ModuleResults.decodeResource key) = .ok resources ∧
      Gathered workloadKey (answers ++ [⟨key, resources⟩]) workload' others' ∧
      a'.Keeps workload' others' := by
  cases h with
  | unwritable _ => exact nomatch succeeds
  | notStarted _ _ => exact nomatch succeeds
  | failed _ _ _ => exact nomatch succeeds
  | rejected _ _ _ _ => exact nomatch succeeds
  | @accepted request response decoded patcher plugins called _ _ _ carries =>
      have hdecoded := Except.mapM_eq_ok_iff.mpr carries.resources_eq
      by_cases hkey : workloadKey = some key
      · obtain ⟨rfl, hgathered⟩ := gathered.append_workload (a := ⟨key, decoded⟩) hkey fresh
        have hkeeps := keeps.addWorkload briefing.healthPolicy decoded
        refine ⟨_, _, decoded, _, _, rfl, hdecoded, hgathered, ?_⟩
        rw [hkey, beq_self_eq_true]
        exact ⟨⟨hkeeps.workload_face, hkeeps.others_face⟩, hkeeps.others_untouched⟩
      · have hkeeps := keeps.addResources briefing.healthPolicy decoded
        refine ⟨_, _, decoded, _, _, rfl, hdecoded,
          gathered.append_other (a := ⟨key, decoded⟩) hkey, ?_⟩
        rw [beq_false_of_ne hkey]
        exact ⟨⟨hkeeps.workload_face, hkeeps.others_face⟩, hkeeps.others_untouched⟩

theorem Visits.exists_answers {briefings : Briefings} {a a' : ModuleResults} {w w' : World σ}
    {visits : List Visit} (h : Visits rules base workloadKey briefings a w visits a' w')
    (succeed : ∀ v ∈ visits, v.error? = none) (sorted : briefings.Sorted)
    {earlier : List Answer} {workload : Option Resource} {others : List Resource}
    (gathered : Gathered workloadKey earlier workload others) (keeps : a.Keeps workload others)
    (fresh : ∀ b ∈ earlier, b.key.text ∉ Dict.keys briefings) :
    ∃ answers workload' others', Answered visits answers ∧
      Gathered workloadKey (earlier ++ answers) workload' others' ∧ a'.Keeps workload' others' := by
  induction h generalizing earlier workload others with
  | done =>
      refine ⟨[], workload, others, .nil, ?_, keeps⟩
      rwa [List.append_nil]
  | stopped _ fails =>
      have hnone : Ending.error? _ = none := succeed _ List.mem_cons_self
      rw [hnone] at fails
      exact nomatch fails
  | @next text briefing rest a a' a'' w w' w'' ending visits visited succeeds more ih =>
      have hfresh : ∀ b ∈ earlier, b.key ≠ ⟨text⟩ := by
        rintro b hb hkey
        exact fresh b hb (by simp [hkey, Dict.keys])
      obtain ⟨call, response, resources, workload', others', rfl, hdecoded, hgathered, hkeeps⟩ :=
        visited.exists_answer succeeds gathered keeps hfresh
      have hlater : ∀ b ∈ earlier ++ [⟨⟨text⟩, resources⟩], b.key.text ∉ Dict.keys rest := by
        intro b hb hmem
        rcases List.mem_append.mp hb with hb | hb
        · exact fresh b hb (List.mem_cons_of_mem _ hmem)
        · obtain rfl := List.mem_singleton.mp hb
          exact String.lt_irrefl text (sorted.cons_lt text hmem)
      obtain ⟨answers, workload'', others'', hanswered, hall, hend⟩ :=
        ih (fun v hv => succeed v (List.mem_cons_of_mem _ hv)) sorted.tail hgathered hkeeps hlater
      refine ⟨⟨⟨text⟩, resources⟩ :: answers, workload'', others'', .cons hdecoded hanswered, ?_,
        hend⟩
      rwa [List.append_assoc] at hall

end Run

theorem Answered.map_key {visits : List Visit} {answers : List Answer}
    (h : Answered visits answers) : answers.map Answer.key = visits.map Visit.key := by
  induction h with
  | nil => rfl
  | cons _ _ ih => rw [List.map_cons, List.map_cons, ih]

end ResourceGraph
