import ResourceGraph.Dependency.Key
import ResourceGraph.Proofs.ModuleKey
import ResourceGraph.Proofs.Outcome
import ResourceGraph.Proofs.Text.Segments

namespace ResourceGraph

open Text

namespace GitSource

/-- What may follow the name of a repository. -/
def suffix : List Char := ['.', 'g', 'i', 't']

theorem location_of_suffix {s : GitSource} {rest : List Char}
    (h : s.url.toList = rest ++ suffix) : s.location = rest := by
  have hdrop : dropStart? ['t', 'i', 'g', '.'] s.url.toList.reverse = some rest.reverse := by
    rw [dropStart?_eq_some_iff, h, List.reverse_append]
    rfl
  simp [location, hdrop]

theorem location_of_not_suffix {s : GitSource} (h : ¬ suffix <:+ s.url.toList) :
    s.location = s.url.toList := by
  cases hdrop : dropStart? ['t', 'i', 'g', '.'] s.url.toList.reverse with
  | none => simp [location, hdrop]
  | some rest =>
      refine absurd ⟨rest.reverse, ?_⟩ h
      rw [← List.reverse_inj, dropStart?_eq_some_iff.mp hdrop, List.reverse_append,
        List.reverse_reverse]
      rfl

theorem key?_of_segments {s : GitSource} {parts : List (List Char)}
    {organisation repository : String}
    (h : s.segments = parts ++ [organisation.toList, repository.toList]) :
    s.key? = some (.new (organisation ++ "/" ++ repository) s.tag) := by
  have hlast : lastTwo? s.segments = some (organisation.toList, repository.toList) := by
    simp [lastTwo?, h]
  have hsource : String.ofList (organisation.toList ++ '/' :: repository.toList) =
      organisation ++ "/" ++ repository := by
    apply String.toList_injective
    simp
  simp only [key?, hlast, Option.map_some, hsource]

abbrev slashes (n : Nat) : List Char := List.replicate n '/'

theorem slashes_succ (n : Nat) : slashes (n + 1) = slashes n ++ ['/'] := List.replicate_succ'

theorem not_suffix_of_trailing (cs : List Char) (n : Nat) :
    ¬ suffix <:+ cs ++ slashes (n + 1) := by
  rw [slashes_succ, ← List.append_assoc]
  intro h
  have hslash : '/' ∉ suffix := by decide
  have hnil := isSuffix_of_append_cons hslash h
  exact absurd (List.suffix_nil.mp hnil) (by decide)

/-- A repository of an organisation, and the choices of who writes its URL: what stands in front,
how many slashes more than one separate the segments, whether there is a suffix, and how many
slashes follow. -/
structure Spelling where
  front : String
  organisation : String
  repository : String
  beforeOrganisation : Nat
  beforeRepository : Nat
  suffixed : Bool
  trailing : Nat
  organisation_named : organisation ≠ ""
  organisation_slashless : '/' ∉ organisation.toList
  repository_named : repository ≠ ""
  repository_slashless : '/' ∉ repository.toList
  repository_unsuffixed : ¬ suffix <:+ repository.toList

namespace Spelling

/-- The URL as far as it names the repository. -/
def body (u : Spelling) : List Char :=
  u.front.toList ++ slashes (u.beforeOrganisation + 1) ++ u.organisation.toList ++
    slashes (u.beforeRepository + 1) ++ u.repository.toList

def url (u : Spelling) : String :=
  String.ofList (u.body ++ (if u.suffixed then suffix else []) ++ slashes u.trailing)

/-- The last segment: the repository, with a suffix that slashes follow. -/
def lastSegment (u : Spelling) : String :=
  if u.suffixed = true ∧ u.trailing ≠ 0 then u.repository ++ ".git" else u.repository

variable (u : Spelling)

theorem segments_body_append {last : List Char} (hlast : '/' ∉ last) (trailing : Nat) :
    Text.segments '/' (u.body ++ last ++ slashes trailing) =
      Text.segments '/' u.front.toList ++
        [u.organisation.toList, u.repository.toList ++ last] := by
  have horganisation : u.organisation.toList ≠ [] :=
    fun h => u.organisation_named (String.toList_eq_nil_iff.mp h)
  have hrepository : u.repository.toList ++ last ≠ [] :=
    fun h => u.repository_named (String.toList_eq_nil_iff.mp (List.append_eq_nil_iff.mp h).1)
  have hslash : '/' ∉ u.repository.toList ++ last := by
    simp [u.repository_slashless, hlast]
  rw [segments_append_replicate, body, List.append_assoc,
    segments_append_name _ _ hslash hrepository,
    segments_append_name _ _ u.organisation_slashless horganisation, List.append_assoc]
  rfl

theorem toList_url : u.url.toList =
    u.body ++ (if u.suffixed then suffix else []) ++ slashes u.trailing :=
  String.toList_ofList

theorem location_of_trailing_eq_zero (h : u.trailing = 0) (tag : String) :
    (GitSource.mk u.url tag).location = u.body := by
  have hurl := u.toList_url
  rw [h, slashes, List.replicate_zero, List.append_nil] at hurl
  cases hsuffixed : u.suffixed with
  | true =>
      rw [hsuffixed, if_pos rfl] at hurl
      exact location_of_suffix hurl
  | false =>
      rw [hsuffixed, if_neg Bool.false_ne_true, List.append_nil] at hurl
      refine (location_of_not_suffix fun hends => ?_).trans hurl
      rw [hurl, body, slashes_succ u.beforeRepository, ← List.append_assoc,
        List.append_assoc _ ['/']] at hends
      exact u.repository_unsuffixed (isSuffix_of_append_cons (by decide) hends)

theorem location_of_trailing_ne_zero (h : u.trailing ≠ 0) (tag : String) :
    (GitSource.mk u.url tag).location = u.url.toList := by
  obtain ⟨n, htrailing⟩ := Nat.exists_eq_succ_of_ne_zero h
  refine location_of_not_suffix ?_
  rw [toList_url, htrailing]
  exact not_suffix_of_trailing _ n

theorem segments_eq (tag : String) :
    (GitSource.mk u.url tag).segments =
      Text.segments '/' u.front.toList ++ [u.organisation.toList, u.lastSegment.toList] := by
  change Text.segments '/' (GitSource.mk u.url tag).location = _
  by_cases htrailing : u.trailing = 0
  · have hlast : u.lastSegment.toList = u.repository.toList := by simp [lastSegment, htrailing]
    have hbody := u.segments_body_append List.not_mem_nil 0
    simp only [slashes, List.replicate_zero, List.append_nil] at hbody
    rw [u.location_of_trailing_eq_zero htrailing, hbody, hlast]
  · have hlast : u.lastSegment.toList =
        u.repository.toList ++ if u.suffixed then suffix else [] := by
      cases hsuffixed : u.suffixed <;> simp [lastSegment, htrailing, hsuffixed, suffix]
    have hslash : '/' ∉ if u.suffixed then suffix else [] := by
      cases u.suffixed <;> decide
    rw [u.location_of_trailing_ne_zero htrailing, toList_url, u.segments_body_append hslash, hlast]

theorem key?_url (tag : String) :
    (GitSource.mk u.url tag).key? =
      some (.new (u.organisation ++ "/" ++ u.lastSegment) tag) :=
  key?_of_segments (u.segments_eq tag)

theorem lastSegment_eq_iff :
    u.lastSegment = u.repository ↔ (u.suffixed = true → u.trailing = 0) := by
  rw [lastSegment]
  split
  · next h =>
    refine iff_of_false (fun heq => ?_) fun himp => h.2 (himp h.1)
    have hlength := congrArg String.length heq
    simp at hlength
  · next h =>
    refine iff_of_true rfl fun hsuffixed => ?_
    exact Decidable.not_not.mp fun htrailing => h ⟨hsuffixed, htrailing⟩

end Spelling

end GitSource

namespace Accessory

variable {a : Accessory} {deps : Dependencies} {module tag : String} {d : Dependency}

theorem moduleKey_of_git {s : GitSource} {key : ModuleKey} (hmodule : a.moduleName = .ok module)
    (hdep : deps.get? module = some d) (hregistry : d.registry = none) (hgit : d.git = some s)
    (hkey : s.key? = some key) : a.moduleKey deps = .ok key := by
  have hserved : d.key module = .ok key := by simp only [Dependency.key, hregistry, hgit, hkey]
  refine Except.bind_eq_ok_iff.mpr ⟨module, Except.mapError_eq_ok_iff.mpr hmodule, ?_⟩
  rw [hdep]
  exact hserved

/-- Every spelling of the URL of a repository leads to a key of its last two segments. The key is
that of the repository exactly when no slashes follow the suffix. -/
theorem moduleKey_spelling_iff {u : GitSource.Spelling} (hmodule : a.moduleName = .ok module)
    (hdep : deps.get? module = some d) (hregistry : d.registry = none)
    (hgit : d.git = some ⟨u.url, tag⟩) :
    a.moduleKey deps = .ok (.new (u.organisation ++ "/" ++ u.lastSegment) tag) ∧
      (a.moduleKey deps = .ok (.new (u.organisation ++ "/" ++ u.repository) tag) ↔
        (u.suffixed = true → u.trailing = 0)) := by
  have hkey : a.moduleKey deps = .ok (.new (u.organisation ++ "/" ++ u.lastSegment) tag) :=
    moduleKey_of_git hmodule hdep hregistry hgit (u.key?_url tag)
  refine ⟨hkey, ?_⟩
  have hsource : u.organisation ++ "/" ++ u.lastSegment = u.organisation ++ "/" ++ u.repository ↔
      u.lastSegment = u.repository := by
    rw [← String.toList_inj, ← String.toList_inj]
    simp
  rw [hkey, Except.ok.injEq, ModuleKey.new_source_inj, hsource, u.lastSegment_eq_iff]

def serviceBlock : Accessory := ⟨[(.string "_type", .string "service.Service")]⟩

def serviceSpelling (beforeRepository : Nat) (suffixed : Bool) (trailing : Nat) :
    GitSource.Spelling where
  front := "https://github.com"
  organisation := "KusionStack"
  repository := "service"
  beforeOrganisation := 0
  beforeRepository := beforeRepository
  suffixed := suffixed
  trailing := trailing
  organisation_named := by decide
  organisation_slashless := by decide
  repository_named := by decide
  repository_slashless := by decide
  repository_unsuffixed := by decide

theorem moduleKey_spelling_of_doubled_slash :
    (serviceSpelling 1 true 0).url = "https://github.com/KusionStack//service.git" ∧
      serviceBlock.moduleKey
          [("service", .ofGit "https://github.com/KusionStack//service.git" "v0.1.0")] =
        .ok (.new "KusionStack/service" "v0.1.0") := by
  have hurl : (serviceSpelling 1 true 0).url = "https://github.com/KusionStack//service.git" := by
    decide +kernel
  have hmodule : serviceBlock.moduleName = .ok "service" := rfl
  refine ⟨hurl, ?_⟩
  rw [← hurl]
  refine (moduleKey_spelling_iff (u := serviceSpelling 1 true 0) hmodule rfl rfl rfl).2.mpr ?_
  exact fun _ => rfl

/-- A slash behind the suffix gives the module another key. -/
theorem not_moduleKey_of_slash_behind_suffix :
    (serviceSpelling 0 true 1).url = "https://github.com/KusionStack/service.git/" ∧
      serviceBlock.moduleKey
          [("service", .ofGit "https://github.com/KusionStack/service.git/" "v0.1.0")] =
        .ok (.new "KusionStack/service.git" "v0.1.0") ∧
      serviceBlock.moduleKey
          [("service", .ofGit "https://github.com/KusionStack/service.git/" "v0.1.0")] ≠
        .ok (.new "KusionStack/service" "v0.1.0") := by
  have hurl : (serviceSpelling 0 true 1).url = "https://github.com/KusionStack/service.git/" := by
    decide +kernel
  have hmodule : serviceBlock.moduleName = .ok "service" := rfl
  have hkey : serviceBlock.moduleKey
      [("service", .ofGit "https://github.com/KusionStack/service.git/" "v0.1.0")] =
        .ok (.new "KusionStack/service.git" "v0.1.0") := by
    rw [← hurl]
    exact moduleKey_of_git hmodule rfl rfl rfl ((serviceSpelling 0 true 1).key?_url "v0.1.0")
  refine ⟨hurl, hkey, ?_⟩
  rw [hkey, Ne, Except.ok.injEq, ModuleKey.new_source_inj]
  decide

end Accessory

end ResourceGraph
