import Mathlib.Tactic.MkIffOfInductiveProp
import ResourceGraph.Dependency.Key
import ResourceGraph.Proofs.ModuleKey
import ResourceGraph.Proofs.Text.Path
import ResourceGraph.Settings

namespace ResourceGraph

open ResourceGraph.Path

namespace ModuleKey

/-- The place of a program below the modules directory:
`<namespace>/<module>/<version>/kusion-module-<module>_<version>`. -/
def place (key : ModuleKey) : String :=
  (match key.namespace? with
    | some nameSpace => nameSpace ++ "/"
    | none => "") ++
  key.moduleName ++ "/" ++ key.version ++ "/" ++
    ("kusion-module-" ++ key.moduleName ++ "_" ++ key.version)

/-- A key that names no absolute path. -/
@[mk_iff]
structure Relative (key : ModuleKey) : Prop where
  nameSpace : ∀ nameSpace ∈ key.namespace?, isAbsolute nameSpace = false
  version : isAbsolute key.version = false

/-- A key whose parts are there and bring no slashes of their own. -/
@[mk_iff]
structure Tidy (key : ModuleKey) : Prop where
  nameSpace : ∀ nameSpace ∈ key.namespace?, Neat nameSpace
  moduleName : key.moduleName ≠ ""
  version : Neat key.version

theorem isAbsolute_moduleName (key : ModuleKey) : isAbsolute key.moduleName = false :=
  isAbsolute_eq_false_of_not_mem key.moduleName_cases.1

theorem neat_moduleName_iff (key : ModuleKey) : Neat key.moduleName ↔ key.moduleName ≠ "" := by
  refine ⟨Neat.named, fun h => ⟨h, key.isAbsolute_moduleName, ?_⟩⟩
  refine Bool.eq_false_iff.mpr fun hends => ?_
  obtain ⟨before, hbefore⟩ := exists_eq_append_slash hends
  exact key.moduleName_cases.1 (by simp [hbefore])

end ModuleKey

namespace Settings

variable (key : ModuleKey)

def fileName : String := "kusion-module-" ++ key.moduleName ++ "_" ++ key.version

theorem fileName_eq :
    fileName key = "kusion-module-" ++ (key.moduleName ++ ("_" ++ key.version)) := by
  change "kusion-module-" ++ key.moduleName ++ "_" ++ key.version = _
  simp only [String.append_assoc]

theorem isAbsolute_fileName : isAbsolute (fileName key) = false := by
  rw [fileName_eq, isAbsolute_append (by decide)]
  rfl

theorem programParts_cases :
    (key.namespace? = none ∧ programParts key = [key.moduleName, key.version, fileName key]) ∨
      ∃ nameSpace, key.namespace? = some nameSpace ∧
        programParts key = [nameSpace, key.moduleName, key.version, fileName key] := by
  cases hnameSpace : key.namespace? with
  | none => exact .inl ⟨rfl, by rw [programParts, hnameSpace]; rfl⟩
  | some nameSpace => exact .inr ⟨nameSpace, rfl, by rw [programParts, hnameSpace]; rfl⟩

theorem programParts_ne_nil : programParts key ≠ [] := by
  rcases programParts_cases key with ⟨-, hparts⟩ | ⟨nameSpace, -, hparts⟩ <;>
    simp [hparts]

theorem intercalate_programParts : "/".intercalate (programParts key) = key.place := by
  rcases programParts_cases key with ⟨hnone, hparts⟩ | ⟨nameSpace, hsome, hparts⟩
  · simp [hparts, ModuleKey.place, hnone, fileName_eq, String.append_assoc]
  · simp [hparts, ModuleKey.place, hsome, fileName_eq, String.append_assoc]

theorem names_place : names key.place = (programParts key).flatMap names := by
  obtain ⟨first, parts, hparts⟩ := List.exists_cons_of_ne_nil (programParts_ne_nil key)
  rw [← intercalate_programParts, hparts, names_intercalate]

theorem relative_programParts_iff :
    (∀ p ∈ programParts key, isAbsolute p = false) ↔ key.Relative := by
  rcases programParts_cases key with ⟨hnone, hparts⟩ | ⟨nameSpace, hsome, hparts⟩
  · simp [hparts, key.isAbsolute_moduleName, isAbsolute_fileName, ModuleKey.relative_iff, hnone]
  · simp [hparts, key.isAbsolute_moduleName, isAbsolute_fileName, ModuleKey.relative_iff, hsome]

theorem laid_programParts_iff : Laid (programParts key) ↔ key.Tidy := by
  rcases programParts_cases key with ⟨hnone, hparts⟩ | ⟨nameSpace, hsome, hparts⟩
  · simp [hparts, Laid, key.neat_moduleName_iff, isAbsolute_fileName, ModuleKey.tidy_iff, hnone]
  · simp [hparts, Laid, key.neat_moduleName_iff, isAbsolute_fileName, ModuleKey.tidy_iff, hsome]

variable {s : Settings} {key} {root : String}

theorem programPath_eq (hdirectory : s.modulesDirectory = some root)
    (hprogram : s.programs.get? key.text = none) (env : Environment) :
    s.programPath env key = .ok ((programParts key).foldl join root) := by
  simp only [programPath, hprogram, modulesRoot, hdirectory, Except.map]

/-- The program of a key without an entry of its own has a path. Its text is the modules directory
and the place of the key exactly when the key is tidy; up to slashes in a row it lies there exactly
when the key names no absolute path. The path of a key that does is the same under all settings. -/
theorem programPath_liesAt_iff (hdirectory : s.modulesDirectory = some root)
    (hprogram : s.programs.get? key.text = none) (env : Environment) :
    ∃ path, s.programPath env key = .ok path ∧
      (root ≠ "" → (path = root ++ separator root ++ key.place ↔ key.Tidy)) ∧
      ((names root = [] → root = "") → (LiesAt root key.place path ↔ key.Relative)) ∧
      (¬ key.Relative → ∀ (s' : Settings) (env' : Environment) (root' : String),
        s'.modulesDirectory = some root' → s'.programs.get? key.text = none →
          s'.programPath env' key = .ok path) := by
  refine ⟨_, programPath_eq hdirectory hprogram env, ?_, ?_, ?_⟩
  · intro hroot
    obtain ⟨first, parts, hparts⟩ := List.exists_cons_of_ne_nil (programParts_ne_nil key)
    rw [← intercalate_programParts, ← laid_programParts_iff, hparts]
    exact foldl_join_eq_iff hroot
  · intro hroot
    rw [liesAt_foldl_join_iff (programParts_ne_nil key) (names_place key) hroot]
    exact relative_programParts_iff key
  · intro habsolute s' env' root' hdirectory' hprogram'
    have hpart : ∃ p ∈ programParts key, isAbsolute p = true := by
      rw [← relative_programParts_iff] at habsolute
      simpa using habsolute
    obtain ⟨_, _, _, -, -, -, hpath⟩ := exists_foldl_join_eq hpart
    rw [programPath_eq hdirectory' hprogram', hpath root, hpath root']

def modulesSettings : Settings := { Settings.default with modulesDirectory := some "/opt/modules" }

def noEnvironment : Environment := ⟨none, none, none, .ofList "" []⟩

/-- A slash in a row is dropped, but the program stays where it belongs. -/
theorem programPath_liesAt_of_repeated_slash :
    modulesSettings.modulesDirectory = some "/opt/modules" ∧
      modulesSettings.programs.get? "acme//mysql@0.2.0" = none ∧
      ∃ path, modulesSettings.programPath noEnvironment (.new "acme//mysql" "0.2.0") = .ok path ∧
        path = "/opt/modules/acme/mysql/0.2.0/kusion-module-mysql_0.2.0" ∧
        (ModuleKey.new "acme//mysql" "0.2.0").place =
          "acme//mysql/0.2.0/kusion-module-mysql_0.2.0" ∧
        LiesAt "/opt/modules" (ModuleKey.new "acme//mysql" "0.2.0").place path := by
  have hdirectory : modulesSettings.modulesDirectory = some "/opt/modules" := rfl
  have hprogram : modulesSettings.programs.get? (ModuleKey.new "acme//mysql" "0.2.0").text = none :=
    rfl
  have hrelative : (ModuleKey.new "acme//mysql" "0.2.0").Relative := by
    have hnameSpace : (ModuleKey.new "acme//mysql" "0.2.0").namespace? = some "acme/" := by
      decide +kernel
    refine ⟨fun nameSpace h => ?_, by decide +kernel⟩
    obtain rfl := Option.some.inj (hnameSpace.symm.trans h)
    rfl
  obtain ⟨path, hpath, -, hlies, -⟩ := programPath_liesAt_iff hdirectory hprogram noEnvironment
  have hjoined : (programParts (.new "acme//mysql" "0.2.0")).foldl join "/opt/modules" =
      "/opt/modules/acme/mysql/0.2.0/kusion-module-mysql_0.2.0" := by decide +kernel
  have hok := (programPath_eq hdirectory hprogram noEnvironment).trans (congrArg Except.ok hjoined)
  have hspelled := Except.ok.inj (hpath.symm.trans hok)
  refine ⟨hdirectory, hprogram, path, hpath, hspelled, by decide +kernel, ?_⟩
  exact (hlies (by decide +kernel)).mpr hrelative

/-- The key of a dependency whose version is an absolute path has its program at that path. -/
theorem not_liesAt_of_absolute_version :
    (Dependency.ofRegistry "kusionstack/mysql" "/tmp/x").key "mysql" =
        .ok (.new "kusionstack/mysql" "/tmp/x") ∧
      modulesSettings.modulesDirectory = some "/opt/modules" ∧
      modulesSettings.programs.get? "kusionstack/mysql@/tmp/x" = none ∧
      modulesSettings.programPath noEnvironment (.new "kusionstack/mysql" "/tmp/x") =
        .ok "/tmp/x/kusion-module-mysql_/tmp/x" ∧
      ∀ tail, "/tmp/x/kusion-module-mysql_/tmp/x" ≠ "/opt/modules" ++ tail := by
  have hjoined : (programParts (.new "kusionstack/mysql" "/tmp/x")).foldl join "/opt/modules" =
      "/tmp/x/kusion-module-mysql_/tmp/x" := by decide +kernel
  refine ⟨rfl, rfl, rfl, ?_, fun tail heq => ?_⟩
  · exact (programPath_eq rfl rfl noEnvironment).trans (congrArg Except.ok hjoined)
  · have hsecond := congrArg (fun path => path.toList[1]?) heq
    simp at hsecond

end Settings

end ResourceGraph
