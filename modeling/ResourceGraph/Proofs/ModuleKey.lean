import ResourceGraph.ModuleKey

namespace ResourceGraph

namespace ModuleKey

variable {source version : String}

theorem toList_text_new (source version : String) :
    (new source version).text.toList = source.toList ++ '@' :: version.toList := by
  simp [new]

theorem new_source_inj {source' : String} :
    new source version = new source' version ↔ source = source' := by
  constructor
  · intro h
    have htext := congrArg (fun k => k.text.toList) h
    simp only [toList_text_new] at htext
    exact String.toList_injective (List.append_cancel_right htext)
  · rintro rfl
    rfl

section Parts

variable (h : '@' ∉ version.toList)

include h

theorem cutLast?_text_new :
    Text.cutLast? '@' (new source version).text.toList = some (source.toList, version.toList) := by
  rw [toList_text_new]
  exact Text.cutLast?_append source.toList h

theorem source_new : (new source version).source = source := by
  simp only [ModuleKey.source, cutLast?_text_new h, String.ofList_toList]

theorem version_new : (new source version).version = version := by
  simp only [ModuleKey.version, cutLast?_text_new h, String.ofList_toList]

end Parts

theorem source_cases (k : ModuleKey) :
    ('@' ∉ k.text.toList ∧ k.source = k.text ∧ k.version = "") ∨
      (k = new k.source k.version ∧ '@' ∉ k.version.toList) := by
  cases hcut : Text.cutLast? '@' k.text.toList with
  | none =>
      left
      simp only [source, version, hcut, Text.cutLast?_eq_none.mp hcut, not_false_eq_true, and_self]
  | some parts =>
      right
      obtain ⟨before, after⟩ := parts
      obtain ⟨htext, hafter⟩ := Text.cutLast?_eq_some hcut
      simp only [source, version, hcut, String.toList_ofList]
      refine ⟨congrArg mk (String.toList_injective ?_), hafter⟩
      simp [htext]

theorem not_mem_version (k : ModuleKey) : '@' ∉ k.version.toList := by
  rcases k.source_cases with ⟨-, -, hversion⟩ | ⟨-, hversion⟩
  · rw [hversion]
    exact List.not_mem_nil
  · exact hversion

theorem text_eq_iff (k : ModuleKey) :
    k.text = k.source ++ "@" ++ k.version ↔ '@' ∈ k.text.toList := by
  constructor
  · intro htext
    rw [htext]
    simp
  · intro hmem
    rcases k.source_cases with ⟨hnone, -, -⟩ | ⟨hkey, -⟩
    · exact absurd hmem hnone
    · exact congrArg text hkey

theorem parts_new_iff (source version : String) :
    ((new source version).source = source ∧ (new source version).version = version) ↔
      '@' ∉ version.toList := by
  constructor
  · rintro ⟨-, hversion⟩
    rw [← hversion]
    exact not_mem_version _
  · exact fun h => ⟨source_new h, version_new h⟩

/-- Versions without `@` tell keys apart just as the pairs do that they are made of. -/
theorem new_inj {source' version' : String} (h : '@' ∉ version.toList)
    (h' : '@' ∉ version'.toList) :
    new source version = new source' version' ↔ source = source' ∧ version = version' := by
  constructor
  · intro heq
    have hsource : (new source version).source = source := source_new h
    have hversion : (new source version).version = version := version_new h
    constructor
    · rw [← hsource, heq, source_new h']
    · rw [← hversion, heq, version_new h']
  · rintro ⟨rfl, rfl⟩
    rfl

theorem moduleName_cases (k : ModuleKey) :
    '/' ∉ k.moduleName.toList ∧
      ((k.namespace? = none ∧ k.source = k.moduleName) ∨
        ∃ nameSpace, k.namespace? = some nameSpace ∧
          k.source = nameSpace ++ "/" ++ k.moduleName) := by
  cases hcut : Text.cutLast? '/' k.source.toList with
  | none =>
      simp [moduleName, namespace?, hcut, Text.cutLast?_eq_none.mp hcut]
  | some parts =>
      obtain ⟨before, after⟩ := parts
      obtain ⟨hsource, hafter⟩ := Text.cutLast?_eq_some hcut
      simp only [moduleName, namespace?, hcut, String.toList_ofList]
      refine ⟨hafter, .inr ⟨String.ofList before, rfl, ?_⟩⟩
      apply String.toList_injective
      simp [hsource]

/-- The parts of keys fit together: a source and a version are given back by their key exactly when
the version holds no `@`, and then they are all that tells it from others; a source is its module
name below its namespace, if it has one; and a key that holds an `@` is its source and version. -/
theorem parts_exact :
    (∀ source version : String,
      (((new source version).source = source ∧ (new source version).version = version) ↔
        '@' ∉ version.toList)) ∧
    (∀ source version source' version' : String,
      '@' ∉ version.toList → '@' ∉ version'.toList →
        (new source version = new source' version' ↔ source = source' ∧ version = version')) ∧
    ∀ k : ModuleKey,
      (k.source = match k.namespace? with
        | some nameSpace => nameSpace ++ "/" ++ k.moduleName
        | none => k.moduleName) ∧
      '/' ∉ k.moduleName.toList ∧
      (k.text = k.source ++ "@" ++ k.version ↔ '@' ∈ k.text.toList) ∧
      ('@' ∉ k.text.toList → k.source = k.text ∧ k.version = "") := by
  refine ⟨parts_new_iff, fun _ _ _ _ => new_inj, fun k => ?_⟩
  obtain ⟨hslash, hname⟩ := k.moduleName_cases
  refine ⟨?_, hslash, k.text_eq_iff, ?_⟩
  · rcases hname with ⟨hnone, hsource⟩ | ⟨nameSpace, hsome, hsource⟩
    · rw [hnone, hsource]
    · rw [hsome, hsource]
  · intro hnone
    rcases k.source_cases with ⟨-, hparts⟩ | ⟨hkey, -⟩
    · exact hparts
    · exact absurd (k.text_eq_iff.mp (congrArg text hkey)) hnone

/-- The last `@` and the last `/` before it count, and a version may hold a `/`. -/
theorem parts_exact_of_repeated_separators :
    '@' ∉ "v1/x".toList ∧ (new "git@host/acme/mysql" "v1/x").source = "git@host/acme/mysql" ∧
      (new "git@host/acme/mysql" "v1/x").version = "v1/x" ∧
      (new "git@host/acme/mysql" "v1/x").namespace? = some "git@host/acme" ∧
      (new "git@host/acme/mysql" "v1/x").moduleName = "mysql" ∧
      (new "git@host/acme/mysql" "v1/x" = new "git@host/acme/mysql" "v1" ↔
        "git@host/acme/mysql" = "git@host/acme/mysql" ∧ "v1/x" = "v1") := by
  have hversion : '@' ∉ "v1/x".toList := by decide
  obtain ⟨hsource, hversion'⟩ := (parts_exact.1 "git@host/acme/mysql" "v1/x").mpr hversion
  have hinj := parts_exact.2.1 "git@host/acme/mysql" "v1/x" "git@host/acme/mysql" "v1" hversion
    (by decide)
  exact ⟨hversion, hsource, hversion', by decide +kernel, by decide +kernel, hinj⟩

end ModuleKey

end ResourceGraph
