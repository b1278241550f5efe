import ResourceGraph.App
import ResourceGraph.Dependency
import ResourceGraph.Graph
import ResourceGraph.Project
import ResourceGraph.Proofs.Patcher.Reading
import ResourceGraph.Proofs.Resource.Reading
import ResourceGraph.Proofs.Workspace.Blocks

namespace ResourceGraph

open Document Json

variable {depth : Nat}

section Projects

namespace Extension

def slots (e : Extension) : Slots :=
  [("kind", some (.string e.kind.name)),
    ("kubernetesNamespace", e.nameSpace.map fun n => .record [Json.field "namespace" (.string n)])]

theorem toJson_eq_slots (e : Extension) : e.toJson = e.slots.json := by
  cases hname : e.nameSpace <;> simp [toJson, slots, Slots.json, record, field, fieldOf, hname]

theorem stable_kind : Stable depth (fun d => d.variant?.map ExtensionKind.ofName)
    fun kind => .string kind.name := by
  intro d kind hd h
  cases kind <;> rfl

theorem stable_nameSpace (hdepth : depth < jsonDepthLimit) :
    Stable depth (fun d => (d.record? namespaceForm).bind fun inner =>
      inner.required? "namespace" text?) fun n => .record [Json.field "namespace" (.string n)] := by
  change Stable depth _ fun n => Slots.json [("namespace", some (.string n))]
  apply Stable.record hdepth (fun _ => rfl) (by decide)
  intro fields n hnodup hfields h
  exact Slots.required?_stable hnodup hfields stable_text h List.mem_cons_self

theorem stable (hdepth : depth + 1 < jsonDepthLimit) : Stable depth read? toJson := by
  rw [funext toJson_eq_slots]
  apply Stable.record (Nat.lt_of_succ_lt hdepth) (fun _ => rfl) (by decide)
  intro fields e hnodup hfields h
  obtain ⟨kind, hkind, h⟩ := Option.bind_eq_some_iff.mp h
  obtain ⟨nameSpace, hnameSpace, h⟩ := Option.bind_eq_some_iff.mp h
  obtain rfl := Option.some.inj h
  have hkind' := Slots.required?_stable hnodup hfields stable_kind hkind (by simp [slots])
  have hnameSpace' := Slots.optional?_stable hnodup hfields (stable_nameSpace hdepth) hnameSpace
    (by simp [slots]) (fun _ _ => object_ne_null)
  refine Option.bind_eq_some_iff.mpr ⟨_, hkind', ?_⟩
  exact Option.bind_eq_some_iff.mpr ⟨_, hnameSpace', rfl⟩

theorem stable_list (hdepth : depth + 2 < jsonDepthLimit) :
    Stable depth (list? read?) fun es => .array (es.map toJson) :=
  (stable hdepth).list (by omega)

end Extension

namespace Project

def slots (p : Project) : Slots :=
  [("name", some (.string p.name)), ("description", p.description.map .string),
    ("extensions", if p.extensions.isEmpty then none else
      some (.array (p.extensions.map Extension.toJson)))]

theorem toJson_eq_slots (p : Project) : p.toJson = p.slots.json := by
  cases hempty : p.extensions.isEmpty <;> cases hdescription : p.description <;>
    simp [toJson, slots, Slots.json, record, field, fieldUnless, fieldOf, hempty, hdescription]

theorem stable : Stable 0 read? toJson := by
  rw [funext toJson_eq_slots]
  apply Stable.record (by decide) (fun _ => rfl) (by decide)
  intro fields p hnodup hfields h
  obtain ⟨name, hname, h⟩ := Option.bind_eq_some_iff.mp h
  obtain ⟨description, hdescription, h⟩ := Option.bind_eq_some_iff.mp h
  obtain ⟨extensions, hextensions, h⟩ := Option.bind_eq_some_iff.mp h
  obtain rfl := Option.some.inj h
  have hname' := Slots.required?_stable hnodup hfields stable_text hname (by simp [slots])
  have hdescription' := Slots.optional?_stable hnodup hfields stable_text hdescription
    (by simp [slots]) (fun _ _ => string_ne_null)
  have hextensions' := Slots.withDefault?_stable hnodup hfields
    (Extension.stable_list (by decide)) hextensions (by simp [slots])
    (omitted _ fun hempty => (List.isEmpty_iff.mp hempty).symm) rfl
  refine Option.bind_eq_some_iff.mpr ⟨_, hname', ?_⟩
  refine Option.bind_eq_some_iff.mpr ⟨_, hdescription', ?_⟩
  exact Option.bind_eq_some_iff.mpr ⟨_, hextensions', rfl⟩

end Project

namespace Stack

def slots (s : Stack) : Slots :=
  [("name", some (.string s.name)), ("path", some (.string s.path)),
    ("extensions", if s.extensions.isEmpty then none else
      some (.array (s.extensions.map Extension.toJson)))]

theorem toJson_eq_slots (s : Stack) : s.toJson = s.slots.json := by
  cases hempty : s.extensions.isEmpty <;>
    simp [toJson, slots, Slots.json, record, field, fieldUnless, hempty]

theorem stable : Stable 0 read? toJson := by
  rw [funext toJson_eq_slots]
  apply Stable.record (by decide) (fun _ => rfl) (by decide)
  intro fields s hnodup hfields h
  obtain ⟨name, hname, h⟩ := Option.bind_eq_some_iff.mp h
  obtain ⟨path, hpath, h⟩ := Option.bind_eq_some_iff.mp h
  obtain ⟨extensions, hextensions, h⟩ := Option.bind_eq_some_iff.mp h
  obtain rfl := Option.some.inj h
  have hname' := Slots.required?_stable hnodup hfields stable_text hname (by simp [slots])
  have hpath' := Slots.withDefault?_stable hnodup hfields stable_text hpath (by simp [slots])
    (.inr rfl) rfl
  have hextensions' := Slots.withDefault?_stable hnodup hfields
    (Extension.stable_list (by decide)) hextensions (by simp [slots])
    (omitted _ fun hempty => (List.isEmpty_iff.mp hempty).symm) rfl
  refine Option.bind_eq_some_iff.mpr ⟨_, hname', ?_⟩
  refine Option.bind_eq_some_iff.mpr ⟨_, hpath', ?_⟩
  exact Option.bind_eq_some_iff.mpr ⟨_, hextensions', rfl⟩

end Stack

end Projects

section Dependencies

namespace RegistrySource

def slots (s : RegistrySource) : Slots :=
  [("reg", some (.string s.registry)), ("repo", some (.string s.repo)),
    ("tag", some (.string s.tag))]

theorem stable (hdepth : depth < jsonDepthLimit) : Stable depth read? toJson := by
  change Stable depth read? fun s => s.slots.json
  apply Stable.record hdepth (fun _ => rfl) (by decide)
  intro fields s hnodup hfields h
  obtain ⟨registry, hregistry, h⟩ := Option.bind_eq_some_iff.mp h
  obtain ⟨repo, hrepo, h⟩ := Option.bind_eq_some_iff.mp h
  obtain ⟨tag, htag, h⟩ := Option.bind_eq_some_iff.mp h
  obtain rfl := Option.some.inj h
  have hregistry' := Slots.withDefault?_stable hnodup hfields stable_text hregistry
    (by simp [slots]) (.inr rfl) rfl
  have hrepo' := Slots.required?_stable hnodup hfields stable_text hrepo (by simp [slots])
  have htag' := Slots.withDefault?_stable hnodup hfields stable_text htag (by simp [slots])
    (.inr rfl) rfl
  refine Option.bind_eq_some_iff.mpr ⟨_, hregistry', ?_⟩
  refine Option.bind_eq_some_iff.mpr ⟨_, hrepo', ?_⟩
  exact Option.bind_eq_some_iff.mpr ⟨_, htag', rfl⟩

end RegistrySource

namespace GitSource

def slots (s : GitSource) : Slots := [("url", some (.string s.url)), ("tag", some (.string s.tag))]

theorem stable (hdepth : depth < jsonDepthLimit) : Stable depth read? toJson := by
  change Stable depth read? fun s => s.slots.json
  apply Stable.record hdepth (fun _ => rfl) (by decide)
  intro fields s hnodup hfields h
  obtain ⟨url, hurl, h⟩ := Option.bind_eq_some_iff.mp h
  obtain ⟨tag, htag, h⟩ := Option.bind_eq_some_iff.mp h
  obtain rfl := Option.some.inj h
  have hurl' := Slots.required?_stable hnodup hfields stable_text hurl (by simp [slots])
  have htag' := Slots.withDefault?_stable hnodup hfields stable_text htag (by simp [slots])
    (.inr rfl) rfl
  refine Option.bind_eq_some_iff.mpr ⟨_, hurl', ?_⟩
  exact Option.bind_eq_some_iff.mpr ⟨_, htag', rfl⟩

end GitSource

namespace Dependency

def slots (d : Dependency) : Slots :=
  [("name", some (.string d.name)), ("version", some (.string d.version)),
    ("oci", d.registry.map RegistrySource.toJson), ("git", d.git.map GitSource.toJson)]

theorem toJson_eq_slots (d : Dependency) : d.toJson = d.slots.json := by
  cases hregistry : d.registry <;> cases hgit : d.git <;>
    simp [toJson, slots, Slots.json, record, field, fieldOf, hregistry, hgit]

theorem stable (hdepth : depth + 1 < jsonDepthLimit) : Stable depth read? toJson := by
  rw [funext toJson_eq_slots]
  apply Stable.record (Nat.lt_of_succ_lt hdepth) (fun _ => rfl) (by decide)
  intro fields d hnodup hfields h
  obtain ⟨name, hname, h⟩ := Option.bind_eq_some_iff.mp h
  obtain ⟨version, hversion, h⟩ := Option.bind_eq_some_iff.mp h
  obtain ⟨registry, hregistry, h⟩ := Option.bind_eq_some_iff.mp h
  obtain ⟨git, hgit, h⟩ := Option.bind_eq_some_iff.mp h
  obtain rfl := Option.some.inj h
  have hname' := Slots.withDefault?_stable hnodup hfields stable_text hname (by simp [slots])
    (.inr rfl) rfl
  have hversion' := Slots.withDefault?_stable hnodup hfields stable_text hversion
    (by simp [slots]) (.inr rfl) rfl
  have hregistry' := Slots.optional?_stable hnodup hfields (RegistrySource.stable hdepth) hregistry
    (by simp [slots]) (fun _ _ => object_ne_null)
  have hgit' := Slots.optional?_stable hnodup hfields (GitSource.stable hdepth) hgit
    (by simp [slots]) (fun _ _ => object_ne_null)
  refine Option.bind_eq_some_iff.mpr ⟨_, hname', ?_⟩
  refine Option.bind_eq_some_iff.mpr ⟨_, hversion', ?_⟩
  refine Option.bind_eq_some_iff.mpr ⟨_, hregistry', ?_⟩
  exact Option.bind_eq_some_iff.mpr ⟨_, hgit', rfl⟩

end Dependency

namespace Dependencies

def slots (d : Dependencies) : Slots :=
  [("deps", some (.ofDict (Dict.mapValues Dependency.toJson d)))]

theorem stable : Stable 0 read? toJson := by
  change Stable 0 read? fun d => (slots d).json
  apply Stable.record (by decide) (fun _ => rfl) (by decide)
  intro fields d hnodup hfields h
  exact Slots.withDefault?_stable hnodup hfields ((Dependency.stable (by decide)).dict (by decide))
    h List.mem_cons_self (.inr rfl) rfl

end Dependencies

end Dependencies

section Graphs

namespace SecretStore

def slots (s : SecretStore) : Slots := [("provider", some (.ofDict s.provider))]

theorem stable (hdepth : depth + 1 < jsonDepthLimit) : Stable depth read? toJson := by
  change Stable depth read? fun s => s.slots.json
  apply Stable.record (Nat.lt_of_succ_lt hdepth) (fun _ => rfl) (by decide)
  intro fields s hnodup hfields h
  obtain ⟨provider, hprovider, h⟩ := Option.bind_eq_some_iff.mp h
  obtain rfl := Option.some.inj h
  have hprovider' := Slots.withDefault?_stable hnodup hfields (stable_table hdepth) hprovider
    (by simp [slots]) (.inr rfl) (dict?_empty hdepth)
  exact Option.bind_eq_some_iff.mpr ⟨_, hprovider', rfl⟩

end SecretStore

namespace Resource

theorem stable_type : Stable depth (fun d => d.variant?.bind ResourceType.ofName?)
    fun type => .string type.name := by
  intro d type hd h
  cases type <;> rfl

theorem readTable?_empty (hdepth : depth < jsonDepthLimit) :
    readTable? (.json depth (.ofDict [])) = some [] := by
  rw [readTable?, ofDict, optional?_json_of_ne_null object_ne_null, dict?_empty hdepth]
  rfl

theorem stable_readTable (hdepth : depth < jsonDepthLimit) : Stable depth readTable? .ofDict := by
  intro d t hd h
  obtain ⟨value, hvalue, rfl⟩ := Option.map_eq_some_iff.mp h
  cases value with
  | none => exact readTable?_empty hdepth
  | some t =>
      rw [Option.getD_some, readTable?, (stable_table hdepth).optional hd object_ne_null hvalue]
      rfl

theorem stable (hdepth : depth + 1 < jsonDepthLimit) : Stable depth read? toJson := by
  rw [funext toJson_eq_slots]
  apply Stable.record (Nat.lt_of_succ_lt hdepth) (fun _ => rfl) (by decide)
  intro fields r hnodup hfields h
  obtain ⟨id, hid, h⟩ := Option.bind_eq_some_iff.mp h
  obtain ⟨type, htype, h⟩ := Option.bind_eq_some_iff.mp h
  obtain ⟨attributes, hattributes, h⟩ := Option.bind_eq_some_iff.mp h
  obtain ⟨dependsOn, hdependsOn, h⟩ := Option.bind_eq_some_iff.mp h
  obtain ⟨extensions, hextensions, h⟩ := Option.bind_eq_some_iff.mp h
  obtain rfl := Option.some.inj h
  have hid' := Slots.required?_stable hnodup hfields stable_text hid (by simp [slots])
  have htype' := Slots.required?_stable hnodup hfields stable_type htype (by simp [slots])
  have hattributes' := Slots.withDefault?_stable hnodup hfields (stable_readTable hdepth)
    hattributes (by simp [slots]) (.inr rfl) (readTable?_empty hdepth)
  have hdependsOn' := Slots.withDefault?_stable hnodup hfields (stable_text.list hdepth)
    hdependsOn (by simp [slots, ofStrings])
    (omitted _ fun hempty => (List.isEmpty_iff.mp hempty).symm)
    (list?_json hdepth fun _ hx => absurd hx List.not_mem_nil)
  have hextensions' := Slots.withDefault?_stable hnodup hfields (stable_readTable hdepth)
    hextensions (by simp [slots]) (.inr rfl) (readTable?_empty hdepth)
  refine Option.bind_eq_some_iff.mpr ⟨_, hid', ?_⟩
  refine Option.bind_eq_some_iff.mpr ⟨_, htype', ?_⟩
  refine Option.bind_eq_some_iff.mpr ⟨_, hattributes', ?_⟩
  refine Option.bind_eq_some_iff.mpr ⟨_, hdependsOn', ?_⟩
  exact Option.bind_eq_some_iff.mpr ⟨_, hextensions', rfl⟩

end Resource

namespace Graph

def slots (g : Graph) : Slots :=
  [("resources", some (.array (g.resources.map Resource.toJson))),
    ("secretStore", g.secretStore.map SecretStore.toJson), ("context", g.context.map .ofDict)]

theorem toJson_eq_slots (g : Graph) : g.toJson = g.slots.json := by
  cases hstore : g.secretStore <;> cases hcontext : g.context <;>
    simp [toJson, slots, Slots.json, record, field, fieldOf, hstore, hcontext]

theorem stable : Stable 0 read? toJson := by
  rw [funext toJson_eq_slots]
  apply Stable.record (by decide) (fun _ => rfl) (by decide)
  intro fields g hnodup hfields h
  obtain ⟨resources, hresources, h⟩ := Option.bind_eq_some_iff.mp h
  obtain ⟨store, hstore, h⟩ := Option.bind_eq_some_iff.mp h
  obtain ⟨context, hcontext, h⟩ := Option.bind_eq_some_iff.mp h
  obtain rfl := Option.some.inj h
  have hresources' := Slots.withDefault?_stable hnodup hfields
    ((Resource.stable (by decide)).list (by decide)) hresources (by simp [slots]) (.inr rfl) rfl
  have hstore' := Slots.optional?_stable hnodup hfields (SecretStore.stable (by decide)) hstore
    (by simp [slots]) (fun _ _ => object_ne_null)
  have hcontext' := Slots.optional?_stable hnodup hfields (stable_table (by decide)) hcontext
    (by simp [slots]) (fun _ _ => object_ne_null)
  refine Option.bind_eq_some_iff.mpr ⟨_, hresources', ?_⟩
  refine Option.bind_eq_some_iff.mpr ⟨_, hstore', ?_⟩
  exact Option.bind_eq_some_iff.mpr ⟨_, hcontext', rfl⟩

end Graph

end Graphs

section Patchers

namespace Variable

theorem stable (hdepth : depth < jsonDepthLimit) : Stable depth read? toJson := by
  rw [funext toJson_eq_slots]
  apply Stable.record hdepth (fun _ => rfl) (by decide)
  intro fields e hnodup hfields h
  obtain ⟨name, hname, h⟩ := Option.bind_eq_some_iff.mp h
  obtain ⟨value, hvalue, h⟩ := Option.bind_eq_some_iff.mp h
  obtain ⟨valueFrom, hvalueFrom, h⟩ := Option.bind_eq_some_iff.mp h
  obtain rfl := Option.some.inj h
  have hname' := Slots.required?_stable hnodup hfields stable_text hname (by simp [slots])
  have hvalue' := Slots.withDefault?_stable hnodup hfields stable_text hvalue (by simp [slots])
    (omitted _ fun hempty => (String.isEmpty_iff.mp hempty).symm) rfl
  have hvalueFrom' := Slots.optional?_stable hnodup hfields stable_json hvalueFrom
    (by simp [slots]) (ne_null_of_optional?_json? hfields hvalueFrom)
  refine Option.bind_eq_some_iff.mpr ⟨_, hname', ?_⟩
  refine Option.bind_eq_some_iff.mpr ⟨_, hvalue', ?_⟩
  exact Option.bind_eq_some_iff.mpr ⟨_, hvalueFrom', rfl⟩

end Variable

namespace AttributePatch

theorem stable_type : Stable depth (fun d => d.text?.map PatchRule.ofName)
    fun type => .string type.name := by
  intro d type hd h
  obtain ⟨name, -, rfl⟩ := Option.map_eq_some_iff.mp h
  exact congrArg (fun n => some (PatchRule.ofName n)) (PatchRule.name_ofName name)

theorem stable (hdepth : depth < jsonDepthLimit) : Stable depth read? toJson := by
  change Stable depth read? fun p => p.slots.json
  apply Stable.record hdepth (fun _ => rfl) (by decide)
  intro fields p hnodup hfields h
  obtain ⟨type, htype, h⟩ := Option.bind_eq_some_iff.mp h
  obtain ⟨payload, hpayload, h⟩ := Option.bind_eq_some_iff.mp h
  obtain rfl := Option.some.inj h
  have htype' := Slots.required?_stable hnodup hfields stable_type htype (by simp [slots])
  have hpayload' := Slots.required?_stable hnodup hfields stable_json hpayload (by simp [slots])
  refine Option.bind_eq_some_iff.mpr ⟨_, htype', ?_⟩
  exact Option.bind_eq_some_iff.mpr ⟨_, hpayload', rfl⟩

end AttributePatch

namespace Patcher

theorem stable : Stable 0 read? toJson := by
  rw [funext toJson_eq_slots]
  apply Stable.record (by decide) (fun _ => rfl) (by decide)
  intro fields p hnodup hfields h
  obtain ⟨labels, hlabels, h⟩ := Option.bind_eq_some_iff.mp h
  obtain ⟨podLabels, hpodLabels, h⟩ := Option.bind_eq_some_iff.mp h
  obtain ⟨annotations, hannotations, h⟩ := Option.bind_eq_some_iff.mp h
  obtain ⟨podAnnotations, hpodAnnotations, h⟩ := Option.bind_eq_some_iff.mp h
  obtain ⟨environment, henvironment, h⟩ := Option.bind_eq_some_iff.mp h
  obtain ⟨patches, hpatches, h⟩ := Option.bind_eq_some_iff.mp h
  obtain rfl := Option.some.inj h
  have htexts : Stable 1 (dict? text?) .ofStringDict := stable_text.dict (by decide)
  have hlabels' := Slots.optional?_stable hnodup hfields htexts hlabels (by simp [slots])
    (fun _ _ => object_ne_null)
  have hpodLabels' := Slots.optional?_stable hnodup hfields htexts hpodLabels (by simp [slots])
    (fun _ _ => object_ne_null)
  have hannotations' := Slots.optional?_stable hnodup hfields htexts hannotations (by simp [slots])
    (fun _ _ => object_ne_null)
  have hpodAnnotations' := Slots.optional?_stable hnodup hfields htexts hpodAnnotations
    (by simp [slots]) (fun _ _ => object_ne_null)
  have henvironment' := Slots.optional?_stable hnodup hfields
    ((Variable.stable (by decide)).list (by decide)) henvironment (by simp [slots])
    (fun _ _ => array_ne_null)
  have hpatches' := Slots.optional?_stable hnodup hfields
    ((AttributePatch.stable (by decide)).dict (by decide)) hpatches (by simp [slots, ofDict])
    (fun _ _ => object_ne_null)
  refine Option.bind_eq_some_iff.mpr ⟨_, hlabels', ?_⟩
  refine Option.bind_eq_some_iff.mpr ⟨_, hpodLabels', ?_⟩
  refine Option.bind_eq_some_iff.mpr ⟨_, hannotations', ?_⟩
  refine Option.bind_eq_some_iff.mpr ⟨_, hpodAnnotations', ?_⟩
  refine Option.bind_eq_some_iff.mpr ⟨_, henvironment', ?_⟩
  exact Option.bind_eq_some_iff.mpr ⟨_, hpatches', rfl⟩

end Patcher

end Patchers

section Workspaces

namespace Workspace

def slots (w : Workspace) : Slots :=
  [("name", some (.string w.name)), ("modules", if w.modules.isEmpty then none else
      some (.ofDict (w.modules.mapValues ModuleBlocks.toJson))),
    ("context", w.context.map .ofDict), ("secretStore", w.secretStore.map SecretStore.toJson)]

theorem toJson_eq_slots (w : Workspace) : w.toJson = w.slots.json := by
  cases hempty : w.modules.isEmpty <;> cases hcontext : w.context <;>
    cases hstore : w.secretStore <;>
      simp [toJson, slots, Slots.json, record, field, fieldUnless, fieldOf, hempty, hcontext,
        hstore]

theorem stable : Stable 0 read? toJson := by
  rw [funext toJson_eq_slots]
  apply Stable.record (by decide) (fun _ => rfl) (by decide)
  intro fields w hnodup hfields h
  obtain ⟨name, hname, h⟩ := Option.bind_eq_some_iff.mp h
  obtain ⟨modules, hmodules, h⟩ := Option.bind_eq_some_iff.mp h
  obtain ⟨context, hcontext, h⟩ := Option.bind_eq_some_iff.mp h
  obtain ⟨store, hstore, h⟩ := Option.bind_eq_some_iff.mp h
  obtain rfl := Option.some.inj h
  have hname' := Slots.required?_stable hnodup hfields stable_text hname (by simp [slots])
  have hmodules' := Slots.withDefault?_stable hnodup hfields (ModuleBlocks.stable.dict (by decide))
    hmodules (by simp [slots, ofDict])
    (omitted _ fun hempty => (List.isEmpty_iff.mp hempty).symm) rfl
  have hcontext' := Slots.optional?_stable hnodup hfields (stable_table (by decide)) hcontext
    (by simp [slots]) (fun _ _ => object_ne_null)
  have hstore' := Slots.optional?_stable hnodup hfields (SecretStore.stable (by decide)) hstore
    (by simp [slots]) (fun _ _ => object_ne_null)
  refine Option.bind_eq_some_iff.mpr ⟨_, hname', ?_⟩
  refine Option.bind_eq_some_iff.mpr ⟨_, hmodules', ?_⟩
  refine Option.bind_eq_some_iff.mpr ⟨_, hcontext', ?_⟩
  exact Option.bind_eq_some_iff.mpr ⟨_, hstore', rfl⟩

end Workspace

end Workspaces

section Apps

namespace Yaml.Value

mutual

theorem toJson?_ofJson (j : Json) : (ofJson j).toJson? = some j := by
  cases j with
  | array items => rw [ofJson, toJson?, itemsJson?_ofItems items, Option.map_some]
  | object members => rw [ofJson, toJson?, entriesJson?_ofMembers members, Option.map_some]
  | _ => rfl

theorem itemsJson?_ofItems (items : List Json) : itemsJson? (ofItems items) = some items := by
  match items with
  | [] => rfl
  | x :: rest =>
      rw [ofItems, itemsJson?, toJson?_ofJson x, itemsJson?_ofItems rest]
      rfl

theorem entriesJson?_ofMembers (members : List (String × Json)) :
    entriesJson? (ofMembers members) = some members := by
  match members with
  | [] => rfl
  | (k, x) :: rest =>
      rw [ofMembers, entriesJson?, toJson?_ofJson x, entriesJson?_ofMembers rest]
      rfl

end

end Yaml.Value

namespace Accessory

def json (a : Accessory) : Json := a.value.toJson?.getD .null

theorem exists_members_of_read? {d : Document} {a : Accessory} (hd : Within Unruled depth d)
    (h : read? d = some a) : ∃ members, a.value.toJson? = some (.object members) ∧
      read? (.json depth (.object members)) = some a := by
  obtain @⟨n, value, hn, -⟩ := hd
  obtain ⟨entries, hentries, rfl⟩ := Option.map_eq_some_iff.mp h
  cases value with
  | object members =>
      rw [mapping?, Option.ite_none_right_eq_some, Option.ite_none_right_eq_some] at hentries
      obtain ⟨hlimit, hdistinct, hentries⟩ := hentries
      obtain rfl := Option.some.inj hentries
      refine ⟨members, Yaml.Value.toJson?_ofJson (.object members), ?_⟩
      rw [read?, mapping?, if_pos (by omega), if_pos hdistinct, Option.map_some]
  | _ => cases hentries

variable {d : Document} {a : Accessory} (hd : Within Unruled depth d) (h : read? d = some a)

include hd h

theorem json_ne_null_of_read? : a.json ≠ .null := by
  obtain ⟨members, hmembers, -⟩ := exists_members_of_read? hd h
  rw [json, hmembers]
  exact nofun

omit hd h in
theorem stable : Stable depth read? json := by
  intro d a hd h
  obtain ⟨members, hmembers, hread⟩ := exists_members_of_read? hd h
  rw [json, hmembers]
  exact hread

end Accessory

namespace App

def slots (a : App) : Slots :=
  [("name", if a.name.isEmpty then none else some (.string a.name)),
    ("workload", a.workload.map Accessory.json),
    ("accessories", if a.accessories.isEmpty then none else
      some (.ofDict (a.accessories.mapValues Accessory.json)))]

theorem stable : Stable 0 read? fun a => a.slots.json := by
  apply Stable.record (by decide) (fun _ => rfl) (by decide)
  intro fields a hnodup hfields h
  obtain ⟨name, hname, h⟩ := Option.bind_eq_some_iff.mp h
  obtain ⟨workload, hworkload, h⟩ := Option.bind_eq_some_iff.mp h
  obtain ⟨accessories, haccessories, h⟩ := Option.bind_eq_some_iff.mp h
  obtain rfl := Option.some.inj h
  have hpresent : ∀ w, workload = some w → w.json ≠ .null := by
    rintro w rfl
    obtain ⟨inner, hinner, hread⟩ := Within.optionalField? hfields hworkload
    exact Accessory.json_ne_null_of_read? hinner (hinner.optional? hread)
  have hname' := Slots.withDefault?_stable hnodup hfields stable_text hname (by simp [slots])
    (omitted _ fun hempty => (String.isEmpty_iff.mp hempty).symm) rfl
  have hworkload' := Slots.optional?_stable hnodup hfields Accessory.stable hworkload
    (by simp [slots]) hpresent
  have haccessories' := Slots.withDefault?_stable hnodup hfields
    (Accessory.stable.dict (by decide)) haccessories (by simp [slots, ofDict])
    (omitted _ fun hempty => (List.isEmpty_iff.mp hempty).symm) rfl
  refine Option.bind_eq_some_iff.mpr ⟨_, hname', ?_⟩
  refine Option.bind_eq_some_iff.mpr ⟨_, hworkload', ?_⟩
  exact Option.bind_eq_some_iff.mpr ⟨_, haccessories', rfl⟩

end App

end Apps

end ResourceGraph
