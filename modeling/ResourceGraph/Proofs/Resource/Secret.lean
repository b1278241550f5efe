import Mathlib.Data.List.Forall2
import ResourceGraph.Proofs.Generation.Settled
import ResourceGraph.Proofs.Plugin.Frame
import ResourceGraph.Proofs.Plugin.Wire

theorem List.exists_forall₂_iff {α : Type u} {β : Type v} {R : α → β → Prop} {xs : List α} :
    (∃ ys, List.Forall₂ R xs ys) ↔ ∀ x ∈ xs, ∃ y, R x y := by
  constructor
  · rintro ⟨ys, h⟩
    induction h with
    | nil => exact nofun
    | cons hxy _ ih => exact List.forall_mem_cons.mpr ⟨⟨_, hxy⟩, ih⟩
  · intro h
    induction xs with
    | nil => exact ⟨[], .nil⟩
    | cons x xs ih =>
        obtain ⟨⟨y, hxy⟩, hxs⟩ := List.forall_mem_cons.mp h
        obtain ⟨ys, hys⟩ := ih hxs
        exact ⟨y :: ys, .cons hxy hys⟩

namespace ResourceGraph

namespace InlineProvider

def First (p : InlineProvider) (key : String) (entry : InlineSecret) : Prop :=
  ∃ before after, p.secrets = before ++ entry :: after ∧ entry.key = key ∧
    ∀ e ∈ before, e.key ≠ key

/-- The text that a reference stands for. A key ends before the first slash, and what follows the
slash is a property. -/
inductive Refers (p : InlineProvider) : String → String → Prop
  | value {key text : String} {entry : InlineSecret} (undivided : '/' ∉ key.toList)
      (first : p.First key entry) (value_eq : entry.value = some text) :
      Refers p ("ref://" ++ key) text
  | property {key property text : String} {entry : InlineSecret} {table : Dict String}
      (undivided : '/' ∉ key.toList) (first : p.First key entry)
      (properties_eq : entry.properties = some table) (text_eq : table.get? property = some text) :
      Refers p ("ref://" ++ key ++ "/" ++ property) text

variable {p : InlineProvider} {secret name key reference text : String}

theorem find?_eq_some_iff_first {entry : InlineSecret} :
    p.secrets.find? (·.key == key) = some entry ↔ p.First key entry := by
  rw [List.find?_eq_some_iff_append, First]
  constructor
  · rintro ⟨hkey, before, after, hsecrets, hbefore⟩
    exact ⟨before, after, hsecrets, beq_iff_eq.mp hkey, fun e he => by simpa using hbefore e he⟩
  · rintro ⟨before, after, hsecrets, hkey, hbefore⟩
    exact ⟨beq_iff_eq.mpr hkey, before, after, hsecrets, fun e he => by simpa using hbefore e he⟩

theorem target?_eq_some_iff {target : String × Option String} :
    target? reference = some target ↔ ∃ path, reference.toList = "ref://".toList ++ path ∧
      (match Text.cutFirst? '/' path with
        | some (key, property) => (String.ofList key, some (String.ofList property))
        | none => (String.ofList path, none)) = target := by
  rw [target?, Option.map_eq_some_iff]
  refine exists_congr fun path => and_congr_left fun _ => ?_
  exact Text.dropStart?_eq_some_iff

theorem target?_eq_some_none_iff :
    target? reference = some (key, none) ↔ reference = "ref://" ++ key ∧ '/' ∉ key.toList := by
  rw [target?_eq_some_iff]
  constructor
  · rintro ⟨path, hreference, htarget⟩
    split at htarget
    · exact nomatch htarget
    · next hcut =>
      obtain ⟨rfl, -⟩ := Prod.mk.inj htarget
      rw [String.toList_ofList]
      refine ⟨?_, Text.cutFirst?_eq_none.mp hcut⟩
      apply String.toList_inj.mp
      rw [hreference]
      simp
  · rintro ⟨rfl, hkey⟩
    refine ⟨key.toList, String.toList_append, ?_⟩
    rw [Text.cutFirst?_eq_none.mpr hkey, String.ofList_toList]

theorem target?_eq_some_some_iff {property : String} :
    target? reference = some (key, some property) ↔
      reference = "ref://" ++ key ++ "/" ++ property ∧ '/' ∉ key.toList := by
  rw [target?_eq_some_iff]
  constructor
  · rintro ⟨path, hreference, htarget⟩
    split at htarget
    · next before after hcut =>
      obtain ⟨rfl, hproperty⟩ := Prod.mk.inj htarget
      obtain rfl := Option.some.inj hproperty
      obtain ⟨rfl, hbefore⟩ := Text.cutFirst?_eq_some hcut
      rw [String.toList_ofList]
      refine ⟨?_, hbefore⟩
      apply String.toList_inj.mp
      rw [hreference]
      simp
    · exact nomatch htarget
  · rintro ⟨rfl, hkey⟩
    refine ⟨key.toList ++ '/' :: property.toList, by simp, ?_⟩
    simp [Text.cutFirst?_append hkey]

theorem resolve_eq_ok_iff : p.resolve secret name reference = .ok text ↔ p.Refers reference text := by
  unfold resolve
  constructor
  · intro h
    split at h
    · contradiction
    · next key property htarget =>
      split at h
      · contradiction
      · next entry hentry =>
        have hfirst := find?_eq_some_iff_first.mp hentry
        dsimp only at h
        split at h
        · next value hvalue =>
          obtain rfl := Except.ok.inj h
          cases property with
          | none =>
              obtain ⟨rfl, hkey⟩ := target?_eq_some_none_iff.mp htarget
              exact .value hkey hfirst hvalue
          | some property =>
              obtain ⟨rfl, hkey⟩ := target?_eq_some_some_iff.mp htarget
              obtain ⟨table, htable, hvalue⟩ := Option.bind_eq_some_iff.mp hvalue
              exact .property hkey hfirst htable hvalue
        · contradiction
  · rintro (⟨hkey, hfirst, hvalue⟩ | ⟨hkey, hfirst, htable, hvalue⟩)
    · simp [target?_eq_some_none_iff.mpr ⟨rfl, hkey⟩, find?_eq_some_iff_first.mpr hfirst, hvalue]
    · simp [target?_eq_some_some_iff.mpr ⟨rfl, hkey⟩, find?_eq_some_iff_first.mpr hfirst, htable,
        hvalue]

theorem resolveAll_eq_ok_iff {data texts : Dict String} :
    p.resolveAll secret data = .ok texts ↔
      List.Forall₂ (fun d t => t.1 = d.1 ∧ p.Refers d.2 t.2) data texts := by
  induction data generalizing texts with
  | nil =>
      rw [resolveAll, List.forall₂_nil_left_iff, Except.ok.injEq, eq_comm]
  | cons d rest ih =>
      rw [resolveAll, Except.bind_eq_ok_iff, List.forall₂_cons_left_iff]
      simp only [Except.bind_eq_ok_iff, Except.pure_eq_ok_iff, resolve_eq_ok_iff, ih]
      constructor
      · rintro ⟨text, htext, texts', htexts', rfl⟩
        exact ⟨(d.1, text), texts', ⟨rfl, htext⟩, htexts', rfl⟩
      · rintro ⟨⟨_, text⟩, texts', ⟨rfl, htext⟩, htexts', rfl⟩
        exact ⟨text, htext, texts', htexts', rfl⟩

end InlineProvider

def SecretStore.Provides (store : Option SecretStore) (p : InlineProvider) : Prop :=
  ∃ s config, store = some s ∧ s.provider.get? "fake" = some config ∧
    InlineProvider.read? (.ofJson config) = some p

theorem SecretStore.inlineProvider_eq_ok_iff {store : Option SecretStore} {secret : String}
    {p : InlineProvider} : inlineProvider store secret = .ok p ↔ Provides store p := by
  unfold inlineProvider Provides
  cases store with
  | none => simp
  | some s =>
      dsimp only
      cases hconfig : s.provider.get? "fake" with
      | none => simp [inlineProvider?, hconfig]
      | some config =>
          cases hread : InlineProvider.read? (.ofJson config) with
          | none => simp [inlineProvider?, hconfig, hread]
          | some p' => simp [inlineProvider?, hconfig, hread]

def SecretKind.name : SecretKind → String
  | .basic => "basic"
  | .token => "token"
  | .opaqueData => "opaque"
  | .certificate => "certificate"
  | .external => "external"

theorem SecretKind.ofName?_eq_some_iff {name : String} {type : SecretKind} :
    ofName? name = some type ↔ name = type.name := by
  constructor
  · intro h
    unfold ofName? at h
    split at h <;> cases h <;> rfl
  · rintro rfl
    cases type <;> rfl

namespace DeclaredSecret

/-- A declared secret has a type, all that its type requires, and only references that stand for
texts if it is external. -/
inductive Complete (store : Option SecretStore) (s : DeclaredSecret) : Prop
  | basic (type_eq : s.type = "basic") (username : "username" ∈ s.data.keys)
      (password : "password" ∈ s.data.keys)
  | token (type_eq : s.type = "token") (token : "token" ∈ s.data.keys)
  | opaqueData (type_eq : s.type = "opaque")
  | certificate (type_eq : s.type = "certificate") (certificate : "tls.crt" ∈ s.data.keys)
      (key : "tls.key" ∈ s.data.keys)
  | external {p : InlineProvider} (type_eq : s.type = "external")
      (provides : SecretStore.Provides store p)
      (refers : ∀ d ∈ s.data, ∃ text, p.Refers d.2 text)

/-- The text behind a declared text: itself, or what it refers to. -/
def Means (store : Option SecretStore) (s : DeclaredSecret) (declared text : String) : Prop :=
  if s.type = "external" then ∃ p, SecretStore.Provides store p ∧ p.Refers declared text
  else text = declared

def Encodes (value : Json) (text : String) : Prop :=
  ∃ code, value = .string code ∧ (Base64.decodeText? code).bind Bytes.text? = some text

/-- The resource of a declared secret has its keys with the texts that they mean. -/
structure Publishes (nameSpace : String) (store : Option SecretStore) (name : String)
    (s : DeclaredSecret) (r : Resource) : Prop where
  id_eq : r.id = "v1:Secret:" ++ nameSpace ++ ":" ++ name
  type_eq : r.type = .kubernetes
  data : ∃ data, r.attributes.get? "data" = some (.object data) ∧
    List.Forall₂ (fun d e => e.1 = d.1 ∧ ∃ text, Encodes e.2 text ∧ s.Means store d.2 text)
      s.data data
  immutable_eq : r.attributes.get? "immutable" = if s.isImmutable then some (.bool true) else none

variable {nameSpace name : String} {store : Option SecretStore} {s : DeclaredSecret}
  {type : SecretKind} {texts : Dict String}

theorem find?_requiredKeys_eq_none_iff :
    (type.requiredKeys.find? fun key => !s.data.contains key) = none ↔
      ∀ key ∈ type.requiredKeys, key ∈ s.data.keys := by
  rw [List.find?_eq_none]
  refine forall₂_congr fun key _ => ?_
  rw [Dict.mem_keys_iff, Dict.contains, Bool.not_eq_true, Bool.not_eq_false']

theorem resource_eq_ok_iff {r : Resource} :
    s.resource nameSpace store name = .ok r ↔
      ∃ type texts, s.type = type.name ∧ (∀ key ∈ type.requiredKeys, key ∈ s.data.keys) ∧
        s.texts type name store = .ok texts ∧
        r = .new (resourceId nameSpace name) .kubernetes
          (attributes nameSpace name type texts s.isImmutable) := by
  unfold resource
  constructor
  · intro h
    split at h
    · contradiction
    · next type htype =>
      split at h
      · contradiction
      · next hkeys =>
        obtain ⟨texts, htexts, h⟩ := Except.bind_eq_ok_iff.mp h
        exact ⟨type, texts, SecretKind.ofName?_eq_some_iff.mp htype,
          find?_requiredKeys_eq_none_iff.mp hkeys, htexts, (Except.pure_eq_ok_iff.mp h).symm⟩
  · rintro ⟨type, texts, htype, hkeys, htexts, rfl⟩
    rw [SecretKind.ofName?_eq_some_iff.mpr htype]
    dsimp only
    rw [find?_requiredKeys_eq_none_iff.mpr hkeys]
    exact Except.bind_eq_ok_iff.mpr ⟨texts, htexts, rfl⟩

theorem texts_external_eq_ok_iff :
    s.texts .external name store = .ok texts ↔
      ∃ p, SecretStore.Provides store p ∧
        List.Forall₂ (fun d t => t.1 = d.1 ∧ p.Refers d.2 t.2) s.data texts := by
  rw [DeclaredSecret.texts, Except.bind_eq_ok_iff]
  simp only [SecretStore.inlineProvider_eq_ok_iff, InlineProvider.resolveAll_eq_ok_iff]

theorem texts_of_ne_external (h : type ≠ .external) : s.texts type name store = .ok s.data := by
  cases type with
  | external => exact absurd rfl h
  | _ => rfl

theorem exists_texts_iff :
    (∃ texts, s.texts type name store = .ok texts) ↔
      (type = .external → ∃ p, SecretStore.Provides store p ∧
        ∀ d ∈ s.data, ∃ text, p.Refers d.2 text) := by
  by_cases htype : type = .external
  · subst htype
    simp only [texts_external_eq_ok_iff, forall_const]
    rw [exists_comm]
    refine exists_congr fun p => ?_
    rw [exists_and_left, List.exists_forall₂_iff]
    refine and_congr_right fun _ => forall₂_congr fun d _ => ?_
    constructor
    · rintro ⟨t, -, ht⟩
      exact ⟨t.2, ht⟩
    · rintro ⟨text, htext⟩
      exact ⟨(d.1, text), rfl, htext⟩
  · constructor
    · intro _ hexternal
      exact absurd hexternal htype
    · intro _
      exact ⟨s.data, texts_of_ne_external htype⟩

theorem name_eq_external_iff : type.name = "external" ↔ type = .external := by
  cases type <;> decide

theorem forall₂_means (htype : s.type = type.name) (h : s.texts type name store = .ok texts) :
    List.Forall₂ (fun d t => t.1 = d.1 ∧ s.Means store d.2 t.2) s.data texts := by
  by_cases hexternal : type = .external
  · subst hexternal
    obtain ⟨p, hp, htexts⟩ := texts_external_eq_ok_iff.mp h
    have hname : s.type = "external" := htype
    refine htexts.imp ?_
    rintro d t ⟨hkey, htext⟩
    refine ⟨hkey, ?_⟩
    rw [Means, if_pos hname]
    exact ⟨p, hp, htext⟩
  · rw [texts_of_ne_external hexternal] at h
    obtain rfl := Except.ok.inj h
    refine List.forall₂_same.mpr fun d _ => ⟨rfl, ?_⟩
    rw [Means, if_neg (htype ▸ fun h => hexternal (name_eq_external_iff.mp h))]

theorem complete_iff :
    s.Complete store ↔ ∃ type : SecretKind, s.type = type.name ∧
      (∀ key ∈ type.requiredKeys, key ∈ s.data.keys) ∧
      (type = .external → ∃ p, SecretStore.Provides store p ∧
        ∀ d ∈ s.data, ∃ text, p.Refers d.2 text) := by
  constructor
  · rintro (⟨htype, husername, hpassword⟩ | ⟨htype, htoken⟩ | htype | ⟨htype, hcertificate, hkey⟩ |
      ⟨htype, hprovides, hrefers⟩)
    · exact ⟨.basic, htype, by simp [SecretKind.requiredKeys, husername, hpassword], nofun⟩
    · exact ⟨.token, htype, by simp [SecretKind.requiredKeys, htoken], nofun⟩
    · exact ⟨.opaqueData, htype, nofun, nofun⟩
    · exact ⟨.certificate, htype, by simp [SecretKind.requiredKeys, hcertificate, hkey], nofun⟩
    · exact ⟨.external, htype, nofun, fun _ => ⟨_, hprovides, hrefers⟩⟩
  · rintro ⟨type, htype, hkeys, hrefers⟩
    cases type with
    | basic => exact .basic htype (hkeys _ (by decide)) (hkeys _ (by decide))
    | token => exact .token htype (hkeys _ (by decide))
    | opaqueData => exact .opaqueData htype
    | certificate => exact .certificate htype (hkeys _ (by decide)) (hkeys _ (by decide))
    | external =>
        obtain ⟨p, hprovides, hrefers⟩ := hrefers rfl
        exact .external htype hprovides hrefers

theorem exists_resource_iff :
    (∃ r, s.resource nameSpace store name = .ok r) ↔ s.Complete store := by
  rw [complete_iff]
  constructor
  · rintro ⟨r, hr⟩
    obtain ⟨type, texts, htype, hkeys, htexts, -⟩ := resource_eq_ok_iff.mp hr
    exact ⟨type, htype, hkeys, exists_texts_iff.mp ⟨texts, htexts⟩⟩
  · rintro ⟨type, htype, hkeys, hrefers⟩
    obtain ⟨texts, htexts⟩ := exists_texts_iff.mpr hrefers
    exact ⟨_, resource_eq_ok_iff.mpr ⟨type, texts, htype, hkeys, htexts, rfl⟩⟩

theorem encodes_encodeText (text : String) :
    Encodes (.string (Base64.encodeText (Bytes.ofText text))) text := by
  refine ⟨_, rfl, ?_⟩
  rw [Base64.decodeText?_encodeText]
  exact Bytes.text?_ofText text

theorem publishes_of_resource {r : Resource} (h : s.resource nameSpace store name = .ok r) :
    s.Publishes nameSpace store name r := by
  obtain ⟨type, texts, htype, -, htexts, rfl⟩ := resource_eq_ok_iff.mp h
  refine ⟨rfl, rfl, ⟨encodedData texts, rfl, ?_⟩, ?_⟩
  · apply List.forall₂_map_right_iff.mpr
    refine (forall₂_means htype htexts).imp ?_
    rintro d t ⟨hkey, hmeans⟩
    exact ⟨hkey, t.2, encodes_encodeText t.2, hmeans⟩
  · cases hs : s.isImmutable <;> rfl

variable {workload : Accessory} {added : List Resource}

theorem additions_eq_ok_iff :
    additions nameSpace workload store = .ok added ↔
      ∃ declared, ofWorkload workload = .ok declared ∧
        List.Forall₂ (fun e r => e.2.resource nameSpace store e.1 = .ok r) declared added := by
  rw [additions, Except.mapError_eq_ok_iff, Except.bind_eq_ok_iff]
  simp only [resources_eq_ok_iff]

theorem exists_additions_iff :
    (∃ added, additions nameSpace workload store = .ok added) ↔
      ∃ declared, ofWorkload workload = .ok declared ∧ ∀ e ∈ declared, e.2.Complete store := by
  simp only [additions_eq_ok_iff]
  rw [exists_comm]
  refine exists_congr fun declared => ?_
  rw [exists_and_left, List.exists_forall₂_iff]
  simp only [exists_resource_iff]

theorem publishes_of_additions (h : additions nameSpace workload store = .ok added) :
    ∃ declared, ofWorkload workload = .ok declared ∧ declared.Sorted ∧
      List.Forall₂ (fun e r => e.2.Publishes nameSpace store e.1 r) declared added := by
  obtain ⟨declared, hdeclared, hresources⟩ := additions_eq_ok_iff.mp h
  refine ⟨declared, hdeclared, sorted_ofWorkload hdeclared, hresources.imp ?_⟩
  intro e r
  exact publishes_of_resource

theorem exists_additions_of_plan {g : Generation} {resources : List Resource} {plan : Plan}
    (hworkload : g.app.workload = some workload) (h : g.plan resources = .ok plan) :
    ∃ added, additions g.nameSpace workload g.workspace.secretStore = .ok added ∧
      plan.resources = resources ++ Namespace.additions g.nameSpace resources ++ added := by
  obtain ⟨builtins, hbuiltins, hresources⟩ := Generation.exists_builtins_of_plan h
  rw [Generation.builtins, hworkload] at hbuiltins
  obtain ⟨added, hadded, hbuiltins⟩ := Except.bind_eq_ok_iff.mp hbuiltins
  refine ⟨added, hadded, ?_⟩
  rw [hresources, ← Except.pure_eq_ok_iff.mp hbuiltins, List.append_assoc]

/-- The secrets of a workload become resources exactly when they can be read and all of them are
complete: one for each, in the order of the names, after the resources that are there. A workload
with other secrets is refused as misconfigured. -/
theorem additions_exact (nameSpace : String) (workload : Accessory) (store : Option SecretStore) :
    ((∃ added, additions nameSpace workload store = .ok added) ↔
      ∃ declared, ofWorkload workload = .ok declared ∧ ∀ e ∈ declared, e.2.Complete store) ∧
    (∀ added, additions nameSpace workload store = .ok added →
      ∃ declared, ofWorkload workload = .ok declared ∧ declared.Sorted ∧
        List.Forall₂ (fun e r => e.2.Publishes nameSpace store e.1 r) declared added) ∧
    (∀ g : Generation, g.app.workload = some workload → g.nameSpace = nameSpace →
      g.workspace.secretStore = store → ∀ resources plan, g.plan resources = .ok plan →
        ∃ added, additions nameSpace workload store = .ok added ∧
          plan.resources = resources ++ Namespace.additions nameSpace resources ++ added) ∧
    ∀ e, additions nameSpace workload store = .error e → ∃ fault, e = .config (.secret fault) := by
  refine ⟨exists_additions_iff, fun added => publishes_of_additions, ?_, ?_⟩
  · rintro g hworkload rfl rfl resources plan hplan
    exact exists_additions_of_plan hworkload hplan
  · intro e he
    obtain ⟨fault, -, hfault⟩ := Except.mapError_eq_error_iff.mp he
    exact ⟨fault, hfault.symm⟩

def credentials : Accessory :=
  ⟨[(.string "_type", .string "service.Service"),
    (.string "secrets", .mapping
      [(.string "login", .mapping
        [(.string "type", .string "basic"), (.string "immutable", .bool true),
          (.string "data", .mapping
            [(.string "username", .string "admin"), (.string "password", .string "pässwörd")])]),
      (.string "api", .mapping
        [(.string "type", .string "external"),
          (.string "data", .mapping
            [(.string "key", .string "ref://api-keys/eu/primary"),
              (.string "pass", .string "ref://plain")])])])]⟩

def vault : SecretStore :=
  ⟨[("fake", .object [("data", .array
    [.object [("key", .string "api-keys"), ("valueMap", .object [("eu/primary", .string "abc123")])],
      .object [("key", .string "plain"), ("value", .string "hunter2")],
      .object [("key", .string "plain"), ("value", .string "other")]])])]⟩

def credentialGeneration : Generation :=
  ⟨⟨"shop", none, []⟩, ⟨"dev", "/dev", []⟩, ⟨"web", some credentials, []⟩,
    ⟨"dev", [], none, some vault⟩, [("service", .ofRegistry "acme/service" "1")]⟩

def publishedLogin : Resource :=
  .new "v1:Secret:shop:login" .kubernetes
    [("apiVersion", .string "v1"),
      ("data", .object [("password", .string "cMOkc3N3w7ZyZA=="), ("username", .string "YWRtaW4=")]),
      ("immutable", .bool true), ("kind", .string "Secret"),
      ("metadata", .object [("name", .string "login"), ("namespace", .string "shop")]),
      ("type", .string "kubernetes.io/basic-auth")]

def publishedApi : Resource :=
  .new "v1:Secret:shop:api" .kubernetes
    [("apiVersion", .string "v1"),
      ("data", .object [("key", .string "YWJjMTIz"), ("pass", .string "aHVudGVyMg==")]),
      ("kind", .string "Secret"),
      ("metadata", .object [("name", .string "api"), ("namespace", .string "shop")]),
      ("type", .string "Opaque")]

theorem additions_exact_of_credentials :
    additions "shop" credentials (some vault) = .ok [publishedApi, publishedLogin] ∧
      (∃ declared, ofWorkload credentials = .ok declared ∧ declared.Sorted ∧
        List.Forall₂ (fun e r => e.2.Publishes "shop" (some vault) e.1 r) declared
          [publishedApi, publishedLogin]) ∧
      (∃ plan, credentialGeneration.plan [Namespace.resource "shop"] = .ok plan ∧
        plan.resources = [Namespace.resource "shop", publishedApi, publishedLogin]) ∧
      ∃ e, additions "shop" credentials none = .error e ∧ ∃ fault, e = .config (.secret fault) := by
  have hadded : additions "shop" credentials (some vault) = .ok [publishedApi, publishedLogin] :=
    Except.toOption_eq_some_iff.mp (by decide +kernel)
  have hplan : ∃ plan, credentialGeneration.plan [Namespace.resource "shop"] = .ok plan := by
    have hsome : (credentialGeneration.plan [Namespace.resource "shop"]).toOption.isSome = true := by
      decide +kernel
    obtain ⟨plan, hplan⟩ := Option.isSome_iff_exists.mp hsome
    exact ⟨plan, Except.toOption_eq_some_iff.mp hplan⟩
  obtain ⟨-, published, kept, -⟩ := additions_exact "shop" credentials (some vault)
  refine ⟨hadded, published _ hadded, ?_, ?_⟩
  · obtain ⟨plan, hplan⟩ := hplan
    refine ⟨plan, hplan, ?_⟩
    obtain ⟨added, hadded', hresources⟩ := kept credentialGeneration rfl rfl rfl _ plan hplan
    obtain rfl := Except.ok.inj (hadded.symm.trans hadded')
    exact hresources
  · refine ⟨.config (.secret (.noStore "api")), rfl, ?_⟩
    obtain ⟨-, -, -, refused⟩ := additions_exact "shop" credentials none
    exact refused _ rfl

end DeclaredSecret

end ResourceGraph
