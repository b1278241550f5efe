import ResourceGraph.App
import ResourceGraph.Generation.Error
import ResourceGraph.Resource
import ResourceGraph.Text.Base64

/-!
Secrets that a workload declares. Each becomes a resource whose data are base64 texts. The data of
an external secret are references `ref://<key>` or `ref://<key>/<property>` into the secret store.
-/

namespace ResourceGraph

inductive SecretKind where
  | basic
  | token
  | opaqueData
  | certificate
  | external
  deriving DecidableEq, Repr

namespace SecretKind

def ofName? : String → Option SecretKind
  | "basic" => some .basic
  | "token" => some .token
  | "opaque" => some .opaqueData
  | "certificate" => some .certificate
  | "external" => some .external
  | _ => none

def requiredKeys : SecretKind → List String
  | .basic => ["username", "password"]
  | .token => ["token"]
  | .certificate => ["tls.crt", "tls.key"]
  | .opaqueData | .external => []

def kubernetesName : SecretKind → String
  | .basic => "kubernetes.io/basic-auth"
  | .certificate => "kubernetes.io/tls"
  | .token | .opaqueData | .external => "Opaque"

end SecretKind

structure DeclaredSecret where
  type : String
  data : Dict String
  isImmutable : Bool
  deriving DecidableEq, Repr

namespace DeclaredSecret

def distinctFields : List (String × Yaml.Value) → Bool
  | [] => true
  | (k, _) :: rest => !rest.any (·.1 == k) && distinctFields rest

def read? (v : Yaml.Value) : Option DeclaredSecret := do
  let names := ["type", "data", "immutable"]
  let fields := (← v.asMembers?).filter fun e => names.contains e.1
  if !distinctFields fields then none
  let field? (name : String) : Option Yaml.Value := (fields.find? (·.1 == name)).map Prod.snd
  return {
    type := ← (← field? "type").asString?
    data := ← match field? "data" with
      | some v => v.asTextTable?
      | none => some []
    isImmutable := ← match field? "immutable" with
      | some v => v.asBool?
      | none => some false }

def ofWorkload (workload : Accessory) : Except SecretFault (Dict DeclaredSecret) :=
  match workload.get? "secrets" with
  | none | some .null => .ok []
  | some v =>
      match v.asMembers? with
      | none => .error .malformed
      | some members =>
          match members.mapM fun e => (read? e.2).map fun s => (e.1, s) with
          | none => .error .malformed
          | some secrets => .ok (Dict.ofList secrets)

end DeclaredSecret

namespace SecretStore

/-- The inline provider of a store, for the sake of a secret. -/
def inlineProvider (store : Option SecretStore) (secret : String) :
    Except SecretFault InlineProvider :=
  match store with
  | none => .error (.noStore secret)
  | some store =>
      match store.inlineProvider? with
      | none => .error (.unsupportedProvider secret store.provider.keys)
      | some none => .error .malformedStore
      | some (some provider) => .ok provider

end SecretStore

namespace InlineProvider

def target? (reference : String) : Option (String × Option String) :=
  (Text.dropStart? ['r', 'e', 'f', ':', '/', '/'] reference.toList).map fun path =>
    match Text.cutFirst? '/' path with
    | some (key, property) => (String.ofList key, some (String.ofList property))
    | none => (String.ofList path, none)

/-- The text to which a reference under a name refers: the first entry with the key decides. -/
def resolve (p : InlineProvider) (secret name reference : String) : Except SecretFault String :=
  match target? reference with
  | none => .error (.notAReference secret name)
  | some (key, property) =>
      match p.secrets.find? (·.key == key) with
      | none => .error (.unknownKey secret key)
      | some entry =>
          let value := match property with
            | some property => entry.properties.bind fun d => d.get? property
            | none => entry.value
          match value with
          | some v => .ok v
          | none => .error (.noValue secret reference)

def resolveAll (p : InlineProvider) (secret : String) :
    Dict String → Except SecretFault (Dict String)
  | [] => .ok []
  | (name, reference) :: rest => do
      let value ← p.resolve secret name reference
      let values ← p.resolveAll secret rest
      return (name, value) :: values

end InlineProvider

namespace DeclaredSecret

def texts (s : DeclaredSecret) (type : SecretKind) (name : String) (store : Option SecretStore) :
    Except SecretFault (Dict String) :=
  match type with
  | .external => do
      let provider ← SecretStore.inlineProvider store name
      provider.resolveAll name s.data
  | _ => .ok s.data

def resourceId (nameSpace name : String) : String := "v1:Secret:" ++ nameSpace ++ ":" ++ name

def encodedData (texts : Dict String) : Dict Json :=
  texts.mapValues fun s => .string (Base64.encodeText (Bytes.ofText s))

def attributes (nameSpace name : String) (type : SecretKind) (texts : Dict String)
    (isImmutable : Bool) : Dict Json :=
  [("apiVersion", .string "v1"), ("data", .object (encodedData texts))] ++
    (if isImmutable then [("immutable", .bool true)] else []) ++
    [("kind", .string "Secret"),
      ("metadata", .object [("name", .string name), ("namespace", .string nameSpace)]),
      ("type", .string type.kubernetesName)]

def resource (nameSpace : String) (store : Option SecretStore) (name : String)
    (s : DeclaredSecret) : Except SecretFault Resource :=
  match SecretKind.ofName? s.type with
  | none => .error (.unsupportedType name s.type)
  | some type =>
      match type.requiredKeys.find? fun key => !s.data.contains key with
      | some key => .error (.missingKey name s.type key)
      | none => do
          let texts ← s.texts type name store
          return .new (resourceId nameSpace name) .kubernetes
            (attributes nameSpace name type texts s.isImmutable)

def resources (nameSpace : String) (store : Option SecretStore) :
    Dict DeclaredSecret → Except SecretFault (List Resource)
  | [] => .ok []
  | (name, s) :: rest => do
      let r ← s.resource nameSpace store name
      let rs ← resources nameSpace store rest
      return r :: rs

def additions (nameSpace : String) (workload : Accessory) (store : Option SecretStore) :
    Except GenerationError (List Resource) :=
  (do resources nameSpace store (← ofWorkload workload)).mapError
    fun fault => .config (.secret fault)

end DeclaredSecret

end ResourceGraph
