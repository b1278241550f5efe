import ResourceGraph.Document

namespace ResourceGraph

structure SecretStore where
  provider : Dict Json
  deriving DecidableEq, Repr

structure InlineSecret where
  key : String
  value : Option String
  properties : Option (Dict String)
  deriving DecidableEq, Repr

structure InlineProvider where
  secrets : List InlineSecret
  deriving DecidableEq, Repr

def InlineSecret.form : Form := .record [("key", .whole), ("value", .whole), ("valueMap", .whole)]

def InlineSecret.read? (d : Document) : Option InlineSecret := do
  let fields ← d.record? form
  return {
    key := ← fields.required? "key" Document.text?
    value := ← fields.optional? "value" Document.text?
    properties := ← fields.optional? "valueMap" (Document.dict? Document.text?) }

def InlineSecret.toJson (s : InlineSecret) : Json :=
  .record [Json.field "key" (.string s.key), Json.fieldOf "value" s.value .string,
    Json.fieldOf "valueMap" s.properties .ofStringDict]

def InlineProvider.form : Form := .record [("data", .each InlineSecret.form)]

def InlineProvider.read? (d : Document) : Option InlineProvider := do
  let fields ← d.record? form
  return ⟨← fields.withDefault? "data" [] (Document.list? InlineSecret.read?)⟩

def InlineProvider.toJson (p : InlineProvider) : Json :=
  .record [Json.field "data" (.array (p.secrets.map InlineSecret.toJson))]

namespace SecretStore

def form : Form := .record [("provider", .whole)]

def read? (d : Document) : Option SecretStore := do
  let fields ← d.record? form
  return ⟨← fields.withDefault? "provider" [] (Document.dict? Document.json?)⟩

def schema : Schema SecretStore := ⟨form, read?⟩

def toJson (s : SecretStore) : Json := .record [Json.field "provider" (.ofDict s.provider)]

/-- The configuration of the inline provider: absent, malformed (`some none`) or read. -/
def inlineProvider? (s : SecretStore) : Option (Option InlineProvider) :=
  (s.provider.get? "fake").map fun config => InlineProvider.read? (.ofJson config)

end SecretStore

end ResourceGraph
