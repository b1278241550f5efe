import ResourceGraph.Document

namespace ResourceGraph

structure RegistrySource where
  registry : String
  repo : String
  tag : String
  deriving DecidableEq, Repr

structure GitSource where
  url : String
  tag : String
  deriving DecidableEq, Repr

structure Dependency where
  name : String
  version : String
  registry : Option RegistrySource
  git : Option GitSource
  deriving DecidableEq, Repr

abbrev Dependencies := Dict Dependency

def RegistrySource.form : Form := .record [("reg", .whole), ("repo", .whole), ("tag", .whole)]

def RegistrySource.read? (d : Document) : Option RegistrySource := do
  let fields ← d.record? form
  return {
    registry := ← fields.withDefault? "reg" "" Document.text?
    repo := ← fields.required? "repo" Document.text?
    tag := ← fields.withDefault? "tag" "" Document.text? }

def RegistrySource.toJson (s : RegistrySource) : Json :=
  .record [Json.field "reg" (.string s.registry), Json.field "repo" (.string s.repo),
    Json.field "tag" (.string s.tag)]

def GitSource.form : Form := .record [("url", .whole), ("tag", .whole)]

def GitSource.read? (d : Document) : Option GitSource := do
  let fields ← d.record? form
  return {
    url := ← fields.required? "url" Document.text?
    tag := ← fields.withDefault? "tag" "" Document.text? }

def GitSource.toJson (s : GitSource) : Json :=
  .record [Json.field "url" (.string s.url), Json.field "tag" (.string s.tag)]

namespace Dependency

def ofRegistry (repo version : String) : Dependency := ⟨"", version, some ⟨"", repo, ""⟩, none⟩

def ofGit (url tag : String) : Dependency := ⟨"", "", none, some ⟨url, tag⟩⟩

def form : Form :=
  .record [("name", .whole), ("version", .whole), ("oci", RegistrySource.form),
    ("git", GitSource.form)]

def read? (d : Document) : Option Dependency := do
  let fields ← d.record? form
  return {
    name := ← fields.withDefault? "name" "" Document.text?
    version := ← fields.withDefault? "version" "" Document.text?
    registry := ← fields.optional? "oci" RegistrySource.read?
    git := ← fields.optional? "git" GitSource.read? }

def toJson (d : Dependency) : Json :=
  .record [Json.field "name" (.string d.name), Json.field "version" (.string d.version),
    Json.fieldOf "oci" d.registry RegistrySource.toJson, Json.fieldOf "git" d.git GitSource.toJson]

end Dependency

namespace Dependencies

def form : Form := .record [("deps", .each Dependency.form)]

def read? (d : Document) : Option Dependencies := do
  let fields ← d.record? form
  fields.withDefault? "deps" [] (Document.dict? Dependency.read?)

def schema : Schema Dependencies := ⟨form, read?⟩

def toJson (d : Dependencies) : Json :=
  .record [Json.field "deps" (.ofDict (Dict.mapValues Dependency.toJson d))]

end Dependencies

end ResourceGraph
