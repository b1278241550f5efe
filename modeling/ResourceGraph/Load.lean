import ResourceGraph.App
import ResourceGraph.Dependency
import ResourceGraph.Files
import ResourceGraph.Project
import ResourceGraph.Workspace

namespace ResourceGraph

def Files.document {α : Type} (fs : Files) (path : String) (schema : Schema α) :
    Except ModelError α :=
  match fs.readText path with
  | .error fault => .error (.unreadable path fault.message)
  | .ok text =>
      match schema.ofYamlText? text with
      | some x => .ok x
      | none => .error .malformed

/-- The project of a directory has a name. -/
def Project.load (fs : Files) (directory : String) : Except ModelError Project := do
  let project ← fs.document (Path.join directory "project.yaml") Project.schema
  if project.name.isEmpty then throw (.invalidConfig (.namelessProject directory))
  return project

/-- A stack without a path has its directory as path. -/
def Stack.load (fs : Files) (directory : String) : Except ModelError Stack := do
  let stack ← fs.document (Path.join directory "stack.yaml") Stack.schema
  return if stack.path.isEmpty then { stack with path := directory } else stack

def Workspace.load (fs : Files) (path : String) : Except ModelError Workspace :=
  fs.document path Workspace.schema

def App.load (fs : Files) (path : String) : Except ModelError App := fs.document path App.schema

def Dependencies.load (fs : Files) (path : String) : Except ModelError Dependencies :=
  fs.document path Dependencies.schema

end ResourceGraph
