import ResourceGraph.Text.Path
import ResourceGraph.Text.Split
import ResourceGraph.Text.Utf8

namespace ResourceGraph

inductive FileFault where
  | missing
  | isDirectory
  | notText
  deriving DecidableEq, Repr

def FileFault.message : FileFault → String
  | .missing => "No such file or directory (os error 2)"
  | .isDirectory => "Is a directory (os error 21)"
  | .notText => "stream did not contain valid UTF-8"

structure File where
  names : List (List Char)
  content : Bytes

/-- All files below the directory with the path `root`. -/
structure Files where
  root : String
  files : List File

inductive Found where
  | file (content : Bytes)
  | directory

namespace Files

def names (path : String) : List (List Char) :=
  (Text.split '/' path.toList).filter fun name => !name.isEmpty && name != ['.']

def ofList (root : String) (files : List (String × Bytes)) : Files :=
  ⟨root, files.map fun e => ⟨names e.1, e.2⟩⟩

def isDirectory (fs : Files) (names : List (List Char)) : Bool :=
  names.isEmpty || fs.files.any fun f => names.isPrefixOf f.names && names != f.names

def file? (fs : Files) (names : List (List Char)) : Option Bytes :=
  (fs.files.find? fun f => f.names == names).map File.content

/-- Follow the parts of a path from a directory. Every part but the last has to lead to a directory,
and so has the last one when it is empty. -/
def walk? (fs : Files) : List (List Char) → List (List Char) → Option Found
  | here, [] =>
      if fs.isDirectory here then some .directory else (fs.file? here).map .file
  | here, part :: rest =>
      if !fs.isDirectory here then none
      else if part.isEmpty || part == ['.'] then fs.walk? here rest
      else if part == ['.', '.'] then if here.isEmpty then none else fs.walk? here.dropLast rest
      else fs.walk? (here ++ [part]) rest

/-- What is at a path; nothing is outside the root. -/
def find? (fs : Files) (path : String) : Option Found := do
  let below ← Text.dropStart? fs.root.toList path.toList
  match below with
  | [] => return .directory
  | '/' :: rest => fs.walk? [] (Text.split '/' rest)
  | _ => none

def contains (fs : Files) (path : String) : Bool := (fs.find? path).isSome

def isFile (fs : Files) (path : String) : Bool :=
  match fs.find? path with
  | some (.file _) => true
  | _ => false

def readText (fs : Files) (path : String) : Except FileFault String :=
  match fs.find? path with
  | none => .error .missing
  | some .directory => .error .isDirectory
  | some (.file content) =>
      match content.text? with
      | some text => .ok text
      | none => .error .notText

end Files

end ResourceGraph
