import ResourceGraph.Patcher
import ResourceGraph.Plugin.Frame
import ResourceGraph.Resource
import ResourceGraph.Text.Blank
import ResourceGraph.Text.Split

namespace ResourceGraph

def Response.encode (resources : List Resource) (patcher : Option Patcher) : Response :=
  ⟨resources.map fun r => Bytes.ofText r.toJson.text,
    patcher.map fun p => Bytes.ofText p.toJson.text⟩

/-- Why a module fails: the cause last, each message before it about what it led to. -/
abbrev Failure := List String

def Failure.message (f : Failure) : String := ": ".intercalate f

/-- The logic of a module. It may remember things between requests. -/
abbrev Module (σ : Type) := σ → Request → Except Failure Response × σ

namespace Module

/-- The reply to a line. A line that is no call has no trace. -/
def reply {σ : Type} (m : Module σ) (s : σ) (line : String) : Reply × σ :=
  match Call.ofLine? line with
  | none => (.ofError "" "malformed request frame: the line does not hold a call", s)
  | some call =>
      match m s call.request with
      | (.ok response, s) => (.ofResponse call.trace response, s)
      | (.error failure, s) => (.ofError call.trace failure.message, s)

def replies {σ : Type} (m : Module σ) : σ → List String → List Reply × σ
  | s, [] => ([], s)
  | s, line :: rest =>
      if Text.allBlank line then m.replies s rest
      else
        let (first, s) := m.reply s line
        let (more, s) := m.replies s rest
        (first :: more, s)

/-- A line feed ends a line, also with a carriage return before it. -/
def withoutReturn (line : List Char) : List Char :=
  if line.getLast? == some '\r' then line.dropLast else line

def lines (input : String) : List String :=
  let parts := Text.split '\n' input.toList
  let ended := parts.dropLast.map fun part => String.ofList (withoutReturn part)
  match parts.getLast? with
  | some [] | none => ended
  -- The last line has no line feed, so that a carriage return belongs to it.
  | some rest => ended ++ [String.ofList rest]

def serve {σ : Type} (m : Module σ) (s : σ) (input : String) : List Reply × σ :=
  m.replies s (lines input)

def output (replies : List Reply) : String :=
  String.join (replies.map fun r => r.line ++ "\n")

end Module

end ResourceGraph
