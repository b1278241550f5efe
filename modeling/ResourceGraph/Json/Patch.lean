import ResourceGraph.Generation.Error
import ResourceGraph.Json.Pointer

/-!
JSON patches: operations that are applied one after the other, the first failure failing all. The
relaxed application differs in two ways: a `remove` of what is absent does nothing, and an `add`
first creates the missing parents.
-/

namespace ResourceGraph.Json

/-- One operation; a path is kept as it was written beside the place it denotes. -/
inductive Operation where
  | add (path : Pointer) (value : Json)
  | remove (path : Pointer)
  | replace (path : Pointer) (value : Json)
  | move (source path : Pointer)
  | copy (source path : Pointer)
  | test (path : Pointer) (value : Json)
  deriving DecidableEq, Repr

namespace Operation

def fieldNames? : String → Option (List String)
  | "add" | "replace" | "test" => some ["path", "value"]
  | "remove" => some ["path"]
  | "move" | "copy" => some ["from", "path"]
  | _ => none

def ofFields? (name : String) (fields : List (String × Json)) : Option Operation := do
  let value? (field : String) : Option Json := (fields.find? (·.1 == field)).map Prod.snd
  let pointer? (field : String) : Option Pointer := do
    Pointer.ofText? (← (← value? field).asString?)
  match name with
  | "add" => return .add (← pointer? "path") (← value? "value")
  | "remove" => return .remove (← pointer? "path")
  | "replace" => return .replace (← pointer? "path") (← value? "value")
  | "move" => return .move (← pointer? "from") (← pointer? "path")
  | "copy" => return .copy (← pointer? "from") (← pointer? "path")
  | "test" => return .test (← pointer? "path") (← value? "value")
  | _ => none

/-- An operation is an object with a member `op`, or an array of its name and its fields. -/
def ofJson? : Json → Option Operation
  | .object members => do
      let name ← (← Dict.get? members "op").asString?
      ofFields? name members
  | .array (op :: items) => do
      let name ← op.asString?
      let names ← fieldNames? name
      if names.length < items.length then none
      ofFields? name (names.zip items)
  | _ => none

def orFail (r : Option Json) (fault : OperationFault) : Except OperationFault Json :=
  match r with
  | some x => .ok x
  | none => .error fault

/-- A place below another one, but not that place itself. -/
def isInside (path source : Pointer) : Bool := source.isPrefixOf path && source.length < path.length

def apply (doc : Json) : Operation → Except OperationFault Json
  | .add path value => orFail (addAt? value path doc) .invalidPath
  | .remove path => orFail (removeAt? path doc) .invalidPath
  | .replace path value => orFail (replaceAt? value path doc) .invalidPath
  | .move source path =>
      if isInside path source then .error .moveInsideItself
      else
        match doc.at? source, removeAt? source doc with
        | some value, some rest => orFail (addAt? value path rest) .invalidPath
        | _, _ => .error .invalidFrom
  | .copy source path =>
      match doc.at? source with
      | some value => orFail (addAt? value path doc) .invalidPath
      | none => .error .invalidFrom
  | .test path value =>
      match doc.at? path with
      | none => .error .invalidPath
      | some found => if found.agrees value then .ok doc else .error .testFailed

end Operation

/-- The container in which a token is looked up: an array for an index or `-`. -/
def containerFor (token : String) : Json :=
  if token = "-" || (Pointer.looseIndex? token).isSome then .array [] else .object []

def padTo (items : List Json) (length : Nat) : List Json :=
  items ++ List.replicate (length - items.length) .null

/-- The position that a token addresses in an array; `-` is one past its end. -/
def position? (token : String) (items : List Json) : Option Nat :=
  if token = "-" then some items.length else Pointer.looseIndex? token

/-- Create the containers that are missing or null on the way to a place. An array created here is
padded with nulls up to the index that is addressed in it; `fresh` says that this value is one.
What exists and is no container ends the way. -/
def withParents (fresh : Bool) : Pointer → Json → Json
  | [], x => x
  | [last], x =>
      match x with
      | .array items =>
          if fresh then
            match Pointer.looseIndex? last with
            | some i => .array (padTo items i)
            | none => x
          else x
      | _ => x
  | t :: rest@(next :: _), x =>
      let created (child : Json) : Json :=
        if child = .null then withParents true rest (containerFor next)
        else withParents false rest child
      match x with
      | .object members =>
          .object (Dict.insert members t (created ((Dict.get? members t).getD .null)))
      | .array items =>
          match position? t items with
          | none => x
          | some i =>
              let items := if fresh then padTo items (i + 1) else items
              match items[i]? with
              | some child => .array (items.set i (created child))
              | none => .array items
      | _ => x

def textMember (x : Json) (name : String) : String :=
  match x with
  | .object members => ((Dict.get? members name).bind asString?).getD ""
  | _ => ""

inductive RelaxedFault where
  | malformed
  | operation (path : String) (fault : OperationFault)
  deriving DecidableEq, Repr

def pathText : Json → String
  | .array (op :: items) =>
      match op.asString?.bind Operation.fieldNames? with
      | some names =>
          (((names.zip items).find? (·.1 == "path")).bind fun e => e.2.asString?).getD ""
      | none => ""
  | x => x.textMember "path"

def applyStrictly (doc raw : Json) : Except RelaxedFault Json :=
  match Operation.ofJson? raw with
  | none => .error .malformed
  | some op => (op.apply doc).mapError (.operation (pathText raw))

/-- Apply one operation as it is written. What an operation relaxes is decided by its members `op`
and `path`, before the operation is read. -/
def applyRelaxed (doc raw : Json) : Except RelaxedFault Json :=
  let path := raw.textMember "path"
  match raw.textMember "op" with
  | "remove" =>
      -- A text that is no pointer leads to nothing, so that its removal does nothing.
      if ((Pointer.ofTextLoosely? path).bind fun p => doc.at? p).isNone then .ok doc
      else applyStrictly doc raw
  | "add" => applyStrictly (withParents false (Pointer.tokens path) doc) raw
  | _ => applyStrictly doc raw

def applyAllRelaxed : Json → List Json → Except RelaxedFault Json
  | doc, [] => .ok doc
  | doc, raw :: rest => do
      let doc ← applyRelaxed doc raw
      applyAllRelaxed doc rest

end ResourceGraph.Json
