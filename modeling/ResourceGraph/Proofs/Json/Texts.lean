import Mathlib.Data.List.Basic
import ResourceGraph.Json.Writer

namespace ResourceGraph.Json

mutual

def texts : Json → List String
  | .string s => [s]
  | .array items => textsOfItems items
  | .object members => textsOfMembers members
  | _ => []

def textsOfItems : List Json → List String
  | [] => []
  | x :: rest => x.texts ++ textsOfItems rest

def textsOfMembers : List (String × Json) → List String
  | [] => []
  | (k, x) :: rest => k :: (x.texts ++ textsOfMembers rest)

end

mutual

def names : Json → List String
  | .array items => namesOfItems items
  | .object members => namesOfMembers members
  | _ => []

def namesOfItems : List Json → List String
  | [] => []
  | x :: rest => x.names ++ namesOfItems rest

def namesOfMembers : List (String × Json) → List String
  | [] => []
  | (k, x) :: rest => k :: (x.names ++ namesOfMembers rest)

end

mutual

def mapTexts (f : String → String) : Json → Json
  | .string s => .string (f s)
  | .array items => .array (mapItems f items)
  | .object members => .object (mapMembers f members)
  | other => other

def mapItems (f : String → String) : List Json → List Json
  | [] => []
  | x :: rest => x.mapTexts f :: mapItems f rest

def mapMembers (f : String → String) : List (String × Json) → List (String × Json)
  | [] => []
  | (k, x) :: rest => (k, x.mapTexts f) :: mapMembers f rest

end

section Lists

variable (f : String → String)

theorem mapItems_eq_map (items : List Json) : mapItems f items = items.map (mapTexts f) := by
  induction items with
  | nil => rfl
  | cons x rest ih => rw [mapItems, ih, List.map_cons]

theorem mapMembers_eq_map (members : List (String × Json)) :
    mapMembers f members = members.map fun e => (e.1, e.2.mapTexts f) := by
  induction members with
  | nil => rfl
  | cons e rest ih => rw [mapMembers, ih, List.map_cons]

end Lists

def joined : Bool → List String → List Char
  | _, [] => []
  | first, x :: rest => (if first then [] else [',']) ++ (x.toList ++ joined false rest)

theorem toList_intercalate (texts : List String) :
    (",".intercalate texts).toList = joined true texts := by
  induction texts with
  | nil => rfl
  | cons x rest ih =>
      cases rest with
      | nil => simp [joined]
      | cons y rest =>
          rw [String.intercalate_cons_cons, String.toList_append, String.toList_append, ih,
            List.append_assoc]
          rfl

theorem Writer.toList_quoted (text : String) :
    (quoted text).toList = '"' :: text.toList.flatMap escape ++ ['"'] := by
  rw [quoted, String.toList_ofList]

theorem toList_text_array (items : List Json) :
    (text (.array items)).toList = '[' :: (joined true (itemTexts items) ++ [']']) := by
  rw [text, String.toList_append, String.toList_append, toList_intercalate]
  rfl

theorem toList_text_object (members : List (String × Json)) :
    (text (.object members)).toList = '{' :: (joined true (memberTexts members) ++ ['}']) := by
  rw [text, String.toList_append, String.toList_append, toList_intercalate]
  rfl

end ResourceGraph.Json
