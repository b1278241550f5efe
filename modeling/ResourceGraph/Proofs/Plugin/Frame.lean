import ResourceGraph.Plugin.Module
import ResourceGraph.Proofs.Json.Reading
import ResourceGraph.Proofs.Outcome

namespace ResourceGraph

open Document

theorem Document.record?_object {form : Form} {depth : Nat} {members : List (String × Json)}
    (hdepth : depth < jsonDepthLimit)
    (hknown : (members.all fun e => form.names.contains e.1) = true)
    (hdistinct : distinct (members.map fun e => (e.1, .json (depth + 1) e.2)) = true) :
    record? form (.json depth (.object members)) =
      some (members.map fun e => (e.1, .json (depth + 1) e.2)) := by
  have hall : (members.map fun e => (e.1, Document.json (depth + 1) e.2)).filter
      (fun e => form.names.contains e.1) = members.map fun e => (e.1, .json (depth + 1) e.2) := by
    refine List.filter_eq_self.2 fun e he => ?_
    obtain ⟨m, hm, rfl⟩ := List.mem_map.1 he
    exact List.all_eq_true.1 hknown m hm
  simp only [record?, members?, if_pos hdepth, Option.bind_eq_bind, Option.bind_some, hall,
    if_pos hdistinct]

theorem Base64.decodeText?_encodeText (bytes : Bytes) :
    decodeText? (encodeText bytes) = some bytes := by
  rw [decodeText?, encodeText, String.toList_ofList, decode?_encode]

section Parts

variable {depth : Nat}

theorem Bytes.read?_toJson (bytes : Bytes) : Bytes.read? (.json depth bytes.toJson) = some bytes :=
  Base64.decodeText?_encodeText bytes

theorem Bytes.optional?_optionJson (bytes : Option Bytes) :
    optional? Bytes.read? (.json depth (Bytes.optionJson bytes)) = some bytes := by
  cases bytes with
  | none => rfl
  | some bytes => exact congrArg (Option.map some) (Bytes.read?_toJson bytes)

theorem Request.read?_toJson (hdepth : depth < jsonDepthLimit) (r : Request) :
    Request.read? (.json depth r.toJson) = some r := by
  rw [read?, toJson, record?_object hdepth rfl rfl]
  simp [Fields.required?, Fields.field?, Fields.optional?, Bytes.optional?_optionJson, text?]

theorem Bytes.list?_items (hdepth : depth < jsonDepthLimit) (items : List Bytes) :
    list? Bytes.read? (.json depth (.array (items.map Bytes.toJson))) = some items := by
  rw [list?, items?, if_pos hdepth]
  apply List.mapM_eq_pure
  rw [List.map_map, List.map_map]
  refine List.map_congr_left fun bytes _ => ?_
  exact @Bytes.read?_toJson (depth + 1) bytes

theorem Response.read?_toJson (hdepth : depth + 1 < jsonDepthLimit) (r : Response) :
    Response.read? (.json depth r.toJson) = some r := by
  have hresources : optional? (list? Bytes.read?)
      (.json (depth + 1) (.array (r.resources.map Bytes.toJson))) = some (some r.resources) :=
    congrArg (Option.map some) (Bytes.list?_items hdepth r.resources)
  rw [read?, toJson, record?_object (Nat.lt_of_succ_lt hdepth) rfl rfl]
  simp [Fields.field?, Fields.optional?, Bytes.optional?_optionJson, hresources]

end Parts

section Frames

theorem Call.read?_toJson (c : Call) : Call.read? (.ofJson c.toJson) = some c := by
  have hmetadata : record? metadataForm (.json 1 (.object
      [("kusion_trace_id", .string c.trace), ("kusion_module_name", .string c.module)])) =
        some [("kusion_trace_id", .json 2 (.string c.trace)),
          ("kusion_module_name", .json 2 (.string c.module))] :=
    record?_object (by decide) rfl rfl
  have hrequest := Request.read?_toJson (show 1 < jsonDepthLimit by decide) c.request
  rw [ofJson, read?, toJson, record?_object (by decide) rfl rfl]
  simp [Fields.required?, Fields.field?, hmetadata, hrequest, text?]

theorem Reply.read?_toJson (r : Reply) : Reply.read? (.ofJson r.toJson) = some r := by
  have hresponse (response : Response) :
      optional? Response.read? (.json 1 response.toJson) = some (some response) :=
    congrArg (Option.map some) (Response.read?_toJson (by decide) response)
  have herror (message : String) :
      optional? text? (.json 1 (.string message)) = some (some message) := rfl
  obtain ⟨trace, response, error⟩ := r
  rw [ofJson, read?, toJson]
  cases response <;> cases error <;>
    · simp only [Json.record, Json.field, Json.fieldOf, Option.map_some, Option.map_none,
        List.filterMap_cons, id_eq, List.filterMap_nil]
      rw [record?_object (by decide) rfl rfl]
      simp [Fields.required?, Fields.field?, Fields.optional?, hresponse, herror, text?]

theorem Bytes.numberless_optionJson (bytes : Option Bytes) : (optionJson bytes).Numberless := by
  cases bytes <;> trivial

theorem Bytes.numberless_items (items : List Bytes) :
    Json.NumberlessItems (items.map Bytes.toJson) := by
  induction items with
  | nil => trivial
  | cons bytes rest ih => exact ⟨trivial, ih⟩

theorem Response.numberless (r : Response) : r.toJson.Numberless :=
  ⟨Bytes.numberless_items r.resources, Bytes.numberless_optionJson r.patcher, trivial⟩

theorem Call.numberless (c : Call) : c.toJson.Numberless := by
  simp [toJson, Request.toJson, Json.Numberless, Json.NumberlessMembers,
    Bytes.numberless_optionJson]

theorem Reply.numberless (r : Reply) : r.toJson.Numberless := by
  obtain ⟨trace, response, error⟩ := r
  cases response <;> cases error <;>
    simp [toJson, Json.record, Json.field, Json.fieldOf, Json.Numberless, Json.NumberlessMembers,
      Response.numberless]

theorem Call.view_toJson (c : Call) : c.toJson.view form = c.toJson := by
  simp [toJson, Request.toJson, form, metadataForm, Request.form, Form.record, Form.member,
    Form.fields, Json.view, Json.viewMembers]

theorem Response.view_toJson (r : Response) : r.toJson.view form = r.toJson := by
  have hresources : Json.viewItems .whole (r.resources.map Bytes.toJson) = _ :=
    Json.viewItems_of_whole rfl rfl _
  simp [toJson, form, Form.record, Form.member, Form.fields, Json.view, Json.viewMembers,
    hresources]

theorem Reply.view_toJson (r : Reply) : r.toJson.view form = r.toJson := by
  obtain ⟨trace, response, error⟩ := r
  cases response <;> cases error <;>
    simp [toJson, Json.record, Json.field, Json.fieldOf, form, Form.record, Form.member,
      Form.fields, Json.view, Json.viewMembers, Response.view_toJson]

theorem Call.ofLine?_line (c : Call) : ofLine? c.line = some c := by
  rw [ofLine?, line, Schema.ofJsonText?, schema, Json.readAs?_text c.numberless, c.view_toJson]
  exact c.read?_toJson

theorem Reply.ofLine?_line (r : Reply) : ofLine? r.line = some r := by
  rw [ofLine?, line, Schema.ofJsonText?, schema, Json.readAs?_text r.numberless, r.view_toJson]
  exact r.read?_toJson

end Frames

section Lines

theorem Text.trim_of_enclosed {s : String} {first last : Char} {inner : List Char}
    (hs : s.toList = first :: (inner ++ [last])) (hfirst : isBlank first = false)
    (hlast : isBlank last = false) : trim s = s := by
  have hreverse : (first :: (inner ++ [last])).reverse = last :: (first :: inner).reverse := by
    simp
  rw [trim, hs, List.dropWhile_cons_of_neg (by simp [hfirst]), hreverse,
    List.dropWhile_cons_of_neg (by simp [hlast]), ← hreverse, List.reverse_reverse, ← hs,
    String.ofList_toList]

theorem Reply.trim_line (r : Reply) : Text.trim r.line = r.line :=
  Text.trim_of_enclosed (Json.toList_text_object _) (by decide) (by decide)

theorem Call.allBlank_line (c : Call) : Text.allBlank c.line = false := by
  rw [Text.allBlank, line, toJson, Json.toList_text_object]
  rfl

end Lines

end ResourceGraph
