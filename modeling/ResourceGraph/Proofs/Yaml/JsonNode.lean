import ResourceGraph.Proofs.Yaml.JsonScan
import ResourceGraph.Yaml.Node

namespace ResourceGraph.Json

open Yaml Yaml.Lexer Yaml.Lexer.State

/-- The name of a member that YAML finds in front of its value. -/
def isName (k : String) : Bool := fits (Writer.quoted k).toList

mutual

def node : Json → Node
  | .string s => .scalar none none .quoted (Scalar.content s)
  | .array items => .sequence none none (nodesOfItems items)
  | .object members => .mapping none none (nodesOfMembers members)
  | .null => .scalar none none .plain (text .null)
  | .bool b => .scalar none none .plain (text (.bool b))
  | .number n => .scalar none none .plain (text (.number n))

def nodesOfItems : List Json → List Node
  | [] => []
  | x :: rest => x.node :: nodesOfItems rest

def nodesOfMembers : List (String × Json) → List (Node × Node)
  | [] => []
  | (k, x) :: rest =>
      (.scalar none none .quoted (Scalar.content k), x.node) :: nodesOfMembers rest

end

theorem tokens_cases (j : Json) :
    ∃ t ts, j.tokens = t :: ts ∧
      ((∃ style text, t = .scalar style text) ∨ t = .flowSequenceStart ∨ t = .flowMappingStart) := by
  cases j with
  | null => exact ⟨_, _, rfl, .inl ⟨_, _, rfl⟩⟩
  | bool b => exact ⟨_, _, rfl, .inl ⟨_, _, rfl⟩⟩
  | number n => exact ⟨_, _, rfl, .inl ⟨_, _, rfl⟩⟩
  | string s => exact ⟨_, _, rfl, .inl ⟨_, _, rfl⟩⟩
  | array items => exact ⟨_, _, rfl, .inr (.inl rfl)⟩
  | object members => exact ⟨_, _, rfl, .inr (.inr rfl)⟩

section Steps

variable {handles : Node.Handles} {fuel : Nat} {rest : List Token}

theorem read_scalar (context : Node.Context) (style : Style) (text : String) (h : 0 < fuel) :
    Node.read handles fuel context (.scalar style text :: rest) =
      some (.scalar none none style text, rest) := by
  obtain ⟨fuel, rfl⟩ := Nat.exists_eq_add_of_lt h
  cases context <;> simp [Node.read, Node.properties]

theorem read_sequence (context : Node.Context) :
    Node.read handles (fuel + 1) context (.flowSequenceStart :: rest) =
      (Node.flowItems handles fuel true rest).map fun r => (.sequence none none r.1, r.2) := by
  cases hitems : Node.flowItems handles fuel true rest <;> cases context <;>
    simp [Node.read, Node.properties, hitems]

theorem read_mapping (context : Node.Context) :
    Node.read handles (fuel + 1) context (.flowMappingStart :: rest) =
      (Node.flowPairs handles fuel true rest).map fun r => (.mapping none none r.1, r.2) := by
  cases hpairs : Node.flowPairs handles fuel true rest <;> cases context <;>
    simp [Node.read, Node.properties, hpairs]

theorem flowItems_value (first : Bool) (x : Json) :
    Node.flowItems handles (fuel + 1) first (commaTokens first ++ (x.tokens ++ rest)) =
      (Node.read handles fuel .flow (x.tokens ++ rest)).bind fun r =>
        (Node.flowItems handles fuel false r.2).bind fun r' => some (r.1 :: r'.1, r'.2) := by
  obtain ⟨t, ts, htokens, ⟨style, text, rfl⟩ | rfl | rfl⟩ := tokens_cases x <;>
    cases first <;> rw [htokens] <;> simp [Node.flowItems, commaTokens]

theorem flowPairs_value : Node.flowPairs handles fuel false (.value :: rest) = none := by
  cases fuel <;> simp [Node.flowPairs]

theorem flowPairs_member (first : Bool) (k : String) (x : Json) (h : 0 < fuel) :
    Node.flowPairs handles (fuel + 1) first
        (commaTokens first ++ (nameTokens k ++ (x.tokens ++ rest))) =
      if isName k then
        (Node.read handles fuel .flow (x.tokens ++ rest)).bind fun r =>
          (Node.flowPairs handles fuel false r.2).bind fun r' =>
            some ((.scalar none none .quoted (Scalar.content k), r.1) :: r'.1, r'.2)
      else none := by
  have hends : Node.endsFlowPart .flowMappingEnd (x.tokens ++ rest) = false := by
    obtain ⟨t, ts, htokens, ⟨style, text, rfl⟩ | rfl | rfl⟩ := tokens_cases x <;>
      simp [htokens, Node.endsFlowPart]
  have hname : ∀ us : List Token, Node.endsFlowPart .flowMappingEnd
      (.scalar .quoted (Scalar.content k) :: us) = false := fun _ => rfl
  rw [nameTokens, ← isName]
  cases isName k with
  | true => cases first <;> simp [Node.flowPairs, commaTokens, read_scalar, h, hends, hname]
  | false => cases first <;> simp [Node.flowPairs, commaTokens, read_scalar, h, flowPairs_value]

end Steps

theorem tokens_pos (j : Json) : 0 < j.tokens.length := by
  obtain ⟨t, ts, htokens, -⟩ := tokens_cases j
  rw [htokens]
  exact Nat.succ_pos _

mutual

/-- The tokens of a value are read as its node, unless the colon of a member has lost its name. -/
theorem read_tokens (j : Json) (handles : Node.Handles) (context : Node.Context) {fuel : Nat}
    (hfuel : j.tokens.length ≤ fuel) (rest : List Token) :
    Node.read handles fuel context (j.tokens ++ rest) =
      if j.names.all isName then some (j.node, rest) else none := by
  have hpos : 0 < fuel := Nat.lt_of_lt_of_le (tokens_pos j) hfuel
  cases j with
  | null => exact read_scalar context .plain _ hpos
  | bool b => exact read_scalar context .plain _ hpos
  | number n => exact read_scalar context .plain _ hpos
  | string s => exact read_scalar context .quoted _ hpos
  | array items =>
      obtain ⟨fuel, rfl⟩ := Nat.exists_eq_add_of_lt hpos
      simp only [tokens, List.length_cons, List.length_append] at hfuel
      rw [tokens, List.cons_append, List.append_assoc, read_sequence,
        flowItems_tokens items true handles (by omega) rest, names, node]
      split <;> rfl
  | object members =>
      obtain ⟨fuel, rfl⟩ := Nat.exists_eq_add_of_lt hpos
      simp only [tokens, List.length_cons, List.length_append] at hfuel
      rw [tokens, List.cons_append, List.append_assoc, read_mapping,
        flowPairs_tokens members true handles (by omega) rest, names, node]
      split <;> rfl

theorem flowItems_tokens (items : List Json) (first : Bool) (handles : Node.Handles) {fuel : Nat}
    (hfuel : (tokensOfItems first items).length < fuel) (rest : List Token) :
    Node.flowItems handles fuel first (tokensOfItems first items ++ ([.flowSequenceEnd] ++ rest)) =
      if (namesOfItems items).all isName then some (nodesOfItems items, rest) else none := by
  obtain ⟨fuel, rfl⟩ := Nat.exists_eq_add_of_lt (Nat.zero_lt_of_lt hfuel)
  rw [Nat.zero_add] at hfuel ⊢
  match items with
  | [] => simp [tokensOfItems, Node.flowItems, namesOfItems, nodesOfItems]
  | x :: more =>
      have hx := tokens_pos x
      simp only [tokensOfItems, List.length_append] at hfuel
      rw [tokensOfItems, List.append_assoc, List.append_assoc, flowItems_value,
        read_tokens x handles .flow (by omega), namesOfItems, List.all_append, nodesOfItems]
      cases x.names.all isName with
      | false => rfl
      | true =>
          rw [if_pos rfl, Option.bind_some,
            flowItems_tokens more false handles (by omega) rest, Bool.true_and]
          split <;> rfl

theorem flowPairs_tokens (members : List (String × Json)) (first : Bool) (handles : Node.Handles)
    {fuel : Nat} (hfuel : (tokensOfMembers first members).length < fuel) (rest : List Token) :
    Node.flowPairs handles fuel first
        (tokensOfMembers first members ++ ([.flowMappingEnd] ++ rest)) =
      if (namesOfMembers members).all isName then some (nodesOfMembers members, rest) else none := by
  obtain ⟨fuel, rfl⟩ := Nat.exists_eq_add_of_lt (Nat.zero_lt_of_lt hfuel)
  rw [Nat.zero_add] at hfuel ⊢
  match members with
  | [] => simp [tokensOfMembers, Node.flowPairs, namesOfMembers, nodesOfMembers]
  | (k, x) :: more =>
      have hx := tokens_pos x
      simp only [tokensOfMembers, List.length_append] at hfuel
      rw [tokensOfMembers, List.append_assoc, List.append_assoc, List.append_assoc,
        flowPairs_member first k x (by omega), read_tokens x handles .flow (by omega),
        namesOfMembers, List.all_cons, List.all_append, nodesOfMembers]
      cases isName k with
      | false => rfl
      | true =>
          cases x.names.all isName with
          | false => rfl
          | true =>
              rw [if_pos rfl, if_pos rfl, Option.bind_some,
                flowPairs_tokens more false handles (by omega) rest, Bool.true_and, Bool.true_and]
              split <;> rfl

end

theorem ofTokens?_object (members : List (String × Json)) :
    Node.ofTokens? (tokens (.object members)) =
      if (names (.object members)).all isName then some (some (node (.object members)))
      else none := by
  have hfuel : (tokens (.object members)).length ≤ 2 * (tokens (.object members)).length + 2 := by
    omega
  have hread := read_tokens (.object members) Node.standardHandles .block hfuel []
  rw [List.append_nil] at hread
  obtain ⟨ts, htokens⟩ : ∃ ts, tokens (.object members) = .flowMappingStart :: ts := ⟨_, rfl⟩
  rw [htokens] at hread ⊢
  simp only [Node.ofTokens?, hread]
  split <;> simp

end ResourceGraph.Json
