import LeaseLock.Json.Reader
import LeaseLock.Proofs.Json.Grammar

namespace LeaseLock

namespace Json

mutual

def tokens : Json → List JsonToken
  | .null => [.null]
  | .bool b => [.bool b]
  | .number n => [.number n]
  | .string t => [.string t]
  | .array items => .openArray :: (itemTokens items ++ [.closeArray])
  | .object members => .openObject :: (memberTokens members ++ [.closeObject])

def itemTokens : List Json → List JsonToken
  | [] => []
  | [item] => item.tokens
  | item :: rest => item.tokens ++ .comma :: itemTokens rest

def memberTokens : List (JsonText × Json) → List JsonToken
  | [] => []
  | [(name, value)] => .string name :: .colon :: value.tokens
  | (name, value) :: rest =>
    .string name :: .colon :: (value.tokens ++ .comma :: memberTokens rest)

end

def IsTextOf (json : Json) (text : String) : Prop := JsonToken.Spells json.tokens text.toList

theorem exists_tokens (json : Json) : ∃ t ts, json.tokens = t :: ts ∧ t ≠ .closeArray := by
  cases json <;> exact ⟨_, _, by rw [tokens], by simp⟩

theorem exists_itemTokens (item : Json) (rest : List Json) :
    ∃ t ts, itemTokens (item :: rest) = t :: ts ∧ t ≠ .closeArray := by
  obtain ⟨t, ts, ht, hne⟩ := exists_tokens item
  cases rest with
  | nil => exact ⟨t, ts, by rw [itemTokens, ht], hne⟩
  | cons next rest => exact ⟨t, _, by rw [itemTokens, ht, List.cons_append]; simp, hne⟩

namespace Machine

variable {frames : List Frame} {items : List Json} {members : List (JsonText × Json)}
  {name : JsonText} {t : JsonToken}

@[simp] theorem step_value : step ⟨frames, .value⟩ t = takeValue frames t := rfl

theorem step_firstItem (h : t ≠ .closeArray) : step ⟨frames, .firstItem⟩ t = takeValue frames t := by
  cases t <;> first | rfl | exact absurd rfl h

@[simp] theorem step_firstItem_close :
    step ⟨.array items :: frames, .firstItem⟩ .closeArray = push frames (.array items.reverse) := rfl

@[simp] theorem step_firstName_close : step ⟨.object members :: frames, .firstName⟩ .closeObject =
    push frames (.object members.reverse) := rfl

@[simp] theorem step_firstName :
    step ⟨frames, .firstName⟩ (.string name) = some ⟨frames, .colon name⟩ := rfl

@[simp] theorem step_name : step ⟨frames, .name⟩ (.string name) = some ⟨frames, .colon name⟩ := rfl

@[simp] theorem step_colon : step ⟨.object members :: frames, .colon name⟩ .colon =
    some ⟨.member members name :: frames, .value⟩ := rfl

@[simp] theorem step_comma_array : step ⟨.array items :: frames, .separator⟩ .comma =
    some ⟨.array items :: frames, .value⟩ := rfl

@[simp] theorem step_comma_object : step ⟨.object members :: frames, .separator⟩ .comma =
    some ⟨.object members :: frames, .name⟩ := rfl

@[simp] theorem step_closeArray : step ⟨.array items :: frames, .separator⟩ .closeArray =
    push frames (.array items.reverse) := rfl

@[simp] theorem step_closeObject : step ⟨.object members :: frames, .separator⟩ .closeObject =
    push frames (.object members.reverse) := rfl

theorem run_firstItem (item : Json) (rest : List Json) :
    (itemTokens (item :: rest)).foldlM step ⟨frames, .firstItem⟩ =
      (itemTokens (item :: rest)).foldlM step ⟨frames, .value⟩ := by
  obtain ⟨t, ts, ht, hne⟩ := exists_itemTokens item rest
  simp [ht, step_firstItem hne]

theorem run_firstName (member : JsonText × Json) (rest : List (JsonText × Json)) :
    (memberTokens (member :: rest)).foldlM step ⟨frames, .firstName⟩ =
      (memberTokens (member :: rest)).foldlM step ⟨frames, .name⟩ := by
  obtain ⟨name, value⟩ := member
  cases rest <;> simp [memberTokens]

mutual

theorem run_tokens : ∀ (json : Json) (frames : List Frame),
    json.tokens.foldlM step ⟨frames, .value⟩ = push frames json
  | .null, frames => by simp [tokens, takeValue]
  | .bool b, frames => by simp [tokens, takeValue]
  | .number n, frames => by simp [tokens, takeValue]
  | .string t, frames => by simp [tokens, takeValue]
  | .array [], frames => by simp [tokens, itemTokens, takeValue]
  | .array (item :: rest), frames => by
    have hrun := run_items (item :: rest) [] frames (by simp)
    simp [tokens, takeValue, run_firstItem, hrun]
  | .object [], frames => by simp [tokens, memberTokens, takeValue]
  | .object (member :: rest), frames => by
    have hrun := run_members (member :: rest) [] frames (by simp)
    simp [tokens, takeValue, run_firstName, hrun]

theorem run_items : ∀ (items done : List Json) (frames : List Frame), items ≠ [] →
    (itemTokens items).foldlM step ⟨.array done :: frames, .value⟩ =
      some ⟨.array (items.reverse ++ done) :: frames, .separator⟩
  | [], _, _, h => absurd rfl h
  | [item], done, frames, _ => by simp [itemTokens, run_tokens item, push]
  | item :: next :: rest, done, frames, _ => by
    have hrun := run_items (next :: rest) (item :: done) frames (by simp)
    simp [itemTokens, run_tokens item, push, hrun]

theorem run_members : ∀ (members done : List (JsonText × Json)) (frames : List Frame), members ≠ [] →
    (memberTokens members).foldlM step ⟨.object done :: frames, .name⟩ =
      some ⟨.object (members.reverse ++ done) :: frames, .separator⟩
  | [], _, _, h => absurd rfl h
  | [(name, value)], done, frames, _ => by simp [memberTokens, run_tokens value, push]
  | (name, value) :: next :: rest, done, frames, _ => by
    have hrun := run_members (next :: rest) ((name, value) :: done) frames (by simp)
    simp [memberTokens, run_tokens value, push, hrun]

end

end Machine

theorem ofTokens?_tokens (json : Json) : ofTokens? json.tokens = some json := by
  simp [ofTokens?, Machine.start, Machine.run_tokens, Machine.push, Machine.document?]

theorem IsTextOf.ofText?_eq {json : Json} {text : String} (h : json.IsTextOf text) :
    ofText? text = some json := by
  simp [ofText?, JsonToken.split?_of_spells h, ofTokens?_tokens]

end Json

end LeaseLock
