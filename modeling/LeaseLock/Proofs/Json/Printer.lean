import LeaseLock.Json.Printer
import LeaseLock.Proofs.Json.Document

namespace LeaseLock

namespace JsonNumber

def IsWritable (n : JsonNumber) : Prop := WholeDigits n.whole ∧ ∀ c ∈ n.fraction, isDigit c = true

theorem isWritable_ofNat (n : Nat) : (ofNat n).IsWritable := by
  refine ⟨?_, by simp [ofNat]⟩
  rcases toDigits_cases n with rfl | ⟨c, ds, h, hc⟩
  · exact .zero
  · have hd := isDigit_toDigits (n := n)
    rw [h] at hd
    rw [ofNat, h]
    exact .other hc hd

theorem exponentDigits_integerText (e : Int) :
    ExponentDigits (some e) ('e' :: (integerText e).toList) := by
  have hd := isDigit_toDigits (n := e.natAbs)
  have hne : Nat.toDigits 10 e.natAbs ≠ [] := Nat.toDigits_ne_nil
  by_cases h : e < 0
  · have hliteral := ExponentDigits.some (.inl rfl) .minus hd hne
    have hvalue : -(e.natAbs : Int) = e := by omega
    rw [ofDigits_toDigits, if_pos rfl, hvalue] at hliteral
    simpa [integerText, h, decimalText] using hliteral
  · have hliteral := ExponentDigits.some (.inl rfl) .none hd hne
    have hvalue : (e.natAbs : Int) = e := by omega
    rw [ofDigits_toDigits, if_neg (by simp), hvalue] at hliteral
    simpa [integerText, h, decimalText] using hliteral

theorem IsWritable.literal {n : JsonNumber} (h : n.IsWritable) : n.Literal n.text.toList := by
  obtain ⟨negative, whole, fraction, exponent⟩ := n
  obtain ⟨hw, hd⟩ := h
  have hf : FractionDigits fraction (if fraction = [] then [] else '.' :: fraction) := by
    by_cases hne : fraction = []
    · simpa [hne] using FractionDigits.none
    · simpa [hne] using FractionDigits.some hd hne
  cases exponent with
  | none =>
    have hliteral := Literal.mk hw hf .none negative
    by_cases hne : fraction = [] <;> cases negative <;> simpa [text, hne] using hliteral
  | some e =>
    have hliteral := Literal.mk hw hf (exponentDigits_integerText e) negative
    by_cases hne : fraction = [] <;> cases negative <;> simpa [text, hne] using hliteral

end JsonNumber

namespace JsonToken

def IsWritable : JsonToken → Prop
  | .number n => n.IsWritable
  | .string t => t.isSome
  | _ => True

theorem literal_control {c : Char} (h : c.toNat < 0x20) :
    Piece.Literal (.char c) ('\\' :: 'u' :: (zeroPadded 4 (hexText c.toNat)).toList) := by
  have hdigits : ∀ n < 0x20,
      List.replicate (4 - (Nat.toDigits 16 n).length) '0' ++ Nat.toDigits 16 n =
        ['0', '0', Nat.digitChar (n / 16), Nat.digitChar (n % 16)] := by decide
  have hvalue : ∀ n < 0x20, hexQuad? '0' '0' (Nat.digitChar (n / 16)) (Nat.digitChar (n % 16)) =
      some n := by decide
  have hcode : Piece.ofCode c.toNat = .char c := by
    rw [Piece.ofCode, if_neg (by omega), Char.ofNat_toNat]
  have hliteral := Piece.Literal.code (hvalue c.toNat h)
  rw [hcode] at hliteral
  simpa [zeroPadded, hexText, hdigits c.toNat h] using hliteral

theorem literal_escapeChar (c : Char) : Piece.Literal (.char c) (Json.escapeChar c) := by
  -- A character that has no short escape is none of those that have one.
  by_cases hshort : ∃ e, Json.escapeChar c = ['\\', e] ∧ simpleEscape? e = some c
  · obtain ⟨e, he, hc⟩ := hshort
    exact he ▸ .short hc
  · have hne : ∀ d e, simpleEscape? e = some d → Json.escapeChar d = ['\\', e] → c ≠ d := by
      rintro d e he hd rfl
      exact hshort ⟨e, hd, he⟩
    have hquote := hne '"' '"' rfl rfl
    have hslash := hne '\\' '\\' rfl rfl
    have hb := hne '\x08' 'b' rfl rfl
    have ht := hne '\t' 't' rfl rfl
    have hn := hne '\n' 'n' rfl rfl
    have hf := hne '\x0c' 'f' rfl rfl
    have hr := hne '\r' 'r' rfl rfl
    by_cases hc : c.toNat < 0x20
    · simpa [Json.escapeChar, *] using literal_control hc
    · simpa [Json.escapeChar, *] using Piece.Literal.plain hc hquote hslash

theorem body_escapeChar (cs : List Char) : Body (cs.map .char) (cs.flatMap Json.escapeChar) := by
  induction cs with
  | nil => exact .nil
  | cons c cs ih => exact .cons (literal_escapeChar c) ih

theorem charsOfPieces?_chars (cs : List Char) : charsOfPieces? (cs.map .char) = some cs := by
  induction cs with
  | nil => rfl
  | cons c cs ih => simp [charsOfPieces?, ih]

theorem literal_stringText (s : String) :
    (JsonToken.string (some s)).Literal (Json.stringText s).toList := by
  have hliteral := Literal.string (body_escapeChar s.toList)
  simpa [textOfPieces, charsOfPieces?_chars, Json.stringText] using hliteral

variable {ts us : List JsonToken} {cs ds : List Char}

theorem Spells.append (h : Spells ts cs) (hd : Spells us ds) (hends : Stops extendsNumber ds) :
    Spells (ts ++ us) (cs ++ ds) := by
  induction h with
  | nil => exact hd
  | blank hc h ih => exact .blank hc ih
  | @token t ts lit cs ht hend h ih =>
    rw [List.append_assoc]
    refine .token ht (fun hn => ?_) ih
    cases cs with
    | nil => exact hends
    | cons c cs => exact hend hn

theorem Spells.blanks {bs : List Char} (hb : ∀ c ∈ bs, isBlank c = true) (h : Spells ts cs) :
    Spells ts (bs ++ cs) := by
  induction bs with
  | nil => exact h
  | cons c bs ih => exact .blank (hb c (by simp)) (ih fun c hc => hb c (by simp [hc]))

theorem Spells.then {t : JsonToken} {c : Char} (h : Spells ts cs) (ht : t.Literal [c])
    (hn : t.isNumber = false) (hc : extendsNumber c = false) (hd : Spells us ds) :
    Spells (ts ++ t :: us) (cs ++ c :: ds) :=
  h.append (.token ht (by simp [hn]) hd) (by simp [hc])

theorem spells_single {t : JsonToken} {lit : List Char} (h : t.Literal lit) : Spells [t] lit := by
  simpa using Spells.token h (fun _ => stops_nil) .nil

end JsonToken

namespace Json

open JsonToken (Spells spells_single)

def IsWritable (json : Json) : Prop := ∀ t ∈ json.tokens, t.IsWritable

theorem spells_string (s : String) : Spells [.string (some s)] (stringText s).toList :=
  spells_single (JsonToken.literal_stringText s)

theorem spells_member {name : JsonText} {ts : List JsonToken} {cs : List Char}
    (hname : (JsonToken.string name).IsWritable) (h : Spells ts cs) :
    Spells (.string name :: .colon :: ts) ((stringText (name.getD "")).toList ++ ':' :: cs) := by
  obtain ⟨s, rfl⟩ := Option.isSome_iff_exists.mp hname
  exact (spells_string s).then .colon rfl rfl h

mutual

theorem spells_text : ∀ json : Json, (∀ t ∈ json.tokens, t.IsWritable) →
    Spells json.tokens json.text.toList
  | .null, _ => spells_single .null
  | .bool true, _ => spells_single .boolTrue
  | .bool false, _ => spells_single .boolFalse
  | .number n, h => by
    have hn : n.IsWritable := h (.number n) (by simp [tokens])
    exact spells_single (.number hn.literal)
  | .string none, h => absurd (h (.string none) (by simp [tokens])) (by simp [JsonToken.IsWritable])
  | .string (some s), _ => spells_string s
  | .array items, h => by
    have hitems := spells_itemsText items fun t ht => h t (by simp [tokens, ht])
    have hopen := JsonToken.Spells.nil.then .openArray rfl rfl
      (hitems.then .closeArray rfl rfl .nil)
    simpa [tokens, text] using hopen
  | .object members, h => by
    have hmembers := spells_membersText members fun t ht => h t (by simp [tokens, ht])
    have hopen := JsonToken.Spells.nil.then .openObject rfl rfl
      (hmembers.then .closeObject rfl rfl .nil)
    simpa [tokens, text] using hopen

theorem spells_itemsText : ∀ items : List Json, (∀ t ∈ itemTokens items, t.IsWritable) →
    Spells (itemTokens items) (itemsText items).toList
  | [], _ => .nil
  | [item], h => spells_text item h
  | item :: next :: rest, h => by
    have hitem := spells_text item fun t ht => h t (by simp [itemTokens, ht])
    have hrest := spells_itemsText (next :: rest) fun t ht => h t (by simp [itemTokens, ht])
    simpa [itemTokens, itemsText] using hitem.then .comma rfl rfl hrest

theorem spells_membersText : ∀ members : List (JsonText × Json),
    (∀ t ∈ memberTokens members, t.IsWritable) →
      Spells (memberTokens members) (membersText members).toList
  | [], _ => .nil
  | [(name, value)], h => by
    have hvalue := spells_text value fun t ht => h t (by simp [memberTokens, ht])
    simpa [memberTokens, membersText] using
      spells_member (h (.string name) (by simp [memberTokens])) hvalue
  | (name, value) :: next :: rest, h => by
    have hvalue := spells_text value fun t ht => h t (by simp [memberTokens, ht])
    have hrest := spells_membersText (next :: rest) fun t ht => h t (by simp [memberTokens, ht])
    simpa [memberTokens, membersText] using
      spells_member (h (.string name) (by simp [memberTokens])) (hvalue.then .comma rfl rfl hrest)

end

theorem IsWritable.isTextOf_text {json : Json} (h : json.IsWritable) : json.IsTextOf json.text :=
  spells_text json h

theorem isBlank_indentation (depth : Nat) :
    ∀ c ∈ (indentation depth).toList, JsonToken.isBlank c = true := by
  simp [indentation, JsonToken.isBlank]

theorem spells_newLine {ts us : List JsonToken} {cs ds : List Char} (depth : Nat) (h : Spells ts cs)
    (hd : Spells us ds) : Spells (ts ++ us) (cs ++ ((indentation depth).toList ++ ds)) := by
  apply h.append (hd.blanks (isBlank_indentation depth))
  simp [indentation, JsonToken.extendsNumber, isDigit, digit?]

mutual

theorem spells_linesText : ∀ (json : Json) (depth : Nat), (∀ t ∈ json.tokens, t.IsWritable) →
    Spells json.tokens (json.linesText depth).toList
  | .null, _, h | .bool _, _, h | .number _, _, h | .string _, _, h | .array [], _, h
  | .object [], _, h => spells_text _ h
  | .array (item :: rest), depth, h => by
    have hitems := spells_itemLines (item :: rest) (depth + 1) fun t ht => h t (by simp [tokens, ht])
    have hopen := JsonToken.Spells.nil.then .openArray rfl rfl
      (spells_newLine depth hitems (spells_single .closeArray))
    simpa [tokens, linesText] using hopen
  | .object (member :: rest), depth, h => by
    have hmembers := spells_memberLines (member :: rest) (depth + 1) fun t ht =>
      h t (by simp [tokens, ht])
    have hopen := JsonToken.Spells.nil.then .openObject rfl rfl
      (spells_newLine depth hmembers (spells_single .closeObject))
    simpa [tokens, linesText] using hopen

theorem spells_itemLines : ∀ (items : List Json) (depth : Nat),
    (∀ t ∈ itemTokens items, t.IsWritable) →
      Spells (itemTokens items) (itemLines depth items).toList
  | [], _, _ => .nil
  | [item], depth, h => by
    have hitem := spells_linesText item depth h
    simpa [itemTokens, itemLines] using hitem.blanks (isBlank_indentation depth)
  | item :: next :: rest, depth, h => by
    have hitem := spells_linesText item depth fun t ht => h t (by simp [itemTokens, ht])
    have hrest := spells_itemLines (next :: rest) depth fun t ht => h t (by simp [itemTokens, ht])
    simpa [itemTokens, itemLines] using
      (hitem.then .comma rfl rfl hrest).blanks (isBlank_indentation depth)

theorem spells_memberLines : ∀ (members : List (JsonText × Json)) (depth : Nat),
    (∀ t ∈ memberTokens members, t.IsWritable) →
      Spells (memberTokens members) (memberLines depth members).toList
  | [], _, _ => .nil
  | [(name, value)], depth, h => by
    have hvalue := spells_linesText value depth fun t ht => h t (by simp [memberTokens, ht])
    have hmember := spells_member (h (.string name) (by simp [memberTokens]))
      (hvalue.blank (c := ' ') rfl)
    simpa [memberTokens, memberLines] using hmember.blanks (isBlank_indentation depth)
  | (name, value) :: next :: rest, depth, h => by
    have hvalue := spells_linesText value depth fun t ht => h t (by simp [memberTokens, ht])
    have hrest := spells_memberLines (next :: rest) depth fun t ht => h t (by simp [memberTokens, ht])
    have hmember := spells_member (h (.string name) (by simp [memberTokens]))
      ((hvalue.then .comma rfl rfl hrest).blank (c := ' ') rfl)
    simpa [memberTokens, memberLines] using hmember.blanks (isBlank_indentation depth)

end

theorem IsWritable.isTextOf_linesText {json : Json} (h : json.IsWritable) (depth : Nat) :
    json.IsTextOf (json.linesText depth) :=
  spells_linesText json depth h

end Json

end LeaseLock
