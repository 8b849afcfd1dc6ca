import LeaseLock.Json.Token
import LeaseLock.Proofs.Number.Digits

namespace LeaseLock

inductive WholeDigits : List Char → Prop
  | zero : WholeDigits ['0']
  | other {c : Char} {ds : List Char} (hc : c ≠ '0') (hd : ∀ d ∈ c :: ds, isDigit d = true) :
    WholeDigits (c :: ds)

inductive FractionDigits : List Char → List Char → Prop
  | none : FractionDigits [] []
  | some {ds : List Char} (hd : ∀ d ∈ ds, isDigit d = true) (hne : ds ≠ []) :
    FractionDigits ds ('.' :: ds)

inductive ExponentSign : Bool → List Char → Prop
  | none : ExponentSign false []
  | plus : ExponentSign false ['+']
  | minus : ExponentSign true ['-']

inductive ExponentDigits : Option Int → List Char → Prop
  | none : ExponentDigits none []
  | some {e : Char} {negative : Bool} {sign ds : List Char} (he : e = 'e' ∨ e = 'E')
    (hs : ExponentSign negative sign) (hd : ∀ d ∈ ds, isDigit d = true) (hne : ds ≠ []) :
    ExponentDigits (some (if negative then -ofDigits ds else ofDigits ds)) (e :: (sign ++ ds))

theorem WholeDigits.exists_cons {whole : List Char} (h : WholeDigits whole) :
    ∃ c ds, whole = c :: ds ∧ isDigit c = true := by
  cases h with
  | zero => exact ⟨'0', [], rfl, rfl⟩
  | @other c ds hc hd => exact ⟨c, ds, rfl, hd c (by simp)⟩

namespace JsonNumber

inductive Literal : JsonNumber → List Char → Prop
  | mk {whole fraction fs es : List Char} {exponent : Option Int} (hw : WholeDigits whole)
    (hf : FractionDigits fraction fs) (he : ExponentDigits exponent es) (negative : Bool) :
    Literal ⟨negative, whole, fraction, exponent⟩
      ((if negative then ['-'] else []) ++ (whole ++ (fs ++ es)))

end JsonNumber

namespace JsonToken

def extendsNumber (c : Char) : Bool := isDigit c || c = '.' || c = 'e' || c = 'E'

inductive Piece.Literal : Piece → List Char → Prop
  | plain {c : Char} (hc : ¬c.toNat < 0x20) (hquote : c ≠ '"') (hslash : c ≠ '\\') :
    Piece.Literal (.char c) [c]
  | short {e c : Char} (h : simpleEscape? e = some c) : Piece.Literal (.char c) ['\\', e]
  | code {a b c d : Char} {code : Nat} (h : hexQuad? a b c d = some code) :
    Piece.Literal (.ofCode code) ['\\', 'u', a, b, c, d]

inductive Body : List Piece → List Char → Prop
  | nil : Body [] []
  | cons {p : Piece} {ps : List Piece} {cs rest : List Char} (hp : Piece.Literal p cs)
    (h : Body ps rest) : Body (p :: ps) (cs ++ rest)

inductive Literal : JsonToken → List Char → Prop
  | openArray : Literal .openArray ['[']
  | closeArray : Literal .closeArray [']']
  | openObject : Literal .openObject ['\x7b']
  | closeObject : Literal .closeObject ['\x7d']
  | comma : Literal .comma [',']
  | colon : Literal .colon [':']
  | null : Literal .null ['n', 'u', 'l', 'l']
  | boolTrue : Literal (.bool true) ['t', 'r', 'u', 'e']
  | boolFalse : Literal (.bool false) ['f', 'a', 'l', 's', 'e']
  | number {n : JsonNumber} {cs : List Char} (h : n.Literal cs) : Literal (.number n) cs
  | string {ps : List Piece} {cs : List Char} (h : Body ps cs) :
    Literal (.string (textOfPieces ps)) ('"' :: (cs ++ ['"']))

def isNumber : JsonToken → Bool
  | .number _ => true
  | _ => false

/-- Texts that spell a list of tokens, with blanks before, between and after them. -/
inductive Spells : List JsonToken → List Char → Prop
  | nil : Spells [] []
  | blank {c : Char} {ts : List JsonToken} {cs : List Char} (hc : isBlank c = true)
    (h : Spells ts cs) : Spells ts (c :: cs)
  | token {t : JsonToken} {ts : List JsonToken} {lit cs : List Char} (ht : t.Literal lit)
    (hend : t.isNumber = true → Stops extendsNumber cs) (h : Spells ts cs) :
    Spells (t :: ts) (lit ++ cs)

variable {rest : List Char}

theorem readString_plain {c : Char} {cs : List Char} (hc : ¬c.toNat < 0x20) (hquote : c ≠ '"')
    (hslash : c ≠ '\\') :
    readString (c :: cs) = (readString cs).map fun (ps, rest) => (.char c :: ps, rest) := by
  rw [readString, if_neg (by simp [hslash, hc])]
  · cases readString cs <;> rfl
  all_goals simp [hquote, hslash]

theorem readString_short {e c : Char} {cs : List Char} (h : simpleEscape? e = some c) :
    readString ('\\' :: e :: cs) = (readString cs).map fun (ps, rest) => (.char c :: ps, rest) := by
  have hu : e ≠ 'u' := by
    rintro rfl
    simp [simpleEscape?] at h
  rw [readString, h]
  · cases readString cs <;> rfl
  · simp [hu]

theorem readString_literal {ps : List Piece} {cs : List Char} (h : Body ps cs) :
    readString (cs ++ '"' :: rest) = some (ps, rest) := by
  induction h with
  | nil => rfl
  | cons hp h ih =>
    cases hp with
    | plain hc hquote hslash => simp [readString_plain hc hquote hslash, ih]
    | short he => simp [readString_short he, ih]
    | code hcode => simp [readString, hcode, ih]

theorem readWhole_literal {whole : List Char} (h : WholeDigits whole) (hr : Stops isDigit rest) :
    readWhole (whole ++ rest) = some (whole, rest) := by
  cases h with
  | zero => rfl
  | @other c ds hc hd =>
    rw [readWhole, takeWhile_run hd hr, dropWhile_run hd hr]
    · rfl
    · rintro tail
      simp [hc]

theorem readFraction_literal {fraction fs : List Char} (h : FractionDigits fraction fs)
    (hr : Stops isDigit rest) (hpoint : ∀ c ∈ rest.head?, c ≠ '.') :
    readFraction (fs ++ rest) = some (fraction, rest) := by
  cases h with
  | none =>
    rw [List.nil_append, readFraction]
    rintro tail rfl
    exact hpoint '.' rfl rfl
  | some hd hne => simp [readFraction, takeWhile_run hd hr, dropWhile_run hd hr, hne]

theorem readSign_literal {negative : Bool} {sign ds : List Char} (hs : ExponentSign negative sign)
    (hd : ∀ d ∈ ds, isDigit d = true) (hne : ds ≠ []) :
    readSign (sign ++ (ds ++ rest)) = (negative, ds ++ rest) := by
  cases hs with
  | none =>
    cases ds with
    | nil => exact absurd rfl hne
    | cons c ds =>
      have hc := hd c (by simp)
      have hminus : c ≠ '-' := fun h => absurd (h ▸ hc) (by decide)
      have hplus : c ≠ '+' := fun h => absurd (h ▸ hc) (by decide)
      rw [List.nil_append, List.cons_append, readSign]
      all_goals simp [hminus, hplus]
  | plus => rfl
  | minus => rfl

theorem stops_isDigit (h : Stops extendsNumber rest) : Stops isDigit rest := by
  rintro c hc
  have := h c hc
  simp_all [extendsNumber]

theorem readExponent_literal {exponent : Option Int} {es : List Char} (h : ExponentDigits exponent es)
    (hr : Stops extendsNumber rest) : readExponent (es ++ rest) = some (exponent, rest) := by
  have hdigits := stops_isDigit hr
  cases h with
  | none =>
    cases rest with
    | nil => rfl
    | cons c rest =>
      have hc := stops_cons.mp hr
      simp_all [extendsNumber, readExponent]
  | some he hs hd hne =>
    simp [readExponent, he, readSign_literal hs hd hne, takeWhile_run hd hdigits,
      dropWhile_run hd hdigits, hne]

theorem head_exponent {exponent : Option Int} {es : List Char} (h : ExponentDigits exponent es)
    (hr : Stops extendsNumber rest) : ∀ c ∈ (es ++ rest).head?, isDigit c = false ∧ c ≠ '.' := by
  have hmark : ∀ e : Char, e = 'e' ∨ e = 'E' → isDigit e = false ∧ e ≠ '.' := by
    rintro e (rfl | rfl) <;> decide
  cases h with
  | none =>
    rintro c hc
    have := hr c hc
    simp_all [extendsNumber]
  | some he hs hd hne => simpa using hmark _ he

theorem readNumber_literal {whole fraction fs es : List Char} {exponent : Option Int}
    (hw : WholeDigits whole) (hf : FractionDigits fraction fs) (he : ExponentDigits exponent es)
    (negative : Bool) (hr : Stops extendsNumber rest) :
    readNumber negative (whole ++ (fs ++ es) ++ rest) =
      some (⟨negative, whole, fraction, exponent⟩, rest) := by
  have hhead := head_exponent he hr
  have hfraction : readFraction (fs ++ (es ++ rest)) = some (fraction, es ++ rest) :=
    readFraction_literal hf (fun c hc => (hhead c hc).1) fun c hc => (hhead c hc).2
  have hwhole : readWhole (whole ++ (fs ++ (es ++ rest))) = some (whole, fs ++ (es ++ rest)) := by
    apply readWhole_literal hw
    cases hf with
    | none => exact fun c hc => (hhead c hc).1
    | some hd hne => simp [LeaseLock.isDigit, digit?]
  simp [readNumber, hwhole, hfraction, readExponent_literal he hr]

theorem read_digit {c : Char} {cs : List Char} (hc : isDigit c = true) :
    read (c :: cs) = (readNumber false (c :: cs)).map fun (n, rest) => (.number n, rest) := by
  rw [read]
  all_goals
    intro tail h
    cases h
    exact absurd hc (by decide)

theorem read_literal {t : JsonToken} {lit : List Char} (h : t.Literal lit)
    (hr : t.isNumber = true → Stops extendsNumber rest) : read (lit ++ rest) = some (t, rest) := by
  cases h with
  | number hn =>
    cases hn with
    | mk hw hf he negative =>
      have hread := readNumber_literal hw hf he negative (hr rfl)
      cases negative with
      | true => simp_all [read]
      | false =>
        obtain ⟨c, ds, rfl, hc⟩ := hw.exists_cons
        rw [List.cons_append, List.cons_append] at hread
        simp only [Bool.false_eq_true, if_false, List.nil_append, List.cons_append, read_digit hc,
          hread, Option.map_some]
  | string hps => simp [read, readString_literal hps]
  | _ => rfl

theorem Literal.exists_cons {t : JsonToken} {lit : List Char} (h : t.Literal lit) :
    ∃ c cs, lit = c :: cs ∧ isBlank c = false := by
  cases h with
  | number hn =>
    cases hn with
    | mk hw hf he negative =>
      obtain ⟨c, ds, rfl, hc⟩ := hw.exists_cons
      cases negative with
      | true => exact ⟨'-', _, rfl, rfl⟩
      | false =>
        refine ⟨c, _, rfl, ?_⟩
        have := toNat_of_isDigit hc
        simp only [isBlank, Bool.or_eq_false_iff, decide_eq_false_iff_not]
        refine ⟨⟨⟨?_, ?_⟩, ?_⟩, ?_⟩ <;> rintro rfl <;> exact absurd hc (by decide)
  | _ => exact ⟨_, _, rfl, rfl⟩

theorem split?_of_spells {ts : List JsonToken} {cs : List Char} (h : Spells ts cs) :
    split? cs = some ts := by
  induction h with
  | nil => rw [split?]
  | blank hc h ih => rw [split?, if_pos hc, ih]
  | @token t ts lit cs ht hend h ih =>
    have hread := read_literal ht hend
    obtain ⟨c, tail, rfl, hc⟩ := ht.exists_cons
    rw [List.cons_append, split?, if_neg (by simp [hc])]
    split
    · simp_all
    · simp_all

end JsonToken

end LeaseLock
