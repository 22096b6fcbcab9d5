import CallSignaling.Json.Token
import Mathlib.Data.List.Chain

/-!
# How tokens may be written

A token can be written in many ways: a character of a string as itself or by an escape, a number
with any digits, fraction and exponent, and any blanks may stand between two tokens.

* `StringPiece.Spells`, `StringPiece.SpellsAll`: ways to write a piece of a string literal, and
  pieces in turn.
* `Numeral.Spells`: ways to write a number.
* `JsonToken.Spells`, `JsonToken.SpellsAll`: ways to write a token, and tokens with blanks around
  them.
* `JsonToken.Follows`: what has to stand behind a number.

Main statement: tokens are read from every way to write them (`scan?_of_spellsAll`).  A number is
read as far as it goes, so the next token must not begin like the rest of one.
-/

namespace CallSignaling

/-! ### Strings -/

namespace StringPiece

/-- Whether characters are a way to write a piece of a string literal. -/
inductive Spells : List Char → StringPiece → Prop
  | plain {c : Char} (hquote : c ≠ '"') (hbackslash : c ≠ '\\') (hprinted : 0x20 ≤ c.toNat) :
      Spells [c] (.char c)
  | short {mark c : Char} (h : JsonToken.shortEscape? mark = some c) : Spells ['\\', mark] (.char c)
  | unit {a b c d : Char} {n : Nat} (h : JsonToken.unitValue? a b c d = some n) :
      Spells ['\\', 'u', a, b, c, d] (.unit n)

/-- Whether characters are a way to write pieces in turn. -/
inductive SpellsAll : List Char → List StringPiece → Prop
  | nil : SpellsAll [] []
  | cons {s t : List Char} {piece : StringPiece} {pieces : List StringPiece} (h : Spells s piece)
      (hrest : SpellsAll t pieces) : SpellsAll (s ++ t) (piece :: pieces)

end StringPiece

/-! ### Numbers -/

namespace JsonToken

/-- At least one character, and only digits. -/
structure Digits (s : List Char) : Prop where
  nonempty : s ≠ []
  digits : ∀ c ∈ s, c.isDigit = true

/-- Ways to write a sign, and whether it is that of a negative number. -/
inductive SpellsSign : List Char → Bool → Prop
  | none : SpellsSign [] false
  | minus : SpellsSign ['-'] true

/-- Ways to write a fraction with the given digits. -/
inductive SpellsFraction : List Char → List Char → Prop
  | none : SpellsFraction [] []
  | point {digits : List Char} (h : Digits digits) : SpellsFraction ('.' :: digits) digits

/-- Ways to write an exponent. -/
inductive SpellsExponent : List Char → Option Int → Prop
  | none : SpellsExponent [] none
  | plain {mark : Char} {digits : List Char} (hmark : mark = 'e' ∨ mark = 'E') (h : Digits digits) :
      SpellsExponent (mark :: digits) (some (digitsValue digits : Int))
  | plus {mark : Char} {digits : List Char} (hmark : mark = 'e' ∨ mark = 'E') (h : Digits digits) :
      SpellsExponent (mark :: '+' :: digits) (some (digitsValue digits : Int))
  | minus {mark : Char} {digits : List Char} (hmark : mark = 'e' ∨ mark = 'E') (h : Digits digits) :
      SpellsExponent (mark :: '-' :: digits) (some (-(digitsValue digits : Int)))

end JsonToken

/-- Whether characters are a way to write a number: a sign, digits without a leading zero before
further ones, a fraction and an exponent. -/
inductive Numeral.Spells : List Char → Numeral → Prop
  | intro {sign whole fraction exponent digits : List Char} {negative : Bool} {power : Option Int}
      (hsign : JsonToken.SpellsSign sign negative) (hwhole : JsonToken.Digits whole)
      (hzero : whole.head? = some '0' → whole.length = 1)
      (hfraction : JsonToken.SpellsFraction fraction digits)
      (hexponent : JsonToken.SpellsExponent exponent power) :
      Spells (sign ++ (whole ++ (fraction ++ exponent)))
        ⟨negative, whole, digits, power⟩

namespace JsonToken

/-! ### Tokens -/

/-- Whether characters are a way to write a token. -/
inductive Spells : List Char → JsonToken → Prop
  | openArray : Spells ['['] openArray
  | closeArray : Spells [']'] closeArray
  | openObject : Spells ['\x7b'] openObject
  | closeObject : Spells ['\x7d'] closeObject
  | comma : Spells [','] comma
  | colon : Spells [':'] colon
  | null : Spells ['n', 'u', 'l', 'l'] null
  | true : Spells ['t', 'r', 'u', 'e'] (bool true)
  | false : Spells ['f', 'a', 'l', 's', 'e'] (bool false)
  | number {s : List Char} {n : Numeral} (h : Numeral.Spells s n) : Spells s (number n)
  | string {s : List Char} {pieces : List StringPiece} (h : StringPiece.SpellsAll s pieces) :
      Spells ('"' :: (s ++ ['"'])) (string ((StringPiece.join? pieces).map String.ofList))

/-- Whether characters are a way to write tokens in turn, with blanks where one likes. -/
inductive SpellsAll : List Char → List JsonToken → Prop
  | nil : SpellsAll [] []
  | blank {c : Char} {s : List Char} {tokens : List JsonToken} (hblank : isBlank c = true)
      (h : SpellsAll s tokens) : SpellsAll (c :: s) tokens
  | token {s rest : List Char} {token : JsonToken} {tokens : List JsonToken}
      (htoken : Spells s token) (h : SpellsAll rest tokens) : SpellsAll (s ++ rest) (token :: tokens)

/-- Whether a token ends what stands before it. -/
def IsEnd (token : JsonToken) : Prop :=
  token = .comma ∨ token = .closeArray ∨ token = .closeObject

/-- Whether a token may stand behind another one: only an end may stand behind a number. -/
def Follows (before token : JsonToken) : Prop := ∀ n, before = .number n → token.IsEnd

/-! ### Scanning strings -/

theorem scanString?_of_spells {s : List Char} {piece : StringPiece} (h : piece.Spells s)
    {t rest : List Char} {pieces : List StringPiece} (ht : scanString? t = some (pieces, rest)) :
    scanString? (s ++ t) = some (piece :: pieces, rest) := by
  cases h with
  | @plain c hquote hbackslash hprinted =>
    rw [List.singleton_append, scanString?]
    · simp [hbackslash, Nat.not_lt.2 hprinted, ht]
    · exact hquote
    · exact fun _ _ _ _ _ hc => absurd hc hbackslash
    · exact fun _ _ hc => absurd hc hbackslash
  | @short mark c hmark =>
    have hne : mark ≠ 'u' := by
      rintro rfl
      cases hmark
    rw [List.cons_append, List.singleton_append, scanString?, hmark]
    · simp [ht]
    · simp [hne]
  | unit hunit =>
    simp only [List.cons_append, List.nil_append]
    rw [scanString?, hunit]
    simp [ht]

theorem scanString?_of_spellsAll {s : List Char} {pieces : List StringPiece}
    (h : StringPiece.SpellsAll s pieces) (rest : List Char) :
    scanString? (s ++ '"' :: rest) = some (pieces, rest) := by
  induction h with
  | nil => rfl
  | cons hpiece _ ih =>
    rw [List.append_assoc]
    exact scanString?_of_spells hpiece ih

/-! ### Scanning numbers -/

/-- What may stand behind a number: nothing, a blank or an end. -/
def Stops (rest : List Char) : Prop :=
  ∀ c ∈ rest.head?, isBlank c = true ∨ c = ',' ∨ c = ']' ∨ c = '\x7d'

/-- Whether a text does not go on with a digit. -/
def NoDigit (rest : List Char) : Prop := ∀ c ∈ rest.head?, c.isDigit = false

/-- What may stand behind a number goes on with no part of one. -/
theorem Stops.head {rest : List Char} (h : Stops rest) {c : Char} (hc : c ∈ rest.head?) :
    c.isDigit = false ∧ c ≠ '.' ∧ c ≠ 'e' ∧ c ≠ 'E' := by
  rcases h c hc with hblank | rfl | rfl | rfl
  · simp only [isBlank, Bool.or_eq_true, decide_eq_true_eq] at hblank
    rcases hblank with ((rfl | rfl) | rfl) | rfl <;> decide
  all_goals decide

theorem Stops.noDigit {rest : List Char} (h : Stops rest) : NoDigit rest := fun _ hc => (h.head hc).1

theorem scanDigits_of_digits {s rest : List Char} (h : ∀ c ∈ s, c.isDigit = true)
    (hrest : NoDigit rest) : scanDigits (s ++ rest) = (s, rest) := by
  have hstop : rest.takeWhile Char.isDigit = [] ∧ rest.dropWhile Char.isDigit = rest := by
    cases rest with
    | nil => exact ⟨rfl, rfl⟩
    | cons c rest => simp [hrest c rfl]
  rw [scanDigits, List.takeWhile_append_of_pos h, List.dropWhile_append_of_pos h, hstop.1, hstop.2,
    List.append_nil]

theorem scanFraction?_of_spells {s digits rest : List Char} (h : SpellsFraction s digits)
    (hdigit : NoDigit rest) (hpoint : '.' ∉ rest.head?) :
    scanFraction? (s ++ rest) = some (digits, rest) := by
  cases h with
  | none =>
    cases rest with
    | nil => rfl
    | cons c rest =>
      have hne : c ≠ '.' := by
        rintro rfl
        exact hpoint rfl
      rw [List.nil_append, scanFraction?]
      simpa using hne
  | point h =>
    rw [List.cons_append, scanFraction?, scanDigits_of_digits h.digits hdigit]
    exact if_neg h.nonempty

theorem scanExponent?_of_spells {s rest : List Char} {power : Option Int}
    (h : SpellsExponent s power) (hstops : Stops rest) :
    scanExponent? (s ++ rest) = some (power, rest) := by
  have hread : ∀ {mark : Char} {digits : List Char}, mark = 'e' ∨ mark = 'E' → Digits digits →
      (decide (mark = 'e') || decide (mark = 'E')) = true ∧
        scanDigits (digits ++ rest) = (digits, rest) ∧ digits ≠ [] := by
    intro mark digits hmark hdigits
    exact ⟨by simpa using hmark, scanDigits_of_digits hdigits.digits hstops.noDigit,
      hdigits.nonempty⟩
  cases h with
  | none =>
    cases rest with
    | nil => rfl
    | cons c rest =>
      obtain ⟨-, -, hlower, hupper⟩ := hstops.head (c := c) rfl
      rw [List.nil_append]
      unfold scanExponent?
      simp [hlower, hupper]
  | @plain mark digits hmark hdigits =>
    obtain ⟨hmark', hscan, hnil⟩ := hread hmark hdigits
    obtain ⟨d, digits, rfl⟩ := List.exists_cons_of_ne_nil hnil
    have hd : d.isDigit = true := hdigits.digits d List.mem_cons_self
    have hsign : d ≠ '-' ∧ d ≠ '+' := by constructor <;> rintro rfl <;> cases hd
    rw [List.cons_append] at hscan ⊢
    rw [List.cons_append, scanExponent?, if_pos hmark']
    · simp [hscan]
    · simp [hsign.1]
    · simp [hsign.2]
  | @plus mark digits hmark hdigits =>
    obtain ⟨hmark', hscan, hnil⟩ := hread hmark hdigits
    rw [List.cons_append, List.cons_append, scanExponent?, if_pos hmark']
    simp [hscan, hnil]
  | @minus mark digits hmark hdigits =>
    obtain ⟨hmark', hscan, hnil⟩ := hread hmark hdigits
    rw [List.cons_append, List.cons_append, scanExponent?, if_pos hmark']
    simp [hscan, hnil]

/-- What stands behind the digits before the point goes on with none. -/
theorem head_of_spellsExponent {s rest : List Char} {power : Option Int}
    (h : SpellsExponent s power) (hstops : Stops rest) {c : Char} (hc : c ∈ (s ++ rest).head?) :
    c.isDigit = false ∧ c ≠ '.' := by
  have hmark : ∀ {mark : Char}, mark = 'e' ∨ mark = 'E' → mark.isDigit = false ∧ mark ≠ '.' := by
    rintro mark (rfl | rfl) <;> decide
  cases h with
  | none =>
    obtain ⟨hdigit, hpoint, -⟩ := hstops.head hc
    exact ⟨hdigit, hpoint⟩
  | plain h =>
    cases hc
    exact hmark h
  | plus h =>
    cases hc
    exact hmark h
  | minus h =>
    cases hc
    exact hmark h

theorem noDigit_of_spellsFraction {s digits rest : List Char} (h : SpellsFraction s digits)
    (hrest : NoDigit rest) : NoDigit (s ++ rest) := by
  cases h with
  | none => exact hrest
  | point =>
    intro c hc
    cases hc
    rfl

/-- **Numbers** are read from every way to write them. -/
theorem scanNumeral?_of_spells {s rest : List Char} {n : Numeral} (h : n.Spells s)
    (hstops : Stops rest) : scanNumeral? (s ++ rest) = some (n, rest) := by
  cases h with
  | @intro sign whole fraction exponent digits negative power hsign hwhole hzero hfraction
      hexponent =>
    have hhead := fun c hc => head_of_spellsExponent (c := c) hexponent hstops hc
    have htail := noDigit_of_spellsFraction hfraction fun c hc => (hhead c hc).1
    have hwholeScan := scanDigits_of_digits hwhole.digits htail
    have hfractionScan := scanFraction?_of_spells hfraction (fun c hc => (hhead c hc).1)
      fun hc => (hhead '.' hc).2 rfl
    have hexponentScan := scanExponent?_of_spells hexponent hstops
    have hnil := hwhole.nonempty
    simp only [List.append_assoc]
    cases hsign with
    | minus =>
      rw [List.singleton_append]
      unfold scanNumeral?
      simpa [hwholeScan, hfractionScan, hexponentScan, hnil] using hzero
    | none =>
      -- digits are no sign
      obtain ⟨d, digits', rfl⟩ := List.exists_cons_of_ne_nil hnil
      have hd : d.isDigit = true := hwhole.digits d List.mem_cons_self
      have hminus : d ≠ '-' := by
        rintro rfl
        cases hd
      rw [List.nil_append]
      rw [List.cons_append] at hwholeScan ⊢
      unfold scanNumeral?
      simpa [hwholeScan, hfractionScan, hexponentScan, hminus] using hzero

/-! ### Scanning tokens -/

/-- Further fuel changes nothing. -/
theorem scanAll?_mono {fuel more : Nat} {s : List Char} {tokens : List JsonToken}
    (h : scanAll? fuel s = some tokens) (hle : fuel ≤ more) : scanAll? more s = some tokens := by
  induction fuel generalizing s tokens more with
  | zero =>
    cases s with
    | nil => cases more <;> exact h
    | cons c s => cases h
  | succ fuel ih =>
    cases s with
    | nil => cases more <;> exact h
    | cons c s =>
      obtain ⟨more, rfl⟩ := Nat.exists_eq_add_of_lt (Nat.lt_of_succ_le hle)
      rw [scanAll?] at h ⊢
      split
      · rename_i hblank
        rw [if_pos hblank] at h
        exact ih h (by omega)
      · rename_i hblank
        rw [if_neg hblank] at h
        simp only [Option.bind_eq_bind, Option.bind_eq_some_iff] at h ⊢
        obtain ⟨⟨token, rest⟩, htoken, tokens, hrest, heq⟩ := h
        exact ⟨_, htoken, tokens, ih hrest (by omega), heq⟩

/-- A token that stands first is scanned first. -/
theorem scan?_cons {c : Char} {s rest : List Char} {token : JsonToken} {tokens : List JsonToken}
    (hblank : isBlank c = false) (htoken : scanToken? (c :: s) = some (token, rest))
    (hlength : rest.length ≤ s.length) (h : scan? rest = some tokens) :
    scan? (c :: s) = some (token :: tokens) := by
  have hrest : scanAll? s.length rest = some tokens := scanAll?_mono h hlength
  rw [scan?, List.length_cons, scanAll?, hblank]
  simp [htoken, hrest]

theorem scan?_blank {c : Char} (hblank : isBlank c = true) (s : List Char) :
    scan? (c :: s) = scan? s := by
  rw [scan?, List.length_cons, scanAll?, if_pos hblank, ← scan?]

/-- What starts with a sign or a digit is scanned as a number. -/
theorem scanToken?_of_number {c : Char} (s : List Char) (h : c = '-' ∨ c.isDigit = true) :
    scanToken? (c :: s) = (scanNumeral? (c :: s)).bind fun p => some (number p.1, p.2) := by
  unfold scanToken?
  split
  case h_1 heq => cases heq
  case h_12 => rfl
  all_goals
    rename_i heq
    cases heq
    exact absurd h (by decide)

/-- A number starts with a sign or a digit. -/
theorem exists_cons_of_spells {s : List Char} {n : Numeral} (h : n.Spells s) :
    ∃ c t, s = c :: t ∧ isBlank c = false ∧ (c = '-' ∨ c.isDigit = true) := by
  cases h with
  | intro hsign hwhole hzero hfraction hexponent =>
    obtain ⟨d, digits, rfl⟩ := List.exists_cons_of_ne_nil hwhole.nonempty
    have hd : d.isDigit = true := hwhole.digits d List.mem_cons_self
    cases hsign with
    | minus => exact ⟨_, _, rfl, rfl, .inl rfl⟩
    | none =>
      refine ⟨_, _, rfl, ?_, .inr hd⟩
      cases hblank : isBlank d with
      | false => rfl
      | true =>
        simp only [isBlank, Bool.or_eq_true, decide_eq_true_eq] at hblank
        rcases hblank with ((rfl | rfl) | rfl) | rfl <;> cases hd

/-- A token is scanned from every way to write it. -/
theorem scan?_of_spells {s rest : List Char} {token : JsonToken} {tokens : List JsonToken}
    (htoken : token.Spells s) (hstops : ∀ n, token = .number n → Stops rest)
    (h : scan? rest = some tokens) : scan? (s ++ rest) = some (token :: tokens) := by
  cases htoken with
  | number hnumber =>
    have hscan := scanNumeral?_of_spells hnumber (hstops _ rfl)
    obtain ⟨c, t, rfl, hblank, hc⟩ := exists_cons_of_spells hnumber
    rw [List.cons_append] at hscan ⊢
    refine scan?_cons hblank ?_ (by simp) h
    rw [scanToken?_of_number _ hc, hscan]
    rfl
  | string hpieces =>
    have hscan := scanString?_of_spellsAll hpieces rest
    rw [List.cons_append, List.append_assoc, List.singleton_append]
    refine scan?_cons rfl ?_ (by simp; omega) h
    simp [scanToken?, hscan]
  | null => exact scan?_cons rfl rfl (by simp; omega) h
  | true => exact scan?_cons rfl rfl (by simp; omega) h
  | false => exact scan?_cons rfl rfl (by simp; omega) h
  | _ => exact scan?_cons rfl rfl (Nat.le_refl _) h

/-- Where no token stands, or one that ends what is before it, a number stops. -/
theorem stops_of_spellsAll {s : List Char} {tokens : List JsonToken} (h : SpellsAll s tokens)
    (hend : ∀ token ∈ tokens.head?, token.IsEnd) : Stops s := by
  intro c hc
  cases h with
  | nil => cases hc
  | blank hblank _ =>
    cases hc
    exact .inl hblank
  | token htoken _ =>
    rcases hend _ rfl with rfl | rfl | rfl <;> cases htoken <;> cases hc <;> simp

/-- **Tokens** are read from every way to write them, if an end stands behind every number. -/
theorem scan?_of_spellsAll {s : List Char} {tokens : List JsonToken} (h : SpellsAll s tokens)
    (hchain : tokens.IsChain Follows) : scan? s = some tokens := by
  induction h with
  | nil => rfl
  | blank hblank _ ih => rw [scan?_blank hblank, ih hchain]
  | @token s rest token tokens htoken hrest ih =>
    rw [List.isChain_cons] at hchain
    refine scan?_of_spells htoken ?_ (ih hchain.2)
    rintro n rfl
    exact stops_of_spellsAll hrest fun next hnext => hchain.1 next hnext n rfl

end JsonToken

end CallSignaling
