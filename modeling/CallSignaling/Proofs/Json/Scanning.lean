import CallSignaling.Proofs.Json.Spelling
import Mathlib.Data.List.TakeWhile

/-!
# What is scanned stands there

Main statement: the tokens that are scanned from a text are spelled by it (`spellsAll_of_scan?`).
-/

namespace CallSignaling.JsonToken

/-! ### Strings -/

/-- The pieces that are scanned stand before the closing quote. -/
theorem exists_of_scanString? {s rest : List Char} {pieces : List StringPiece}
    (h : scanString? s = some (pieces, rest)) :
    ∃ t, s = t ++ '"' :: rest ∧ StringPiece.SpellsAll t pieces := by
  fun_induction scanString? s generalizing pieces with
  | case1 => cases h
  | case2 rest =>
    cases h
    exact ⟨[], rfl, .nil⟩
  | case3 a b c d s ih =>
    simp only [Option.bind_eq_bind, Option.bind_eq_some_iff] at h
    obtain ⟨n, hn, ⟨others, after⟩, hscan, heq⟩ := h
    cases heq
    obtain ⟨t, rfl, ht⟩ := ih hscan
    exact ⟨_, rfl, .cons (.unit hn) ht⟩
  | case4 mark s hunit ih =>
    simp only [Option.bind_eq_bind, Option.bind_eq_some_iff] at h
    obtain ⟨c, hc, ⟨others, after⟩, hscan, heq⟩ := h
    cases heq
    obtain ⟨t, rfl, ht⟩ := ih hscan
    exact ⟨_, rfl, .cons (.short hc) ht⟩
  | case5 => cases h
  | case6 c s hquote _ _ hplain ih =>
    simp only [Option.bind_eq_bind, Option.bind_eq_some_iff] at h
    obtain ⟨⟨others, after⟩, hscan, heq⟩ := h
    cases heq
    obtain ⟨t, rfl, ht⟩ := ih hscan
    simp only [Bool.or_eq_true, decide_eq_true_eq, not_or, Nat.not_lt] at hplain
    exact ⟨_, rfl, .cons (.plain hquote hplain.1 hplain.2) ht⟩

/-! ### Numbers -/

/-- The digits that are scanned stand first. -/
theorem digits_of_scanDigits {s digits rest : List Char} (h : scanDigits s = (digits, rest))
    (hnil : digits ≠ []) : s = digits ++ rest ∧ Digits digits := by
  cases h
  exact ⟨List.takeWhile_append_dropWhile.symm, hnil, fun _ hc => List.mem_takeWhile_imp hc⟩

theorem exists_of_scanFraction? {s digits rest : List Char}
    (h : scanFraction? s = some (digits, rest)) : ∃ t, s = t ++ rest ∧ SpellsFraction t digits := by
  unfold scanFraction? at h
  split at h
  · rename_i s
    generalize hscan : scanDigits s = scanned at h
    obtain ⟨found, after⟩ := scanned
    obtain ⟨hnil, heq⟩ := Option.ite_none_left_eq_some.1 h
    cases heq
    obtain ⟨rfl, hdigits⟩ := digits_of_scanDigits hscan hnil
    exact ⟨_, rfl, .point hdigits⟩
  · cases h
    exact ⟨[], rfl, .none⟩

theorem exists_of_scanExponent? {s rest : List Char} {power : Option Int}
    (h : scanExponent? s = some (power, rest)) : ∃ t, s = t ++ rest ∧ SpellsExponent t power := by
  revert h
  fun_cases scanExponent? s with
  | case1 =>
    rintro ⟨⟩
    exact ⟨[], rfl, .none⟩
  | case2 => nofun
  | case3 mark s hmark negative unsigned hsign digits after hscan hnil n =>
    rintro ⟨⟩
    obtain ⟨rfl, hdigits⟩ := digits_of_scanDigits hscan hnil
    have hmark : mark = 'e' ∨ mark = 'E' := by simpa using hmark
    split at hsign
    · cases hsign
      exact ⟨_, rfl, .minus hmark hdigits⟩
    · cases hsign
      exact ⟨_, rfl, .plus hmark hdigits⟩
    · cases hsign
      exact ⟨_, rfl, .plain hmark hdigits⟩
  | case4 mark s =>
    rintro ⟨⟩
    exact ⟨[], rfl, .none⟩

/-- The number that is scanned stands first. -/
theorem exists_of_scanNumeral? {s rest : List Char} {n : Numeral}
    (h : scanNumeral? s = some (n, rest)) : ∃ t, s = t ++ rest ∧ n.Spells t := by
  unfold scanNumeral? at h
  split at h
  rename_i negative unsigned hunsigned
  obtain ⟨sign, rfl, hsign⟩ : ∃ sign, s = sign ++ unsigned ∧ SpellsSign sign negative := by
    split at hunsigned
    · cases hunsigned
      exact ⟨_, rfl, .minus⟩
    · cases hunsigned
      exact ⟨[], rfl, .none⟩
  generalize hscan : scanDigits unsigned = scanned at h
  obtain ⟨whole, afterWhole⟩ := scanned
  dsimp only at h
  split at h
  · cases h
  · rename_i hwhole
    simp only [Option.bind_eq_bind, Option.bind_eq_some_iff] at h
    obtain ⟨⟨fraction, afterFraction⟩, hfraction, ⟨power, afterExponent⟩, hexponent, heq⟩ := h
    cases heq
    simp only [Bool.or_eq_true, Bool.and_eq_true, decide_eq_true_eq, not_or, not_and,
      Decidable.not_not] at hwhole
    obtain ⟨rfl, hdigits⟩ := digits_of_scanDigits hscan hwhole.1
    obtain ⟨f, rfl, hf⟩ := exists_of_scanFraction? hfraction
    obtain ⟨e, rfl, he⟩ := exists_of_scanExponent? hexponent
    refine ⟨_, ?_, .intro hsign hdigits hwhole.2 hf he⟩
    simp only [List.append_assoc]

/-! ### Tokens -/

/-- The token that is scanned stands first. -/
theorem exists_of_scanToken? {s rest : List Char} {token : JsonToken}
    (h : scanToken? s = some (token, rest)) : ∃ t, s = t ++ rest ∧ token.Spells t := by
  unfold scanToken? at h
  split at h
  case h_1 => cases h
  case h_2 | h_3 | h_4 | h_5 | h_6 | h_7 | h_8 | h_9 | h_10 =>
    -- brackets, separators and keywords
    cases h
    exact ⟨_, rfl, by constructor⟩
  case h_11 =>
    simp only [Option.bind_eq_bind, Option.bind_eq_some_iff] at h
    obtain ⟨⟨pieces, after⟩, hscan, heq⟩ := h
    cases heq
    obtain ⟨t, rfl, ht⟩ := exists_of_scanString? hscan
    refine ⟨_, ?_, .string ht⟩
    rw [List.cons_append, List.append_assoc, List.singleton_append]
  case h_12 =>
    simp only [Option.bind_eq_bind, Option.bind_eq_some_iff] at h
    obtain ⟨⟨n, after⟩, hscan, heq⟩ := h
    cases heq
    obtain ⟨t, rfl, ht⟩ := exists_of_scanNumeral? hscan
    exact ⟨t, rfl, .number ht⟩

theorem spellsAll_of_scanAll? {fuel : Nat} {s : List Char} {tokens : List JsonToken}
    (h : scanAll? fuel s = some tokens) : SpellsAll s tokens := by
  induction fuel generalizing s tokens with
  | zero =>
    cases s with
    | nil =>
      cases h
      exact .nil
    | cons c s => cases h
  | succ fuel ih =>
    cases s with
    | nil =>
      cases h
      exact .nil
    | cons c s =>
      rw [scanAll?] at h
      split at h
      · rename_i hblank
        exact .blank hblank (ih h)
      · simp only [Option.bind_eq_bind, Option.bind_eq_some_iff] at h
        obtain ⟨⟨token, rest⟩, htoken, others, hrest, heq⟩ := h
        cases heq
        obtain ⟨t, hs, ht⟩ := exists_of_scanToken? htoken
        rw [hs]
        exact .token ht (ih hrest)

/-- **Scanning is exact**: tokens that are scanned from a text are spelled by it. -/
theorem spellsAll_of_scan? {s : List Char} {tokens : List JsonToken}
    (h : scan? s = some tokens) : SpellsAll s tokens :=
  spellsAll_of_scanAll? h

end CallSignaling.JsonToken
