import CallSignaling.Json.Number

/-!
# Numbers that are read again as they were printed

* `digitsValue_toDigits`: digits are read as the number that was printed.
* `Double.nearest?_units`: a number of double precision is the one next to itself.
* `Number.isWord`: the integers of 64 bits, with or without a sign.
* `Number.returns_of_isWord`: they are read again as they were printed.

Of the numbers in double precision some are and some are not: a reader rounds more than once.
-/

namespace CallSignaling

theorem digitsValue_toDigits (n : Nat) : digitsValue (Nat.toDigits 10 n) = n := by
  have h := @Nat.ofDigitChars_ten_toDigits n
  simpa only [Nat.ofDigitChars_eq_foldl, digitsValue, digitValue, Nat.mul_comm] using h

/-! ### Double precision -/

namespace Double

theorem roundedQuotient_mul {d : Nat} (hd : 0 < d) (n : Nat) : roundedQuotient (n * d) d = n := by
  simp [roundedQuotient, hd]

theorem two_pow_pos (n : Nat) : 0 < Nat.pow 2 n := Nat.pow_pos Nat.two_pos

theorem one_pos : 0 < one := by decide +kernel

theorem units_of_lt {place : Nat} (h : place < Nat.pow 2 52) : units place = place := by
  rw [units, Nat.div_eq_of_lt h]
  rfl

/-- The numbers of the stretch behind `stretch` others, from the one at its start on. -/
theorem units_stretch (stretch : Nat) {r : Nat} (h : r < Nat.pow 2 52) :
    units ((stretch + 1) * Nat.pow 2 52 + r) = (Nat.pow 2 52 + r) * Nat.pow 2 stretch := by
  have hpos : 0 < Nat.pow 2 52 := Nat.zero_lt_of_lt h
  have hdiv : ((stretch + 1) * Nat.pow 2 52 + r) / Nat.pow 2 52 = stretch + 1 := by
    rw [Nat.add_comm, Nat.add_mul_div_right _ _ hpos, Nat.div_eq_of_lt h, Nat.zero_add]
  have hmod : ((stretch + 1) * Nat.pow 2 52 + r) % Nat.pow 2 52 = r := by
    rw [Nat.add_comm, Nat.add_mul_mod_self_right, Nat.mod_eq_of_lt h]
  rw [units, hdiv, hmod]
  rfl

theorem log2_stretch (stretch : Nat) {r : Nat} (h : r < Nat.pow 2 52) :
    ((Nat.pow 2 52 + r) * Nat.pow 2 stretch).log2 = 52 + stretch := by
  have hpos := two_pow_pos stretch
  have hlow := two_pow_pos 52
  rw [Nat.log2_eq_iff (Nat.ne_of_gt (Nat.mul_pos (Nat.add_pos_left hlow r) hpos))]
  constructor
  · rw [Nat.pow_add]
    exact Nat.mul_le_mul_right _ (Nat.le_add_right _ r)
  · have hdouble : (2 : Nat) ^ (52 + 1) = Nat.pow 2 52 * 2 := rfl
    rw [Nat.add_right_comm, Nat.pow_add, hdouble]
    exact Nat.mul_lt_mul_of_pos_right (by omega) hpos

/-- A number of double precision is the one next to itself. -/
theorem nearest?_units (d : Double) : nearest? (units d.place) one = some d := by
  obtain ⟨place, hfinite⟩ := d
  have hself : units place * one / one = units place := Nat.mul_div_cancel _ one_pos
  suffices hplace : ((units place).log2 - 52) * Nat.pow 2 52 +
      roundedQuotient (units place * one) (one * Nat.pow 2 ((units place).log2 - 52)) = place by
    simp only [nearest?, hself, hplace, dif_pos hfinite]
  by_cases hlow : place < Nat.pow 2 52
  · -- all binary digits count
    have hlog : place.log2 - 52 = 0 := by
      rcases Nat.eq_zero_or_pos place with rfl | hpos
      · rfl
      · have := (Nat.log2_lt (Nat.ne_of_gt hpos)).2 hlow
        omega
    have hrest : Nat.pow 2 0 = 1 := rfl
    rw [units_of_lt hlow, hlog, Nat.zero_mul, Nat.zero_add, hrest, Nat.mul_one,
      roundedQuotient_mul one_pos]
  · obtain ⟨stretch, r, hr, rfl⟩ : ∃ stretch r, r < Nat.pow 2 52 ∧
        place = (stretch + 1) * Nat.pow 2 52 + r := by
      refine ⟨place / Nat.pow 2 52 - 1, place % Nat.pow 2 52,
        Nat.mod_lt _ (two_pow_pos 52), ?_⟩
      have hdiv := Nat.div_pos (Nat.not_lt.1 hlow) (two_pow_pos 52)
      rw [Nat.sub_add_cancel hdiv, Nat.div_add_mod']
    have hunit : 0 < one * Nat.pow 2 stretch := Nat.mul_pos one_pos (two_pow_pos stretch)
    have hdropped : (52 + stretch) - 52 = stretch := Nat.add_sub_cancel_left 52 stretch
    rw [units_stretch stretch hr, log2_stretch stretch hr, hdropped, Nat.mul_assoc,
      Nat.mul_comm _ one, roundedQuotient_mul hunit, Nat.add_mul, Nat.one_mul, Nat.add_assoc]

/-! ### Shortest digits -/

theorem units_pos {place : Nat} (h : place ≠ 0) : 0 < units place := by
  rw [units]
  split
  · exact Nat.pos_of_ne_zero h
  · exact Nat.mul_pos (Nat.add_pos_left (two_pow_pos 52) _) (two_pow_pos _)

/-- Zero determines no number but itself. -/
theorem multiple?_pos {place c : Nat} {k : Int} (hplace : place ≠ 0)
    (h : multiple? place k = some c) : 0 < c := by
  have hfound : determines place k c = true := List.find?_some h
  have hlow : 0 < (units (place - 1) + units place) * Nat.pow 10 (-k).toNat :=
    Nat.mul_pos (Nat.add_pos_right _ (units_pos hplace)) (Nat.pow_pos (by decide))
  refine Nat.pos_of_ne_zero ?_
  rintro rfl
  simp only [determines, Nat.zero_mul] at hfound
  split at hfound
  · simp only [Bool.and_eq_true, decide_eq_true_eq] at hfound
    omega
  · simp only [Bool.and_eq_true, decide_eq_true_eq] at hfound
    omega

theorem shortestFrom_pos {place : Nat} (h : place ≠ 0) (n : Nat) : 0 < (shortestFrom place n).1 := by
  induction n with
  | zero =>
    cases hfound : multiple? place (-324) with
    | none => simp [shortestFrom, hfound]
    | some c => simpa [shortestFrom, hfound] using multiple?_pos h hfound
  | succ n ih =>
    rw [shortestFrom]
    split
    · rename_i c hfound
      exact multiple?_pos h hfound
    · exact ih

theorem shortest_pos {place : Nat} (h : place ≠ 0) : 0 < (shortest place).1 :=
  shortestFrom_pos h _

end Double

/-! ### Integers of 64 bits -/

namespace Numeral

/-- Further digits make no number smaller. -/
theorem le_foldl_digits (digits : List Char) (s : Nat) :
    s ≤ digits.foldl (fun n c => n * 10 + digitValue c) s := by
  induction digits generalizing s with
  | nil => exact Nat.le_refl s
  | cons c digits ih =>
    have hrest := ih (s * 10 + digitValue c)
    rw [List.foldl_cons]
    omega

/-- Digits are all taken in if their number stays within 64 bits. -/
theorem absorb_of_lt {digits : List Char} {s : Nat}
    (h : digits.foldl (fun n c => n * 10 + digitValue c) s < UInt64.size) :
    absorb s digits = (digits.foldl (fun n c => n * 10 + digitValue c) s, 0) := by
  induction digits generalizing s with
  | nil => rfl
  | cons c digits ih =>
    rw [List.foldl_cons] at h ⊢
    have hlt : s * 10 + digitValue c < UInt64.size :=
      Nat.lt_of_le_of_lt (le_foldl_digits digits _) h
    rw [absorb, if_pos hlt, ih h]

end Numeral

namespace Number

/-- An integer of 64 bits, with or without a sign. -/
def isWord : Number → Bool
  | integer value => -Int.ofNat (UInt64.size / 2) ≤ value && value < Int.ofNat UInt64.size
  | double _ _ => false

/-- **Integers of 64 bits** are read again as they were printed. -/
theorem returns_of_isWord {n : Number} (h : n.isWord = true) : n.Returns := by
  cases n with
  | double negative magnitude => cases h
  | integer value =>
    simp only [isWord, Bool.and_eq_true, decide_eq_true_eq, Int.ofNat_eq_natCast] at h
    have hlt : digitsValue (Nat.toDigits 10 value.natAbs) < UInt64.size := by
      rw [digitsValue_toDigits]
      omega
    have habsorb : Numeral.absorb 0 (Nat.toDigits 10 value.natAbs) = (value.natAbs, 0) := by
      have hall := Numeral.absorb_of_lt hlt
      rwa [← digitsValue, digitsValue_toDigits] at hall
    have hsize : UInt64.size / 2 = 9223372036854775808 := rfl
    have hnegative : value < 0 → 0 < value.natAbs ∧ value.natAbs ≤ UInt64.size / 2 := by omega
    have hvalue : (if value < 0 then -(value.natAbs : Int) else value.natAbs) = value := by omega
    rw [Returns, numeral, Numeral.number?]
    simp only [habsorb, Numeral.absorb, Numeral.isPlain, decide_true, Bool.and_true,
      Bool.true_and, decide_eq_true_eq]
    rw [if_pos, hvalue]
    simpa [Decidable.imp_iff_not_or] using hnegative

end Number

/-- A number that is not read again as it was printed: it is held as the double next to
`5.0000000000000004e32`, which a reader takes for `5e32`. -/
example :
    let n : Numeral := { whole := ['5'], exponent := some 32 }
    n.number?.any (fun held => decide held.Returns) = false := by
  decide +kernel

end CallSignaling
