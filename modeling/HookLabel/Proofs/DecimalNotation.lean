import HookLabel.Decimal.Notation
import HookLabel.Proofs.ShortestDecimals
import HookLabel.Tree.Number

/-!
# What decimal notation spells

A decimal number is written with digits before and after a point, and with an exponent where that
would take too many zeros.  Whichever way is taken, the text spells the number
(`Decimal.text_spells`): the digits around the point are those of the number, and the zeros that are
filled in make up for the exponent.  Likewise the tree of a decimal number has its value
(`Tree.value_ofDecimal`).
-/

namespace HookLabel

namespace Decimal

/-- The value of a decimal number. -/
def value (d : Decimal) : ℚ :=
  if d.negative then -decimalValue d.digits d.exponent else decimalValue d.digits d.exponent

/-- The value of the digits before and after a point. -/
def pointValue (before after : List Char) : ℚ :=
  decimalValue (Nat.ofDigitChars 10 (before ++ after) 0) (-(after.length : Int))

variable {ds : List Char}

/-- Zeros in front count for nothing. -/
lemma ofDigitChars_zeros_append (n : Nat) (ds : List Char) :
    Nat.ofDigitChars 10 (List.replicate n '0' ++ ds) 0 = Nat.ofDigitChars 10 ds 0 := by
  rw [Nat.ofDigitChars_append, Nat.ofDigitChars_replicate_zero, Nat.mul_zero]

/-- Each zero behind multiplies by ten. -/
lemma ofDigitChars_append_zeros (ds : List Char) (n : Nat) :
    Nat.ofDigitChars 10 (ds ++ List.replicate n '0') 0 = Nat.ofDigitChars 10 ds 0 * 10 ^ n := by
  rw [Nat.ofDigitChars_append, Nat.ofDigitChars_replicate_zero, Nat.mul_comm]

/-- The digits before and after a point with an exponent behind them; a point with nothing after it
is left out, and so is an exponent that is zero. -/
def pointText (before after : List Char) (shift : Int) : List Char :=
  before ++ (if after = [] then [] else '.' :: after) ++
    if shift = 0 then [] else 'e' :: (toString shift).toList

/-- Written positionally, digits have at least one of them before the point and one after it, and
the value that puts the point behind the first `places` of them; only zeros are filled in. -/
lemma positional_spells (hds : ds ≠ []) (places : Int) :
    ∃ before after, positional ds places = pointText before after 0 ∧ before ≠ [] ∧ after ≠ [] ∧
      (∀ c ∈ before ++ after, c = '0' ∨ c ∈ ds) ∧
      pointValue before after =
        decimalValue (Nat.ofDigitChars 10 ds 0) (places - (ds.length : Nat)) := by
  have hlength := List.length_pos_iff.mpr hds
  unfold positional
  split
  · let after := List.replicate (-places).toNat '0' ++ ds
    have hafter : after ≠ [] := by simp [after, hds]
    have hdigits : ['0'] ++ after = List.replicate ((-places).toNat + 1) '0' ++ ds := by
      rw [Nat.add_comm, ← List.replicate_append_replicate, List.append_assoc]
      rfl
    have hexponent : -(after.length : Int) = places - (ds.length : Nat) := by
      rw [List.length_append, List.length_replicate]
      omega
    refine ⟨['0'], after, ?_, by simp, hafter, fun c hc => ?_, ?_⟩
    · rw [pointText, if_neg hafter, if_pos rfl, List.append_nil]
      rfl
    · rw [hdigits] at hc
      exact (List.mem_append.mp hc).imp List.eq_of_mem_replicate id
    · rw [pointValue, hdigits, ofDigitChars_zeros_append, hexponent]
  · split
    · let before := ds ++ List.replicate (places.toNat - ds.length) '0'
      have hdigits : before ++ ['0'] = ds ++ List.replicate (places.toNat - ds.length + 1) '0' := by
        rw [← List.replicate_append_replicate, ← List.append_assoc]
        rfl
      refine ⟨before, ['0'], ?_, by simp [before, hds], by simp, fun c hc => ?_, ?_⟩
      · rw [pointText, if_neg (by simp), if_pos rfl, List.append_nil]
      · rw [hdigits] at hc
        exact (List.mem_append.mp hc).symm.imp List.eq_of_mem_replicate id
      · rw [pointValue, hdigits, ofDigitChars_append_zeros, decimalValue_mul_pow]
        congr 1
        simp only [List.length_singleton]
        omega
    · have hbefore : ds.take places.toNat ≠ [] := fun h => by
        rcases List.take_eq_nil_iff.mp h with hzero | hnil
        · omega
        · exact hds hnil
      have hafter : ds.drop places.toNat ≠ [] := by
        rw [ne_eq, List.drop_eq_nil_iff]
        omega
      refine ⟨ds.take places.toNat, ds.drop places.toNat, ?_, hbefore, hafter, fun c hc => ?_, ?_⟩
      · rw [pointText, if_neg hafter, if_pos rfl, List.append_nil]
      · rw [List.take_append_drop] at hc
        exact .inr hc
      · rw [pointValue, List.take_append_drop, List.length_drop]
        congr 1
        omega

/-- Written with an exponent, digits have the first of them before the point and the others after
it. -/
lemma scientific_spells (hds : ds ≠ []) {places : Int} (hplaces : places ≠ 1) :
    ∃ first later, ds = first :: later ∧
      scientific ds places = pointText [first] later (places - 1) ∧
      pointValue [first] later * 10 ^ (places - 1) =
        decimalValue (Nat.ofDigitChars 10 ds 0) (places - (ds.length : Nat)) := by
  obtain ⟨first, later, rfl⟩ := List.exists_cons_of_ne_nil hds
  have hshift : places - 1 ≠ 0 := sub_ne_zero.mpr hplaces
  refine ⟨first, later, rfl, ?_, ?_⟩
  · rw [pointText, if_neg hshift]
    cases later with
    | nil => rfl
    | cons second later => rfl
  · rw [pointValue, List.singleton_append, decimalValue, decimalValue, mul_assoc,
      ← zpow_add₀ (by norm_num), List.length_cons]
    congr 2
    push_cast
    ring

/-- The text of a decimal number spells it: behind the sign stand digits before and after the point
and an exponent, if there are any, and they have the value of the number.  Without an exponent there
is at least one digit after the point. -/
theorem text_spells (d : Decimal) :
    ∃ (before after : List Char) (shift : Int),
      d.text.toList = (if d.negative then ['-'] else []) ++ pointText before after shift ∧
      before ≠ [] ∧ (shift = 0 → after ≠ []) ∧ (∀ c ∈ before ++ after, c.isDigit) ∧
      (if d.negative then -1 else 1) * (pointValue before after * 10 ^ shift) = d.value := by
  let ds := Nat.toDigits 10 d.digits
  let places : Int := ds.length + d.exponent
  let magnitude :=
    if d.digits = 0 then ['0', '.', '0']
    else if -5 < places ∧ places ≤ 16 then positional ds places
    else scientific ds places
  have hds : ds ≠ [] := Nat.toDigits_ne_nil
  have hdigit : ∀ c ∈ ds, c.isDigit := fun c hc =>
    Nat.isDigit_of_mem_toDigits (by decide) (by decide) hc
  have hvalue : decimalValue (Nat.ofDigitChars 10 ds 0) (places - (ds.length : Nat)) =
      decimalValue d.digits d.exponent := by
    rw [Nat.ofDigitChars_toDigits (by decide) (by decide), add_sub_cancel_left]
  have hmagnitude : ∃ (before after : List Char) (shift : Int),
      magnitude = pointText before after shift ∧ before ≠ [] ∧ (shift = 0 → after ≠ []) ∧
      (∀ c ∈ before ++ after, c.isDigit) ∧
      pointValue before after * 10 ^ shift = decimalValue d.digits d.exponent := by
    by_cases hzero : d.digits = 0
    · have hzeros : (['0'] ++ ['0']).all Char.isDigit = true := by decide
      refine ⟨['0'], ['0'], 0, if_pos hzero, by simp, by simp, List.all_eq_true.mp hzeros, ?_⟩
      simp [pointValue, decimalValue, hzero, Nat.ofDigitChars]
    · by_cases hplaces : -5 < places ∧ places ≤ 16
      · obtain ⟨before, after, htext, hbefore, hafter, hmem, hpoint⟩ := positional_spells hds places
        refine ⟨before, after, 0, ?_, hbefore, fun _ => hafter, fun c hc => ?_, ?_⟩
        · exact (if_neg hzero).trans ((if_pos hplaces).trans htext)
        · rcases hmem c hc with rfl | hc
          · rfl
          · exact hdigit c hc
        · rw [zpow_zero, mul_one, hpoint, hvalue]
      · have hne : places ≠ 1 := by omega
        obtain ⟨first, later, hcons, htext, hpoint⟩ := scientific_spells hds hne
        refine ⟨[first], later, places - 1, ?_, by simp, fun h => absurd h (by omega), ?_, ?_⟩
        · exact (if_neg hzero).trans ((if_neg hplaces).trans htext)
        · rw [List.singleton_append, ← hcons]
          exact hdigit
        · rw [hpoint, hvalue]
  obtain ⟨before, after, shift, htext, hbefore, hafter, hmem, hpoint⟩ := hmagnitude
  refine ⟨before, after, shift, ?_, hbefore, hafter, hmem, ?_⟩
  · have htoList : d.text.toList = if d.negative then '-' :: magnitude else magnitude :=
      String.toList_ofList
    rw [htoList, htext]
    cases d.negative <;> rfl
  · rw [hpoint, value]
    cases d.negative <;> simp

example : (⟨true, 125, -2⟩ : Decimal).text = "-1.25" := by decide +kernel

example : (⟨false, 12, 20⟩ : Decimal).text = "1.2e21" := by decide +kernel

end Decimal

/-! ### Numbers in syntax trees -/

/-- The tree of a decimal number has its value: the integer that the tree holds, with the point
moved to the left by the places that it tells. -/
theorem Tree.value_ofDecimal (d : Decimal) :
    ∃ mantissa decimals, Tree.ofDecimal d = .num mantissa decimals ∧
      (mantissa : ℚ) / 10 ^ decimals = d.value := by
  have hsigned : ∀ n : Nat, ((Tree.signed d.negative n : Int) : ℚ) =
      if d.negative then -(n : ℚ) else n := by
    intro n
    rw [Tree.signed]
    cases d.negative <;> simp
  unfold Tree.ofDecimal
  split
  · refine ⟨_, 0, rfl, ?_⟩
    have hpower : (10 : ℚ) ^ d.exponent = 10 ^ d.exponent.toNat := by
      rw [← zpow_natCast]
      congr 1
      omega
    rw [hsigned, pow_zero, div_one, Decimal.value, decimalValue, hpower, Nat.cast_mul, Nat.pow_eq,
      Nat.cast_pow, Nat.cast_ofNat]
  · refine ⟨_, _, rfl, ?_⟩
    have hpower : (10 : ℚ) ^ d.exponent = (10 ^ (-d.exponent).toNat)⁻¹ := by
      rw [← zpow_natCast, ← zpow_neg]
      congr 1
      omega
    rw [hsigned, Decimal.value, decimalValue, hpower, div_eq_mul_inv]
    cases d.negative <;> simp

end HookLabel
