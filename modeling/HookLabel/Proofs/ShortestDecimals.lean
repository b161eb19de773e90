import HookLabel.Decimal.Shortest
import Mathlib.Algebra.Order.Field.Power
import Mathlib.Data.Rat.Floor
import Mathlib.Order.Compare
import Mathlib.Tactic.Lemma
import Mathlib.Tactic.Linarith
import Mathlib.Tactic.Positivity
import Mathlib.Tactic.Ring

/-!
# The shortest decimal is the shortest

The reals that round to a binary floating-point number fill an interval (`Binary.RoundsTo`).
`Binary.readsBack` decides whether a decimal lies in it, and of the points of a decimal grid that do
`Binary.nearestOnGrid?` takes the nearest one (`Binary.isNearest_of_nearestOnGrid?`).

With 53 bits of significand the interval is wider than the gaps of the grid that shows seventeen
digits of the number, so the search for a grid ends (`Binary.exists_first_grid`).  What it finds has
no more digits than any other decimal in the interval, and among those with as few digits it is the
nearest (`Binary.shortest_spec`).  The argument is that a decimal with `k` digits, if it is not
itself on the grid of `k` digits, lies below a power of ten that is.
-/

namespace HookLabel

/-- The value of a decimal without a sign. -/
def decimalValue (digits : Nat) (exponent : Int) : ℚ := digits * 10 ^ exponent

/-- Powers of ten may be moved into the exponent. -/
lemma decimalValue_mul_pow (digits n : Nat) (exponent : Int) :
    decimalValue (digits * 10 ^ n) exponent = decimalValue digits (n + exponent) := by
  rw [decimalValue, decimalValue, Nat.cast_mul, Nat.cast_pow, Nat.cast_ofNat, mul_assoc,
    ← zpow_natCast, ← zpow_add₀ (by norm_num)]

/-- A power of ten on a grid is a power of ten. -/
lemma decimalValue_pow (n : Nat) (exponent : Int) :
    decimalValue (10 ^ n) exponent = 10 ^ (n + exponent) := by
  rw [← one_mul (10 ^ n), decimalValue_mul_pow, decimalValue, Nat.cast_one, one_mul]

namespace Binary

/-! ### Values and comparisons -/

/-- The value of a number. -/
def value (x : Binary) : ℚ := x.m * 2 ^ x.q

/-- The lower end of the reals that round to a number, or zero if that is negative. -/
def low (x : Binary) : ℚ := (4 * x.m - if x.narrowBelow then 1 else 2 : Nat) * 2 ^ (x.q - 2)

/-- The upper end of the reals that round to a number. -/
def high (x : Binary) : ℚ := (4 * x.m + 2 : Nat) * 2 ^ (x.q - 2)

/-- A rational rounds to a number if it lies between the ends, which belong to the numbers with an
even significand. -/
def RoundsTo (x : Binary) (r : ℚ) : Prop :=
  if x.m % 2 = 0 then x.low ≤ r ∧ r ≤ x.high else x.low < r ∧ r < x.high

/-- The negative part of an exponent makes up for what is missing to the positive part. -/
lemma zpow_mul_pow_toNat {b : ℚ} (hb : b ≠ 0) (i : Int) :
    b ^ i * b ^ (-i).toNat = b ^ i.toNat := by
  rw [← zpow_natCast, ← zpow_natCast, ← zpow_add₀ hb]
  congr 1
  omega

/-- Integers are compared as the rationals that they stand for. -/
lemma compareScaled_eq (a : Nat) (i : Int) (b : Nat) (j : Int) :
    compareScaled a i b j = compare ((a : ℚ) * 10 ^ i) ((b : ℚ) * 2 ^ j) := by
  -- both sides are multiplied by the same powers of two and ten
  let c : ℚ := 10 ^ (-i).toNat * 2 ^ (-j).toNat
  have hc : 0 < c := by positivity
  have hleft : ((a * Nat.pow 10 i.toNat * Nat.pow 2 (-j).toNat : Nat) : ℚ) = a * 10 ^ i * c := by
    have hten := zpow_mul_pow_toNat (b := 10) (by norm_num) i
    push_cast [Nat.pow_eq]
    rw [← hten]
    ring
  have hright : ((b * Nat.pow 2 j.toNat * Nat.pow 10 (-i).toNat : Nat) : ℚ) = b * 2 ^ j * c := by
    have htwo := zpow_mul_pow_toNat (b := 2) (by norm_num) j
    push_cast [Nat.pow_eq]
    rw [← htwo]
    ring
  have hlt : a * Nat.pow 10 i.toNat * Nat.pow 2 (-j).toNat <
      b * Nat.pow 2 j.toNat * Nat.pow 10 (-i).toNat ↔ (a : ℚ) * 10 ^ i < b * 2 ^ j := by
    rw [← Nat.cast_lt (α := ℚ), hleft, hright]
    exact mul_lt_mul_iff_left₀ hc
  have heq : a * Nat.pow 10 i.toNat * Nat.pow 2 (-j).toNat =
      b * Nat.pow 2 j.toNat * Nat.pow 10 (-i).toNat ↔ (a : ℚ) * 10 ^ i = b * 2 ^ j := by
    rw [← Nat.cast_inj (R := ℚ), hleft, hright]
    exact mul_left_inj' hc.ne'
  simp only [compareScaled, hlt, heq]
  rcases lt_trichotomy ((a : ℚ) * 10 ^ i) (b * 2 ^ j) with h | h | h
  · rw [if_pos h, compare_lt_iff_lt.mpr h]
  · rw [if_neg (not_lt_of_ge h.ge), if_pos h, compare_eq_iff_eq.mpr h]
  · rw [if_neg (not_lt_of_gt h), if_neg h.ne', compare_gt_iff_gt.mpr h]

variable {x : Binary} {exponent : Int}

/-- A decimal reads back exactly if it rounds to the number. -/
lemma readsBack_iff {digits : Nat} :
    x.readsBack digits exponent = true ↔ x.RoundsTo (decimalValue digits exponent) := by
  simp only [readsBack, compareScaled_eq, RoundsTo, low, high, decimalValue]
  split
  · rw [Bool.and_eq_true, bne_iff_ne, bne_iff_ne, ne_eq, ne_eq, compare_lt_iff_lt,
      compare_gt_iff_gt, not_lt, not_lt]
  · rw [Bool.and_eq_true, beq_iff_eq, beq_iff_eq, compare_gt_iff_gt, compare_lt_iff_lt]

/-- The reals that round to a number form an interval. -/
lemma RoundsTo.between {a b c : ℚ} (ha : x.RoundsTo a) (hb : x.RoundsTo b) (hac : a ≤ c)
    (hcb : c ≤ b) : x.RoundsTo c := by
  unfold RoundsTo at *
  split at ha
  · rw [if_pos ‹_›] at hb ⊢
    exact ⟨ha.1.trans hac, hcb.trans hb.2⟩
  · rw [if_neg ‹_›] at hb ⊢
    exact ⟨ha.1.trans_le hac, hcb.trans_lt hb.2⟩

/-- What lies strictly between the ends rounds to the number. -/
lemma roundsTo_of_lt {r : ℚ} (hlow : x.low < r) (hhigh : r < x.high) : x.RoundsTo r := by
  unfold RoundsTo
  split
  · exact ⟨hlow.le, hhigh.le⟩
  · exact ⟨hlow, hhigh⟩

/-- A number in quarters of the gap to the number above. -/
lemma value_eq (x : Binary) : x.value = 4 * x.m * 2 ^ (x.q - 2) := by
  have hexponent : (2 : ℚ) ^ x.q = 2 ^ (x.q - 2) * 4 := by
    rw [zpow_sub₀ (by norm_num)]
    norm_num
  rw [value, hexponent]
  ring

/-- Below a number that is not zero the interval reaches down by one or two quarters of the gap. -/
lemma low_eq (hm : x.m ≠ 0) :
    x.low = (4 * x.m - if x.narrowBelow then 1 else 2) * 2 ^ (x.q - 2) := by
  rw [low, Nat.cast_sub]
  · push_cast
    split <;> norm_num
  · split <;> omega

/-- A number rounds to itself. -/
lemma roundsTo_value (x : Binary) : x.RoundsTo x.value := by
  have hgap : (0 : ℚ) < 2 ^ (x.q - 2) := by positivity
  have hhigh : x.value < x.high := by
    rw [value_eq, high, mul_lt_mul_iff_left₀ hgap]
    push_cast
    linarith
  by_cases hm : x.m = 0
  · have hlow : x.low ≤ x.value := by simp [low, value_eq, hm]
    rw [RoundsTo, if_pos (by rw [hm])]
    exact ⟨hlow, hhigh.le⟩
  · refine roundsTo_of_lt ?_ hhigh
    rw [low_eq hm, value_eq, mul_lt_mul_iff_left₀ hgap]
    split <;> linarith

/-! ### The points of a grid -/

/-- The value of a number as a quotient of natural numbers. -/
lemma value_mul (x : Binary) :
    x.value * (Nat.pow 2 (-x.q).toNat : Nat) = (x.m * Nat.pow 2 x.q.toNat : Nat) := by
  have htwo := zpow_mul_pow_toNat (b := 2) (by norm_num) x.q
  push_cast [Nat.pow_eq]
  rw [value, mul_assoc, htwo]

/-- A point of a grid is at or below the point that is taken to be below the number exactly if it is
at or below the number. -/
lemma le_gridBelow_iff {k : Nat} :
    k ≤ x.gridBelow exponent ↔ decimalValue k exponent ≤ x.value := by
  have hpos : 0 < Nat.pow 2 (-x.q).toNat * Nat.pow 10 exponent.toNat :=
    Nat.mul_pos (Nat.pow_pos (by decide)) (Nat.pow_pos (by decide))
  have hten := zpow_mul_pow_toNat (b := 10) (by norm_num) exponent
  let c : ℚ := (Nat.pow 2 (-x.q).toNat : Nat) * 10 ^ (-exponent).toNat
  have hc : 0 < c := by
    have : 0 < Nat.pow 2 (-x.q).toNat := Nat.pow_pos (by decide)
    positivity
  have hleft : ((k * (Nat.pow 2 (-x.q).toNat * Nat.pow 10 exponent.toNat) : Nat) : ℚ) =
      decimalValue k exponent * c := by
    rw [decimalValue]
    push_cast [Nat.pow_eq]
    rw [← hten]
    simp only [c, Nat.pow_eq]
    push_cast
    ring
  have hright : ((x.m * Nat.pow 2 x.q.toNat * Nat.pow 10 (-exponent).toNat : Nat) : ℚ) =
      x.value * c := by
    rw [Nat.cast_mul, ← value_mul]
    push_cast [Nat.pow_eq]
    simp only [c, Nat.pow_eq]
    push_cast
    ring
  rw [gridBelow, Nat.le_div_iff_mul_le hpos, ← Nat.cast_le (α := ℚ), hleft, hright,
    mul_le_mul_iff_left₀ hc]

/-- Points of a grid ascend. -/
lemma decimalValue_le {k l : Nat} (h : k ≤ l) :
    decimalValue k exponent ≤ decimalValue l exponent :=
  mul_le_mul_of_nonneg_right (Nat.cast_le.mpr h) (by positivity)

/-- Different points of a grid are different. -/
lemma decimalValue_lt {k l : Nat} (h : k < l) :
    decimalValue k exponent < decimalValue l exponent :=
  mul_lt_mul_of_pos_right (Nat.cast_lt.mpr h) (by positivity)

/-- The point below a number is at or below it. -/
lemma gridBelow_le (x : Binary) (exponent : Int) :
    decimalValue (x.gridBelow exponent) exponent ≤ x.value :=
  le_gridBelow_iff.mp (Nat.le_refl _)

/-- The next point is above it. -/
lemma lt_gridAbove (x : Binary) (exponent : Int) :
    x.value < decimalValue (x.gridBelow exponent + 1) exponent :=
  lt_of_not_ge fun h => Nat.not_succ_le_self _ (le_gridBelow_iff.mpr h)

/-- How far a point of a grid is from a number. -/
def distance (x : Binary) (exponent : Int) (n : Nat) : ℚ := |decimalValue n exponent - x.value|

/-- The distance of a point at or below the number. -/
lemma distance_of_le {n : Nat} (h : n ≤ x.gridBelow exponent) :
    x.distance exponent n = x.value - decimalValue n exponent := by
  rw [distance, abs_sub_comm]
  exact abs_of_nonneg (sub_nonneg.mpr (le_gridBelow_iff.mp h))

/-- The distance of a point above the number. -/
lemma distance_of_gt {n : Nat} (h : x.gridBelow exponent < n) :
    x.distance exponent n = decimalValue n exponent - x.value :=
  abs_of_nonneg (sub_nonneg.mpr ((lt_gridAbove x exponent).le.trans (decimalValue_le h)))

/-- A point of a grid that rounds to a number, and is the nearest to it of those that do; if another
one is as near, it is the even one. -/
structure IsNearest (x : Binary) (exponent : Int) (n : Nat) : Prop where
  roundsTo : x.RoundsTo (decimalValue n exponent)
  le : ∀ k, x.RoundsTo (decimalValue k exponent) → x.distance exponent n ≤ x.distance exponent k
  even : ∀ k, k ≠ n → x.RoundsTo (decimalValue k exponent) →
    x.distance exponent n = x.distance exponent k → n % 2 = 0

/-- One of the two points next to a number. -/
def IsNeighbour (x : Binary) (exponent : Int) (n : Nat) : Prop :=
  n = x.gridBelow exponent ∨ n = x.gridBelow exponent + 1

/-- If a point rounds to the number, then so does the neighbour on its side, and unless it is the
point itself it is nearer. -/
lemma exists_neighbour {n : Nat} (h : x.RoundsTo (decimalValue n exponent)) :
    ∃ k, x.IsNeighbour exponent k ∧ x.RoundsTo (decimalValue k exponent) ∧
      (k = n ∨ x.distance exponent k < x.distance exponent n) := by
  rcases Nat.lt_or_ge (x.gridBelow exponent) n with hgt | hle
  · refine ⟨x.gridBelow exponent + 1, .inr rfl, ?_, ?_⟩
    · exact x.roundsTo_value.between h (lt_gridAbove x exponent).le (decimalValue_le hgt)
    · refine (Nat.eq_or_lt_of_le hgt).imp id fun hfar => ?_
      rw [distance_of_gt (Nat.lt_succ_self _), distance_of_gt hgt]
      exact sub_lt_sub_right (decimalValue_lt hfar) _
  · refine ⟨x.gridBelow exponent, .inl rfl, ?_, ?_⟩
    · exact h.between x.roundsTo_value (decimalValue_le hle) (gridBelow_le x exponent)
    · refine (Nat.eq_or_lt_of_le hle).imp Eq.symm fun hfar => ?_
      rw [distance_of_le (Nat.le_refl _), distance_of_le hle]
      exact sub_lt_sub_left (decimalValue_lt hfar) _

/-- So the nearest of the two neighbours is the nearest of all points. -/
lemma isNearest_of_neighbours {n : Nat} (h : x.RoundsTo (decimalValue n exponent))
    (hle : ∀ k, x.IsNeighbour exponent k → x.RoundsTo (decimalValue k exponent) →
      x.distance exponent n ≤ x.distance exponent k)
    (heven : ∀ k, x.IsNeighbour exponent k → k ≠ n → x.RoundsTo (decimalValue k exponent) →
      x.distance exponent n = x.distance exponent k → n % 2 = 0) :
    x.IsNearest exponent n := by
  refine ⟨h, fun k hk => ?_, fun k hne hk heq => ?_⟩
  · obtain ⟨j, hj, hround, rfl | hlt⟩ := exists_neighbour hk
    · exact hle j hj hround
    · exact (hle j hj hround).trans hlt.le
  · obtain ⟨j, hj, hround, rfl | hlt⟩ := exists_neighbour hk
    · exact heven j hj hne hround heq
    · exact absurd heq ((hle j hj hround).trans_lt hlt).ne

/-- A neighbour that rounds to the number is the nearest point if the other one, should it round to
the number as well, is farther. -/
lemma isNearest_of_lt {n : Nat} (h : x.RoundsTo (decimalValue n exponent))
    (hlt : ∀ k, x.IsNeighbour exponent k → k ≠ n → x.RoundsTo (decimalValue k exponent) →
      x.distance exponent n < x.distance exponent k) :
    x.IsNearest exponent n := by
  refine isNearest_of_neighbours h (fun k hk hround => ?_) fun k hk hne hround heq => ?_
  · rcases eq_or_ne k n with rfl | hne
    · exact le_rfl
    · exact (hlt k hk hne hround).le
  · exact absurd heq (hlt k hk hne hround).ne

/-- The number is compared with the middle between its neighbours to tell which is nearer. -/
lemma compareScaled_middle (x : Binary) (exponent : Int) :
    compareScaled (2 * x.gridBelow exponent + 1) exponent (2 * x.m) x.q =
      compare (x.distance exponent (x.gridBelow exponent + 1))
        (x.distance exponent (x.gridBelow exponent)) := by
  have hmiddle : ((2 * x.gridBelow exponent + 1 : Nat) : ℚ) * 10 ^ exponent =
      decimalValue (x.gridBelow exponent) exponent +
        decimalValue (x.gridBelow exponent + 1) exponent := by
    simp only [decimalValue]
    push_cast
    ring
  have hnumber : ((2 * x.m : Nat) : ℚ) * 2 ^ x.q = x.value + x.value := by
    rw [value]
    push_cast
    ring
  rw [compareScaled_eq, hmiddle, hnumber, distance_of_gt (Nat.lt_succ_self _),
    distance_of_le (Nat.le_refl _)]
  generalize decimalValue (x.gridBelow exponent) exponent = below
  generalize decimalValue (x.gridBelow exponent + 1) exponent = above
  rcases lt_trichotomy (below + above) (x.value + x.value) with h | h | h
  · rw [compare_lt_iff_lt.mpr h, compare_lt_iff_lt.mpr (by linarith)]
  · rw [compare_eq_iff_eq.mpr h, compare_eq_iff_eq.mpr (by linarith)]
  · rw [compare_gt_iff_gt.mpr h, compare_gt_iff_gt.mpr (by linarith)]

/-- What is found on a grid is the nearest point of those that round to the number. -/
theorem isNearest_of_nearestOnGrid? {n : Nat} (h : x.nearestOnGrid? exponent = some n) :
    x.IsNearest exponent n := by
  let below := x.gridBelow exponent
  have hnot : ∀ {k}, x.readsBack k exponent = false → ¬ x.RoundsTo (decimalValue k exponent) := by
    intro k hk
    rw [← readsBack_iff, hk]
    decide
  unfold nearestOnGrid? at h
  simp only [compareScaled_middle] at h
  cases hbelow : x.readsBack below exponent with
  | false =>
    cases habove : x.readsBack (below + 1) exponent with
    | false => simp [below, hbelow, habove] at h
    | true =>
      obtain rfl : below + 1 = n := by simpa [below, hbelow, habove] using h
      refine isNearest_of_lt (readsBack_iff.mp habove) ?_
      rintro k (rfl | rfl) hne hk
      · exact absurd hk (hnot hbelow)
      · exact absurd rfl hne
  | true =>
    cases habove : x.readsBack (below + 1) exponent with
    | false =>
      obtain rfl : below = n := by simpa [below, hbelow, habove] using h
      refine isNearest_of_lt (readsBack_iff.mp hbelow) ?_
      rintro k (rfl | rfl) hne hk
      · exact absurd rfl hne
      · exact absurd hk (hnot habove)
    | true =>
      cases hcompare : compare (x.distance exponent (below + 1)) (x.distance exponent below) with
      | gt =>
        obtain rfl : below = n := by simpa [below, hbelow, habove, hcompare] using h
        refine isNearest_of_lt (readsBack_iff.mp hbelow) ?_
        rintro k (rfl | rfl) hne -
        · exact absurd rfl hne
        · exact compare_gt_iff_gt.mp hcompare
      | lt =>
        obtain rfl : below + 1 = n := by simpa [below, hbelow, habove, hcompare] using h
        refine isNearest_of_lt (readsBack_iff.mp habove) ?_
        rintro k (rfl | rfl) hne -
        · exact compare_lt_iff_lt.mp hcompare
        · exact absurd rfl hne
      | eq =>
        obtain rfl : below + below % 2 = n := by simpa [below, hbelow, habove, hcompare] using h
        -- both neighbours round to the number and are as far, so the even one may be taken
        have hsame : ∀ k, x.IsNeighbour exponent k →
            x.RoundsTo (decimalValue k exponent) ∧
              x.distance exponent k = x.distance exponent below := by
          rintro k (rfl | rfl)
          · exact ⟨readsBack_iff.mp hbelow, rfl⟩
          · exact ⟨readsBack_iff.mp habove, compare_eq_iff_eq.mp hcompare⟩
        have hself : x.IsNeighbour exponent (below + below % 2) := by
          rcases Nat.mod_two_eq_zero_or_one below with hmod | hmod
          · exact .inl (by rw [hmod, Nat.add_zero])
          · exact .inr (by rw [hmod])
        have hparity : (below + below % 2) % 2 = 0 := by omega
        refine isNearest_of_neighbours (hsame _ hself).1 (fun k hk _ => ?_) fun _ _ _ _ _ => hparity
        rw [(hsame _ hself).2, (hsame k hk).2]

/-- If any point of a grid rounds to the number, one is found. -/
lemma nearestOnGrid?_ne_none {n : Nat} (h : x.RoundsTo (decimalValue n exponent)) :
    x.nearestOnGrid? exponent ≠ none := by
  obtain ⟨k, hk, hround, -⟩ := exists_neighbour h
  have hreads := readsBack_iff.mpr hround
  intro hnone
  unfold nearestOnGrid? at hnone
  dsimp only at hnone
  split at hnone
  · split at hnone <;> cases hnone
  · cases hnone
  · cases hnone
  · rename_i hbelow habove
    rcases hk with rfl | rfl
    · exact Bool.false_ne_true (hbelow.symm.trans hreads)
    · exact Bool.false_ne_true (habove.symm.trans hreads)

/-! ### Lengths and magnitudes -/

/-- A natural number has at most `k` digits if it is below the `k`-th power of ten. -/
lemma decimalLength_le_iff {n k : Nat} : decimalLength n ≤ k ↔ n < 10 ^ k := by
  fun_induction decimalLength n generalizing k with
  | case1 => simp
  | case2 n hn ih =>
    cases k with
    | zero => simp [hn]
    | succ k => rw [Nat.succ_le_succ_iff, ih, Nat.div_lt_iff_lt_mul (by decide), Nat.pow_succ]

/-- A natural number that is not zero lies between two powers of ten, which its digits tell. -/
lemma exists_decimalLength_eq {n : Nat} (h : n ≠ 0) :
    ∃ k, decimalLength n = k + 1 ∧ 10 ^ k ≤ n ∧ n < 10 ^ (k + 1) := by
  obtain ⟨k, hk⟩ : ∃ k, decimalLength n = k + 1 :=
    Nat.exists_eq_succ_of_ne_zero fun hzero => h <| by
      have hlt := decimalLength_le_iff.mp hzero.le
      omega
  refine ⟨k, hk, Nat.le_of_not_lt fun hlt => ?_, decimalLength_le_iff.mp hk.le⟩
  have := decimalLength_le_iff.mpr hlt
  omega

/-- A number that is not zero lies between two powers of ten, of which the magnitude tells the
upper one. -/
lemma magnitude_spec (hm : x.m ≠ 0) :
    10 ^ (x.magnitude - 1) ≤ x.value ∧ x.value < 10 ^ x.magnitude := by
  let numerator := x.m * Nat.pow 2 x.q.toNat
  let denominator := Nat.pow 2 (-x.q).toNat
  have hnumerator : 0 < numerator :=
    Nat.mul_pos (Nat.pos_of_ne_zero hm) (Nat.pow_pos (by decide))
  have hdenominator : 0 < denominator := Nat.pow_pos (by decide)
  have hpos : (0 : ℚ) < denominator := Nat.cast_pos.mpr hdenominator
  have hvalue : x.value = numerator / denominator := by
    rw [eq_div_iff hpos.ne']
    exact x.value_mul
  rw [hvalue]
  by_cases hle : denominator ≤ numerator
  · -- the number is at least one: the digits of its whole part count
    have hone : 1 ≤ numerator / denominator := (Nat.one_le_div_iff hdenominator).mpr hle
    obtain ⟨k, hk, hlower, hupper⟩ := exists_decimalLength_eq (Nat.one_le_iff_ne_zero.mp hone)
    have hmagnitude : x.magnitude = ((k + 1 : Nat) : Int) := (if_pos hle).trans (by rw [hk])
    have hbelow : x.magnitude - 1 = (k : Int) := by omega
    rw [Nat.le_div_iff_mul_le hdenominator] at hlower
    rw [Nat.div_lt_iff_lt_mul hdenominator] at hupper
    rw [hbelow, hmagnitude, zpow_natCast, zpow_natCast, le_div_iff₀ hpos, div_lt_iff₀ hpos]
    exact ⟨by exact_mod_cast hlower, by exact_mod_cast hupper⟩
  · -- the number is below one: the digits of its inverse, rounded down below it, count
    have hlt : numerator < denominator := Nat.lt_of_not_le hle
    have hone : 1 ≤ (denominator - 1) / numerator := (Nat.one_le_div_iff hnumerator).mpr (by omega)
    obtain ⟨k, hk, hlower, hupper⟩ := exists_decimalLength_eq (Nat.one_le_iff_ne_zero.mp hone)
    have hmagnitude : x.magnitude = 1 - ((k + 1 : Nat) : Int) := (if_neg hle).trans (by rw [hk])
    have hbelow : x.magnitude - 1 = -((k + 1 : Nat) : Int) := by omega
    have habove : x.magnitude = -(k : Int) := by omega
    rw [Nat.le_div_iff_mul_le hnumerator, Nat.mul_comm] at hlower
    rw [Nat.div_lt_iff_lt_mul hnumerator, Nat.mul_comm] at hupper
    rw [hbelow, habove, zpow_neg, zpow_neg, zpow_natCast, zpow_natCast, inv_eq_one_div,
      inv_eq_one_div, div_le_div_iff₀ (by positivity) hpos, div_lt_div_iff₀ hpos (by positivity),
      one_mul]
    have hupper : denominator ≤ numerator * 10 ^ (k + 1) := by omega
    have hlower : numerator * 10 ^ k < denominator := by omega
    exact ⟨by exact_mod_cast hupper, by exact_mod_cast hlower⟩

/-! ### Seventeen digits -/

/-- A number with 53 bits of significand; if the gap below it is narrow, it starts a binade. -/
structure IsDouble (x : Binary) : Prop where
  lt : x.m < 2 ^ 53
  le_of_narrowBelow : x.narrowBelow = true → x.m ≤ 2 ^ 52

/-- What the bits of a floating-point number stand for is such a number. -/
theorem isDouble_ofBits (bits : UInt64) : (ofBits bits).IsDouble := by
  have hfraction : (bits &&& 0xFFFFFFFFFFFFF).toNat < 2 ^ 52 := by
    rw [UInt64.toNat_and]
    exact Nat.and_lt_two_pow _ (by decide)
  unfold ofBits
  dsimp only
  split
  · exact ⟨Nat.lt_trans hfraction (by decide), nofun⟩
  · refine ⟨Nat.add_lt_add_left hfraction _, fun hnarrow => ?_⟩
    rw [Bool.and_eq_true, beq_iff_eq] at hnarrow
    exact Nat.le_of_eq (congrArg (0x10000000000000 + ·) hnarrow.1)

/-- The grid that shows seventeen digits of a number has a point that rounds to the number: its gaps
are narrower than what rounds to the number is wide. -/
lemma IsDouble.exists_roundsTo (hx : x.IsDouble) :
    ∃ n, x.RoundsTo (decimalValue n (x.magnitude - 17)) := by
  by_cases hm : x.m = 0
  · refine ⟨0, ?_⟩
    have hzero : x.value = 0 := by simp [value, hm]
    have hpoint : decimalValue 0 (x.magnitude - 17) = 0 := by simp [decimalValue]
    rw [hpoint, ← hzero]
    exact x.roundsTo_value
  · let gap : ℚ := 10 ^ (x.magnitude - 17)
    let quarter : ℚ := 2 ^ (x.q - 2)
    have hgap : 0 < gap := by positivity
    have hquarter : 0 < quarter := by positivity
    have hlowEq : x.low = (4 * x.m - if x.narrowBelow then 1 else 2) * quarter := low_eq hm
    have hhighEq : x.high = (4 * x.m + 2) * quarter := by
      rw [high]
      push_cast
      rfl
    have hfine : gap * 10 ^ 16 ≤ 4 * x.m * quarter := by
      have hten : gap * 10 ^ 16 = 10 ^ (x.magnitude - 1) := by
        rw [← zpow_natCast (10 : ℚ) 16, ← zpow_add₀ (by norm_num)]
        congr 1
        ring
      rw [hten]
      exact (magnitude_spec hm).1.trans x.value_eq.le
    have hwide : x.low + gap < x.high := by
      rw [hlowEq, hhighEq]
      split
      · have hnarrow : (x.m : ℚ) ≤ 2 ^ 52 := by exact_mod_cast hx.le_of_narrowBelow ‹_›
        have hbound := mul_le_mul_of_nonneg_right hnarrow hquarter.le
        linarith
      · have hlt : (x.m : ℚ) < 2 ^ 53 := by exact_mod_cast hx.lt
        have hbound := mul_lt_mul_of_pos_right hlt hquarter
        linarith
    have hlow : 0 ≤ x.low / gap := by
      rw [low]
      positivity
    refine ⟨⌊x.low / gap⌋₊ + 1, roundsTo_of_lt ?_ ?_⟩
    · rw [decimalValue, ← div_lt_iff₀ hgap]
      push_cast
      exact Nat.lt_floor_add_one _
    · have hfloor : ⌊x.low / gap⌋₊ * gap ≤ x.low := (le_div_iff₀ hgap).mp (Nat.floor_le hlow)
      have hpoint : decimalValue (⌊x.low / gap⌋₊ + 1) (x.magnitude - 17) =
          ⌊x.low / gap⌋₊ * gap + gap := by
        rw [decimalValue]
        push_cast
        ring
      rw [hpoint]
      linarith

/-! ### The shortest decimal -/

/-- The first of successive numbers for which there is a value. -/
lemma exists_of_findSome?_range' {α : Type} {f : Nat → Option α} {start count : Nat} {a : α}
    (h : (List.range' start count).findSome? f = some a) :
    ∃ n, start ≤ n ∧ f n = some a ∧ ∀ k, start ≤ k → k < n → f k = none := by
  induction count generalizing start with
  | zero => cases h
  | succ count ih =>
    rw [List.range'_succ, List.findSome?_cons] at h
    cases hf : f start with
    | some b =>
      rw [hf] at h
      exact ⟨start, Nat.le_refl _, hf.trans h, fun k hle hlt => absurd hle (Nat.not_le_of_lt hlt)⟩
    | none =>
      rw [hf] at h
      obtain ⟨n, hn, hfn, hfirst⟩ := ih h
      refine ⟨n, Nat.le_of_succ_le hn, hfn, fun k hle hlt => ?_⟩
      rcases Nat.eq_or_lt_of_le hle with rfl | hle
      · exact hf
      · exact hfirst k hle hlt

/-- The digits of the shortest decimal are found on the first grid that has a point that rounds to
the number. -/
lemma IsDouble.exists_first_grid (hx : x.IsDouble) :
    ∃ n digits, 1 ≤ n ∧ x.nearestOnGrid? (x.magnitude - (n : Nat)) = some digits ∧
      (∀ k, 1 ≤ k → k < n → x.nearestOnGrid? (x.magnitude - (k : Nat)) = none) ∧
      x.shortest = dropZeros digits (x.magnitude - n) := by
  cases hfound : (List.range' 1 17).findSome? fun (n : Nat) =>
      (x.nearestOnGrid? (x.magnitude - n)).map fun digits => (digits, x.magnitude - (n : Int)) with
  | none =>
    obtain ⟨k, hk⟩ := hx.exists_roundsTo
    have hnone := List.findSome?_eq_none_iff.mp hfound 17 (by decide)
    exact absurd (Option.map_eq_none_iff.mp hnone) (nearestOnGrid?_ne_none hk)
  | some found =>
    obtain ⟨n, hn, hgrid, hfirst⟩ := exists_of_findSome?_range' hfound
    obtain ⟨digits, hdigits, rfl⟩ := Option.map_eq_some_iff.mp hgrid
    refine ⟨n, digits, hn, hdigits, fun k hk hlt => Option.map_eq_none_iff.mp (hfirst k hk hlt), ?_⟩
    rw [shortest]
    simp only [hfound]
    rfl

/-- Moving trailing zeros into the exponent leaves the value as it is. -/
lemma decimalValue_dropZeros (digits : Nat) (exponent : Int) :
    decimalValue (dropZeros digits exponent).1 (dropZeros digits exponent).2 =
      decimalValue digits exponent := by
  fun_induction dropZeros digits exponent with
  | case1 => simp [decimalValue]
  | case2 digits exponent hne hzero ih =>
    have hdigits : digits = digits / 10 * 10 := by omega
    have hcast : (digits : ℚ) = (digits / 10 : Nat) * 10 := by exact_mod_cast hdigits
    rw [ih, decimalValue, decimalValue, hcast, zpow_add_one₀ (by norm_num)]
    ring
  | case3 => rfl

/-- A decimal that shows at most `n` digits, or the next power of ten, has at most `n` digits
without its trailing zeros. -/
lemma decimalLength_dropZeros_le {digits n : Nat} (exponent : Int) (hn : 1 ≤ n)
    (h : digits ≤ 10 ^ n) : decimalLength (dropZeros digits exponent).1 ≤ n := by
  fun_induction dropZeros digits exponent generalizing n with
  | case1 => simp [decimalLength]
  | case2 digits exponent hne hzero ih =>
    obtain ⟨k, rfl⟩ : ∃ k, n = k + 1 := ⟨n - 1, by omega⟩
    rw [Nat.pow_succ] at h
    cases k with
    | zero => exact ih (Nat.le_refl _) (by omega)
    | succ k => exact Nat.le_succ_of_le (ih (Nat.succ_pos k) (by omega))
  | case3 digits exponent hne htrailing =>
    obtain ⟨k, rfl⟩ : ∃ k, n = k + 1 := ⟨n - 1, by omega⟩
    have hne : digits ≠ 10 ^ (k + 1) := by
      rw [Nat.pow_succ]
      omega
    exact decimalLength_le_iff.mpr (Nat.lt_of_le_of_ne h hne)

/-- Next to a decimal of `k` digits that rounds to a number there is a point of the grid of `k`
digits that does, and that is as near or nearer. -/
lemma exists_grid_point (hm : x.m ≠ 0) {digits k : Nat} (hk : 1 ≤ k) (hdigits : digits < 10 ^ k)
    (h : x.RoundsTo (decimalValue digits exponent)) :
    ∃ n, x.RoundsTo (decimalValue n (x.magnitude - k)) ∧
      x.distance (x.magnitude - k) n ≤ |decimalValue digits exponent - x.value| := by
  rcases Int.lt_or_le exponent (x.magnitude - k) with hfiner | hcoarser
  · -- the decimal lies below the power of ten at which the numbers of this magnitude start
    have hpoint : decimalValue (10 ^ (k - 1)) (x.magnitude - k) = 10 ^ (x.magnitude - 1) := by
      rw [decimalValue_pow]
      congr 1
      omega
    have hbelow : decimalValue digits exponent ≤ 10 ^ (x.magnitude - 1) := by
      have hlt : decimalValue digits exponent < decimalValue (10 ^ k) exponent :=
        decimalValue_lt hdigits
      have hle : (10 : ℚ) ^ (k + exponent) ≤ 10 ^ (x.magnitude - 1) :=
        zpow_le_zpow_right₀ (by norm_num) (by omega)
      rw [decimalValue_pow] at hlt
      exact hlt.le.trans hle
    have habove := (magnitude_spec hm).1
    refine ⟨10 ^ (k - 1), ?_, ?_⟩
    · rw [hpoint]
      exact h.between x.roundsTo_value hbelow habove
    · rw [distance, hpoint, abs_sub_comm, abs_of_nonneg (sub_nonneg.mpr habove), abs_sub_comm,
        abs_of_nonneg (sub_nonneg.mpr (hbelow.trans habove))]
      exact sub_le_sub_left hbelow _
  · -- the decimal lies on the grid
    let shift := (exponent - (x.magnitude - k)).toNat
    have hpoint : decimalValue (digits * 10 ^ shift) (x.magnitude - k) =
        decimalValue digits exponent := by
      rw [decimalValue_mul_pow]
      congr 1
      omega
    refine ⟨digits * 10 ^ shift, ?_, ?_⟩
    · rwa [hpoint]
    · rw [distance, hpoint]

/-- Zero rounds to no other number. -/
lemma ne_zero_of_roundsTo (hm : x.m ≠ 0) {digits : Nat}
    (h : x.RoundsTo (decimalValue digits exponent)) : digits ≠ 0 := by
  have hpos : 0 < x.low := by
    have hle : (1 : ℚ) ≤ x.m := by exact_mod_cast Nat.one_le_iff_ne_zero.mpr hm
    rw [low_eq hm]
    refine mul_pos ?_ (by positivity)
    split <;> linarith
  have hle : x.low ≤ decimalValue digits exponent := by
    unfold RoundsTo at h
    split at h
    · exact h.1
    · exact h.1.le
  rintro rfl
  rw [decimalValue, Nat.cast_zero, zero_mul] at hle
  exact absurd hpos hle.not_gt

/-- The nearest point is one of the two next to the number. -/
lemma IsNearest.isNeighbour {n : Nat} (h : x.IsNearest exponent n) : x.IsNeighbour exponent n := by
  obtain ⟨k, hk, hround, rfl | hlt⟩ := exists_neighbour h.roundsTo
  · exact hk
  · exact absurd hlt (h.le k hround).not_gt

/-- On the grid of `n` digits the nearest point has no more digits, or is the next power of ten. -/
lemma IsNearest.le_pow (hm : x.m ≠ 0) {n digits : Nat}
    (h : x.IsNearest (x.magnitude - n) digits) : digits ≤ 10 ^ n := by
  have hbelow : x.gridBelow (x.magnitude - n) < 10 ^ n := by
    refine Nat.lt_of_not_le fun hle => ?_
    have hvalue := le_gridBelow_iff.mp hle
    rw [decimalValue_pow, add_sub_cancel] at hvalue
    exact absurd (magnitude_spec hm).2 hvalue.not_gt
  rcases h.isNeighbour with rfl | rfl
  · exact hbelow.le
  · exact hbelow

/-- The shortest decimal reads back.  No decimal that reads back has fewer digits, and of those with
as many digits none is nearer to the number. -/
theorem shortest_spec (hx : x.IsDouble) :
    x.RoundsTo (decimalValue x.shortest.1 x.shortest.2) ∧
    ∀ (digits : Nat) (exponent : Int), x.RoundsTo (decimalValue digits exponent) →
      decimalLength x.shortest.1 ≤ decimalLength digits ∧
      (decimalLength digits = decimalLength x.shortest.1 →
        |decimalValue x.shortest.1 x.shortest.2 - x.value| ≤
          |decimalValue digits exponent - x.value|) := by
  obtain ⟨n, found, hn, hgrid, hfirst, hshortest⟩ := hx.exists_first_grid
  have hnearest := isNearest_of_nearestOnGrid? hgrid
  rw [hshortest, decimalValue_dropZeros]
  refine ⟨hnearest.roundsTo, fun digits exponent hround => ?_⟩
  by_cases hm : x.m = 0
  · -- the number is zero, which every grid has as a point
    have hvalue : x.value = 0 := by simp [value, hm]
    have hpoint : decimalValue 0 (x.magnitude - n) = 0 := by simp [decimalValue]
    have hzero := hnearest.le 0 (by rw [hpoint, ← hvalue]; exact x.roundsTo_value)
    rw [distance, distance, hpoint, hvalue, sub_zero, sub_zero, abs_zero] at hzero
    have hfound : found = 0 := by
      have habs : decimalValue found (x.magnitude - n) = 0 :=
        abs_eq_zero.mp (le_antisymm hzero (abs_nonneg _))
      refine Nat.eq_zero_of_not_pos fun hpos => ?_
      have hlt : decimalValue 0 (x.magnitude - n) < decimalValue found (x.magnitude - n) :=
        decimalValue_lt hpos
      rw [hpoint, habs] at hlt
      exact absurd hlt (lt_irrefl _)
    have hdrop : dropZeros 0 (x.magnitude - n) = (0, 0) := by rw [dropZeros, if_pos rfl]
    rw [hvalue, sub_zero, hfound, hpoint, abs_zero, hdrop]
    exact ⟨decimalLength_le_iff.mpr (Nat.pow_pos (by decide)), fun _ => abs_nonneg _⟩
  · have hdigits := ne_zero_of_roundsTo hm hround
    obtain ⟨k, hlength, -, hlt⟩ := exists_decimalLength_eq hdigits
    obtain ⟨j, hj, hnear⟩ := exists_grid_point hm (Nat.succ_pos k) hlt hround
    have hle : n ≤ k + 1 := by
      refine Nat.le_of_not_lt fun h => ?_
      exact nearestOnGrid?_ne_none hj (hfirst (k + 1) (Nat.succ_pos k) h)
    have hshort := decimalLength_dropZeros_le (x.magnitude - n) hn (hnearest.le_pow hm)
    rw [hlength]
    refine ⟨hshort.trans hle, fun heq => ?_⟩
    obtain rfl : n = k + 1 := Nat.le_antisymm hle (heq.trans_le hshort)
    exact (hnearest.le j hj).trans hnear

end Binary

/-- The decimal of a floating-point number reads back to it; no decimal that does has fewer digits,
and of those with as many digits none is nearer. -/
theorem Decimal.ofFloat_spec (f : Float) :
    let x := Binary.ofBits f.toBits
    let d := Decimal.ofFloat f
    x.RoundsTo (decimalValue d.digits d.exponent) ∧
    ∀ (digits : Nat) (exponent : Int), x.RoundsTo (decimalValue digits exponent) →
      Binary.decimalLength d.digits ≤ Binary.decimalLength digits ∧
      (Binary.decimalLength digits = Binary.decimalLength d.digits →
        |decimalValue d.digits d.exponent - x.value| ≤ |decimalValue digits exponent - x.value|) :=
  Binary.shortest_spec (Binary.isDouble_ofBits f.toBits)

end HookLabel
