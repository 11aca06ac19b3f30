import ChartParsing.Decimal.Shortest
import Mathlib.Algebra.Order.Field.Power
import Mathlib.Data.Rat.Cast.Order
import Mathlib.Tactic.Linarith
import Mathlib.Tactic.Positivity
import Mathlib.Tactic.Ring

/-!
# Neighbourhoods of floating-point numbers

The intervals around two numbers have nothing in common: they meet in the middle, and of two neighbours only
one has an even significand.  So a decimal of a number's interval is the decimal of that number only.

* **`Neighbourhood.eq_of_contains`**: a rational number lies in one interval at most.
* **`shortest_contains`**: the digits that are searched for are found, and are in the interval.
* **`shortest_injective`**: different numbers have digits of different values.
-/

namespace ChartParsing.Decimal

/-- The number that digits stand for. -/
def Digits.value (d : Digits) : ℚ := d.digits * 10 ^ d.power

/-- A significand of 53 bits, or of less at the least power. -/
structure Canonical (significand : Nat) (power : Int) : Prop where
  bound : significand < 2 ^ 53
  least : -1074 ≤ power
  greatest : power ≤ 971
  full : power ≠ -1074 → 2 ^ 52 ≤ significand

namespace Neighbourhood

variable {m m' : Nat} {p p' : Int} {x : ℚ} {n : Neighbourhood} {tie : Tie}

/-- The interval has the number. -/
def Contains (n : Neighbourhood) (x : ℚ) : Prop :=
  if n.closed then n.low * 2 ^ n.power ≤ x ∧ x ≤ n.high * 2 ^ n.power
  else n.low * 2 ^ n.power < x ∧ x < n.high * 2 ^ n.power

theorem Contains.le (h : n.Contains x) : n.low * 2 ^ n.power ≤ x ∧ x ≤ n.high * 2 ^ n.power := by
  unfold Contains at h
  split at h
  · exact h
  · exact ⟨h.1.le, h.2.le⟩

/-- Only a closed interval has its ends. -/
theorem Contains.closed (h : n.Contains x)
    (hend : x = n.low * 2 ^ n.power ∨ x = n.high * 2 ^ n.power) : n.closed = true := by
  unfold Contains at h
  split at h
  · assumption
  · rcases hend with rfl | rfl
    · exact absurd h.1 (lt_irrefl _)
    · exact absurd h.2 (lt_irrefl _)

/-! ### One number for a decimal -/

theorem even_of_closed (h : (around m p).closed = true) : m % 2 = 0 := of_decide_eq_true h

theorem four_mul_sub_two_le_low (m : Nat) (p : Int) : 4 * m - 2 ≤ (around m p).low := by
  show 4 * m - 2 ≤ 4 * m - ite _ 1 2
  split <;> omega

/-- Of two numbers with one power the smaller one's interval ends where that of the other one begins. -/
theorem not_contains_of_lt (h : (around m p).Contains x) (hm : m < m') :
    ¬ (around m' p).Contains x := by
  intro h'
  have hpos : (0 : ℚ) < 2 ^ (p - 2) := by positivity
  have hlow : ((4 * m' - 2 : Nat) : ℚ) ≤ (around m' p).low := by
    exact_mod_cast four_mul_sub_two_le_low m' p
  have hle : x ≤ (4 * m + 2 : Nat) * 2 ^ (p - 2) := h.le.2
  have hge : (around m' p).low * 2 ^ (p - 2) ≤ x := h'.le.1
  have hends : ((around m' p).low : ℚ) ≤ (4 * m + 2 : Nat) :=
    le_of_mul_le_mul_right (hge.trans hle) hpos
  have heq : (around m' p).low = 4 * m + 2 ∧ m' = m + 1 := by
    have hnat : (around m' p).low ≤ 4 * m + 2 := by exact_mod_cast hends
    have hnat' := four_mul_sub_two_le_low m' p
    omega
  have hx : x = (4 * m + 2 : Nat) * 2 ^ (p - 2) := le_antisymm hle (heq.1 ▸ hge)
  have heven := even_of_closed (h.closed (.inr hx))
  have heven' := even_of_closed (h'.closed (.inl (by rw [heq.1]; exact hx)))
  omega

/-- Of two numbers with different powers the one with the smaller power has the smaller interval. -/
theorem not_contains_of_power_lt (hc : Canonical m p) (hc' : Canonical m' p')
    (h : (around m p).Contains x) (hp : p < p') : ¬ (around m' p').Contains x := by
  intro h'
  have hleast := hc.least
  have hfull := hc'.full (by omega)
  have hpos : (0 : ℚ) < 2 ^ (p - 2) := by positivity
  have hdouble : (2 : ℚ) * 2 ^ (p - 2) ≤ 2 ^ (p' - 2) := by
    rw [← zpow_one_add₀ (by norm_num)]
    exact zpow_le_zpow_right₀ (by norm_num) (by omega)
  -- the interval begins half a unit below a power of two, or farther up
  have hlow : ((2 ^ 54 - 1 : Nat) : ℚ) ≤ (around m' p').low := by
    have hnat : 2 ^ 54 - 1 ≤ (around m' p').low := by
      have hhalf : pow2 52 = 2 ^ 52 := rfl
      show _ ≤ 4 * m' - ite (m' = pow2 52 ∧ p' ≠ -1074) 1 2
      split <;> omega
    exact_mod_cast hnat
  have hle : x ≤ (4 * m + 2 : Nat) * 2 ^ (p - 2) := h.le.2
  have hge : (2 ^ 55 - 2 : Nat) * 2 ^ (p - 2) ≤ x := by
    calc ((2 ^ 55 - 2 : Nat) : ℚ) * 2 ^ (p - 2)
        = (2 ^ 54 - 1 : Nat) * (2 * 2 ^ (p - 2)) := by push_cast; ring
      _ ≤ (2 ^ 54 - 1 : Nat) * 2 ^ (p' - 2) := by gcongr
      _ ≤ (around m' p').low * 2 ^ (p' - 2) := by gcongr
      _ ≤ x := h'.le.1
  have heq : m = 2 ^ 53 - 1 := by
    have hends : ((2 ^ 55 - 2 : Nat) : ℚ) ≤ (4 * m + 2 : Nat) :=
      le_of_mul_le_mul_right (hge.trans hle) hpos
    have hnat : 2 ^ 55 - 2 ≤ 4 * m + 2 := by exact_mod_cast hends
    have hbound := hc.bound
    omega
  have hx : x = (4 * m + 2 : Nat) * 2 ^ (p - 2) := le_antisymm hle (by rw [heq]; exact hge)
  have heven := even_of_closed (h.closed (.inr hx))
  omega

/-- **A rational number lies in one interval at most.** -/
theorem eq_of_contains (hc : Canonical m p) (hc' : Canonical m' p') (h : (around m p).Contains x)
    (h' : (around m' p').Contains x) : m = m' ∧ p = p' := by
  rcases lt_trichotomy p p' with hp | rfl | hp
  · exact absurd h' (not_contains_of_power_lt hc hc' h hp)
  · rcases lt_trichotomy m m' with hm | rfl | hm
    · exact absurd h' (not_contains_of_lt h hm)
    · exact ⟨rfl, rfl⟩
    · exact absurd h (not_contains_of_lt h' hm)
  · exact absurd h (not_contains_of_power_lt hc' hc h' hp)

/-! ### Grids -/

theorem pow_toNat_eq {a : ℚ} (ha : a ≠ 0) (z : Int) :
    a ^ z.toNat = a ^ (-z).toNat * a ^ z := by
  rw [← zpow_natCast, ← zpow_natCast, ← zpow_add₀ ha]
  congr 1
  omega

/-- One scale makes natural numbers of an interval and of a grid. -/
theorem exists_scale (n : Neighbourhood) (power : Int) : ∃ k : ℚ, 0 < k ∧
    (pow2 n.power.toNat * pow10 (-power).toNat : Nat) = k * 2 ^ n.power ∧
      (pow10 power.toNat * pow2 (-n.power).toNat : Nat) = k * 10 ^ power := by
  refine ⟨2 ^ (-n.power).toNat * 10 ^ (-power).toNat, by positivity, ?_, ?_⟩
  · have htwo := pow_toNat_eq (a := 2) (by norm_num) n.power
    show ((2 ^ n.power.toNat * 10 ^ (-power).toNat : Nat) : ℚ) = _
    push_cast
    rw [htwo]
    ring
  · have hten := pow_toNat_eq (a := 10) (by norm_num) power
    show ((10 ^ power.toNat * 2 ^ (-n.power).toNat : Nat) : ℚ) = _
    push_cast
    rw [hten]
    ring

/-- What a point of a grid is asked for, in the units of both. -/
def Fits (n : Neighbourhood) (unit step c : Nat) : Prop :=
  if n.closed then n.low * unit ≤ c * step ∧ c * step ≤ n.high * unit
  else n.low * unit < c * step ∧ c * step < n.high * unit

theorem scaled_le_iff {k y z : ℚ} {u v : Nat} (hk : 0 < k) (hu : (u : ℚ) = k * y)
    (hv : (v : ℚ) = k * z) (a b : Nat) : a * u ≤ b * v ↔ (a : ℚ) * y ≤ b * z := by
  rw [← Nat.cast_le (α := ℚ), Nat.cast_mul, Nat.cast_mul, hu, hv, mul_left_comm,
    mul_left_comm (b : ℚ)]
  exact mul_le_mul_iff_right₀ hk

theorem fits_iff {k : ℚ} {unit step : Nat} {power : Int} (hk : 0 < k)
    (hunit : (unit : ℚ) = k * 2 ^ n.power) (hstep : (step : ℚ) = k * 10 ^ power) (c : Nat) :
    n.Fits unit step c ↔ n.Contains (Digits.value ⟨c, power⟩) := by
  have hlow := scaled_le_iff hk hunit hstep n.low c
  have hhigh := scaled_le_iff hk hstep hunit c n.high
  have hlow' := scaled_le_iff hk hstep hunit c n.low
  have hhigh' := scaled_le_iff hk hunit hstep n.high c
  unfold Fits Contains
  split
  · exact and_congr hlow hhigh
  · rw [← not_le, ← not_le, hlow', hhigh', not_le, not_le]
    rfl

theorem fits_decide (n : Neighbourhood) (unit step c : Nat) : (if n.closed then
    decide (n.low * unit ≤ c * step ∧ c * step ≤ n.high * unit)
      else decide (n.low * unit < c * step ∧ c * step < n.high * unit)) = true ↔
        n.Fits unit step c := by
  unfold Fits
  split <;> exact decide_eq_true_iff

/-- A point that is found on a grid fits. -/
theorem fits_of_onGrid? {power : Int} {d : Digits} (h : n.onGrid? tie power = some d) :
    d.power = power ∧ n.Fits (pow2 n.power.toNat * pow10 (-power).toNat)
      (pow10 power.toNat * pow2 (-n.power).toNat) d.digits := by
  unfold onGrid? at h
  extract_lets unit step fits below under above at h
  have hfits (c : Nat) (hc : fits c = true) : n.Fits unit step c := (fits_decide n unit step c).1 hc
  split at h
  · next hbelow =>
    split at h
    · next habove =>
      split at h
      · exact Option.some.inj h ▸ ⟨rfl, hfits _ hbelow.2⟩
      · split at h
        · exact Option.some.inj h ▸ ⟨rfl, hfits _ habove⟩
        · split at h
          · exact Option.some.inj h ▸ ⟨rfl, hfits _ hbelow.2⟩
          · exact Option.some.inj h ▸ ⟨rfl, hfits _ habove⟩
    · exact Option.some.inj h ▸ ⟨rfl, hfits _ hbelow.2⟩
  · split at h
    · next habove => exact Option.some.inj h ▸ ⟨rfl, hfits _ habove⟩
    · simp at h

theorem onGrid?_contains {power : Int} {d : Digits} (h : n.onGrid? tie power = some d) :
    n.Contains d.value := by
  obtain ⟨hpower, hfits⟩ := fits_of_onGrid? h
  obtain ⟨k, hk, hunit, hstep⟩ := exists_scale n power
  obtain ⟨c, e⟩ := d
  obtain rfl : e = power := hpower
  exact (fits_iff hk hunit hstep c).1 hfits

/-- A grid that is no coarser than the unit has a point: the one below the number. -/
theorem onGrid?_ne_none {power : Int} (hlow : n.low < n.value) (hhigh : n.value < n.high)
    (hfine : (10 : ℚ) ^ power ≤ 2 ^ n.power) : n.onGrid? tie power ≠ none := by
  obtain ⟨k, hk, hunit, hstep⟩ := exists_scale n power
  have hpos : 0 < pow10 power.toNat * pow2 (-n.power).toNat :=
    Nat.mul_pos (Nat.pow_pos (by decide)) (Nat.pow_pos (by decide))
  unfold onGrid?
  extract_lets unit step fits below under above
  have hle : step ≤ unit := by
    have hscaled := (scaled_le_iff hk hstep hunit 1 1).2 (by simpa using hfine)
    simpa using hscaled
  have hdiv : below * step ≤ n.value * unit := Nat.div_mul_le_self _ _
  have hrest : n.value * unit < below * step + step := Nat.lt_div_mul_add hpos
  have hlow' : n.low * unit + unit ≤ n.value * unit := by
    rw [← Nat.succ_mul]
    exact Nat.mul_le_mul_right unit hlow
  have hhigh' : n.value * unit < n.high * unit :=
    Nat.mul_lt_mul_of_pos_right hhigh (Nat.lt_of_lt_of_le hpos hle)
  have hfits : fits below = true := by
    refine (fits_decide n unit step below).2 ?_
    unfold Fits
    split
    · exact ⟨by omega, by omega⟩
    · exact ⟨by omega, by omega⟩
  have hne : below ≠ 0 := by
    intro hzero
    have hbelow : below * step = 0 := by rw [hzero, Nat.zero_mul]
    omega
  rw [if_pos ⟨hne, hfits⟩]
  split
  · split
    · simp
    · split
      · simp
      · split <;> simp
  · simp

end Neighbourhood

/-! ### Searching -/

/-- Dropping zeros makes no difference. -/
theorem Digits.value_trim (steps : Nat) (d : Digits) : (d.trim steps).value = d.value := by
  induction steps generalizing d with
  | zero => rfl
  | succ steps ih =>
      unfold Digits.trim
      split
      · next hzero =>
          rw [ih]
          have hdigits : (d.digits : ℚ) = (d.digits / 10 : Nat) * 10 := by
            have hnat : d.digits = d.digits / 10 * 10 := by omega
            exact_mod_cast hnat
          unfold Digits.value
          dsimp only
          rw [hdigits, zpow_add_one₀ (by norm_num), mul_assoc, mul_comm (10 : ℚ)]
      · rfl

/-- If the last grid is fine enough, the search finds something. -/
theorem Neighbourhood.search_contains {tie : Tie} {n : Neighbourhood} (hlow : n.low < n.value)
    (hhigh : n.value < n.high) (steps : Nat) (power : Int)
    (hfine : (10 : ℚ) ^ (power - steps) ≤ 2 ^ n.power) :
    n.Contains (n.search tie (steps + 1) power).value := by
  induction steps generalizing power with
  | zero =>
      have hfound : n.onGrid? tie power ≠ none := onGrid?_ne_none hlow hhigh (by simpa using hfine)
      obtain ⟨d, hd⟩ := Option.ne_none_iff_exists'.1 hfound
      unfold Neighbourhood.search
      rw [hd]
      exact onGrid?_contains hd
  | succ steps ih =>
      unfold Neighbourhood.search
      cases hd : n.onGrid? tie power with
      | some d => exact onGrid?_contains hd
      | none =>
          refine ih (power - 1) ?_
          have hsame : power - 1 - (steps : Int) = power - (steps + 1 : Nat) := by push_cast; ring
          rwa [hsame]

/-- Three powers of ten are no more than ten powers of two, and 28 no less than 93. -/
theorem ten_zpow_le_two_zpow {e b : Int} (h : 10 * e ≤ 3 * b) (h' : 93 * e ≤ 28 * b) :
    (10 : ℚ) ^ e ≤ 2 ^ b := by
  rcases Int.le_total 0 e with he | he
  · refine le_of_pow_le_pow_left₀ (n := 3) (by norm_num) (by positivity) ?_
    calc ((10 : ℚ) ^ e) ^ 3 = (10 ^ 3) ^ e := by rw [← zpow_natCast, zpow_comm, zpow_natCast]
      _ ≤ (2 ^ 10) ^ e := zpow_le_zpow_left₀ he (by norm_num) (by norm_num)
      _ = 2 ^ (10 * e) := by rw [← zpow_natCast, ← zpow_mul]; rfl
      _ ≤ 2 ^ (3 * b) := zpow_le_zpow_right₀ (by norm_num) h
      _ = (2 ^ b) ^ 3 := by rw [← zpow_natCast, ← zpow_mul, mul_comm]; rfl
  · obtain ⟨n, rfl⟩ := Int.exists_eq_neg_ofNat he
    refine le_of_pow_le_pow_left₀ (n := 28) (by norm_num) (by positivity) ?_
    calc ((10 : ℚ) ^ (-n : Int)) ^ 28 = ((10 ^ 28) ^ n)⁻¹ := by
          rw [zpow_neg, zpow_natCast, inv_pow, ← pow_mul, ← pow_mul, mul_comm]
      _ ≤ ((2 ^ 93) ^ n)⁻¹ := by
          refine inv_anti₀ (by positivity) ?_
          gcongr
          norm_num
      _ = 2 ^ (93 * (-n : Int)) := by
          rw [← pow_mul, ← zpow_natCast, ← zpow_neg]
          congr 1
          push_cast
          ring
      _ ≤ 2 ^ (28 * b) := zpow_le_zpow_right₀ (by norm_num) h'
      _ = (2 ^ b) ^ 28 := by rw [← zpow_natCast, ← zpow_mul, mul_comm]; rfl

/-! ### The shortest digits -/

variable {m m' : Nat} {p p' : Int}

theorem Neighbourhood.around_low_lt (hm : m ≠ 0) (p : Int) :
    (Neighbourhood.around m p).low < (Neighbourhood.around m p).value := by
  show 4 * m - ite _ 1 2 < 4 * m
  split <;> omega

/-- **The digits that are found** lie in the interval of the number. -/
theorem shortest_contains (tie : Tie) (hm : m ≠ 0) (hc : Canonical m p) :
    (Neighbourhood.around m p).Contains (shortest tie m p).value := by
  have hlog : m.log2 < 53 := (Nat.log2_lt hm).2 hc.bound
  have hleast := hc.least
  have hgreatest := hc.greatest
  unfold shortest
  dsimp only
  rw [Digits.value_trim]
  refine Neighbourhood.search_contains (Neighbourhood.around_low_lt hm p)
    (Nat.lt_add_of_pos_right (by decide)) 23 _ ?_
  refine ten_zpow_le_two_zpow ?_ ?_
  · show _ ≤ 3 * (p - 2)
    push_cast
    omega
  · show _ ≤ 28 * (p - 2)
    push_cast
    omega

theorem shortest_pos (tie : Tie) (hm : m ≠ 0) (hc : Canonical m p) :
    0 < (shortest tie m p).value := by
  have hlow : (0 : ℚ) < (Neighbourhood.around m p).low := by
    have hnat := Neighbourhood.four_mul_sub_two_le_low m p
    exact_mod_cast (show 0 < (Neighbourhood.around m p).low by omega)
  have hpos : (0 : ℚ) < 2 ^ (p - 2) := by positivity
  exact lt_of_lt_of_le (mul_pos hlow hpos) (shortest_contains tie hm hc).le.1

/-- **Different numbers have digits of different values.** -/
theorem shortest_injective {tie tie' : Tie} (hm : m ≠ 0) (hm' : m' ≠ 0) (hc : Canonical m p)
    (hc' : Canonical m' p') (h : (shortest tie m p).value = (shortest tie' m' p').value) :
    m = m' ∧ p = p' :=
  Neighbourhood.eq_of_contains hc hc' (shortest_contains tie hm hc)
    (h ▸ shortest_contains tie' hm' hc')

end ChartParsing.Decimal
