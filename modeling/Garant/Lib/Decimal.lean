import Mathlib
/-!
# Decimal arithmetic with a bounded context

A decimal number is a rational. `IsGrid d` says that it has at most `d`
fractional digits. Arithmetic in a context of `p` significant digits rounds
every exact result half to even (`ctx`), `quantize` rounds to `d` fractional
digits and fails when the result needs more than `p` digits, and a fixed-point
column (`Numeric`) stores `s` fractional digits out of `p`, rounds half away
from zero, and refuses what does not fit.

The rule the rest uses is that numbers on a grid come through unchanged: if
the exact result has `s` fractional digits and the column accepted it, then
the column holds the exact result (`Numeric.val_of_ctx`).
-/

namespace Decimal

/-! ## Rounding to an integer -/

/-- The nearest integer, ties to the even neighbour. -/
def roundHalfEven (x : ℚ) : ℤ :=
  if x - ⌊x⌋ < 1 / 2 then ⌊x⌋
  else if 1 / 2 < x - ⌊x⌋ then ⌊x⌋ + 1
  else if 2 ∣ ⌊x⌋ then ⌊x⌋ else ⌊x⌋ + 1

/-- The nearest integer, ties away from zero. -/
def roundHalfAway (x : ℚ) : ℤ :=
  if 0 ≤ x then ⌊x + 1 / 2⌋ else -⌊-x + 1 / 2⌋

theorem abs_sub_roundHalfEven_le (x : ℚ) : |x - roundHalfEven x| ≤ 1 / 2 := by
  have h0 := Int.floor_le x
  have h1 := Int.lt_floor_add_one x
  unfold roundHalfEven
  split_ifs <;> push_cast <;> rw [abs_le] <;> constructor <;> linarith

@[simp] theorem roundHalfEven_intCast (n : ℤ) : roundHalfEven n = n := by
  simp [roundHalfEven]

@[simp] theorem roundHalfEven_zero : roundHalfEven 0 = 0 := by
  simpa using roundHalfEven_intCast 0

/-- An even integer takes everything within half a unit of it, ties included. -/
theorem roundHalfEven_of_even {x : ℚ} {c : ℤ} (hc : 2 ∣ c) (h : |x - c| ≤ 1 / 2) : roundHalfEven x = c := by
  obtain ⟨hl, hu⟩ := abs_le.1 h
  have hf : ⌊x⌋ = c ∨ ⌊x⌋ = c - 1 := by
    have h0 : c - 1 ≤ ⌊x⌋ := Int.le_floor.2 (by push_cast; linarith)
    have h1 : ⌊x⌋ < c + 1 := Int.floor_lt.2 (by push_cast; linarith)
    omega
  unfold roundHalfEven
  rcases hf with hf | hf <;> rw [hf] <;> push_cast
  · rw [if_neg (not_lt.2 hu), if_pos hc, ite_self]
  · have hodd : ¬ 2 ∣ c - 1 := by omega
    rw [if_neg (by linarith), if_neg hodd]
    simp

/-- Rounding never crosses an integer. -/
theorem roundHalfEven_le_of_le {x : ℚ} {n : ℤ} (h : x ≤ n) : roundHalfEven x ≤ n := by
  have hd := (abs_le.1 (abs_sub_roundHalfEven_le x)).1
  rcases h.lt_or_eq with hlt | rfl
  · have : (roundHalfEven x : ℚ) < n + 1 := by linarith
    exact Int.lt_add_one_iff.1 (by exact_mod_cast this)
  · simp

theorem le_roundHalfEven_of_le {x : ℚ} {n : ℤ} (h : (n : ℚ) ≤ x) : n ≤ roundHalfEven x := by
  have hd := (abs_le.1 (abs_sub_roundHalfEven_le x)).2
  rcases h.lt_or_eq with hlt | rfl
  · have : (n : ℚ) - 1 < roundHalfEven x := by linarith
    exact Int.sub_one_lt_iff.1 (by exact_mod_cast this)
  · simp

theorem roundHalfEven_mono {x y : ℚ} (h : x ≤ y) : roundHalfEven x ≤ roundHalfEven y := by
  rcases (Int.floor_le_floor h).lt_or_eq with hlt | heq
  · have hx : roundHalfEven x ≤ ⌊x⌋ + 1 := by
      unfold roundHalfEven
      split_ifs <;> omega
    have hy : ⌊y⌋ ≤ roundHalfEven y := by
      unfold roundHalfEven
      split_ifs <;> omega
    omega
  · -- the same integer part: the larger fraction rounds up no less often
    unfold roundHalfEven
    rw [heq]
    split_ifs <;> first | omega | (exfalso; linarith)

theorem roundHalfEven_neg (x : ℚ) : roundHalfEven (-x) = -roundHalfEven x := by
  by_cases hx : (⌊x⌋ : ℚ) = x
  · rw [← hx, ← Int.cast_neg, roundHalfEven_intCast, roundHalfEven_intCast]
  · have h0 := lt_of_le_of_ne (Int.floor_le x) hx
    have h1 := Int.lt_floor_add_one x
    have hf : ⌊-x⌋ = -⌊x⌋ - 1 := by
      rw [Int.floor_eq_iff]
      push_cast
      constructor <;> linarith
    unfold roundHalfEven
    rw [hf]
    push_cast
    split_ifs <;> first | omega | (exfalso; linarith)

@[simp] theorem roundHalfAway_intCast (n : ℤ) : roundHalfAway n = n := by
  have h (m : ℤ) : ⌊(m : ℚ) + 1 / 2⌋ = m := by
    rw [Int.floor_eq_iff]
    constructor <;> linarith
  unfold roundHalfAway
  split_ifs
  · exact h n
  · have := h (-n)
    push_cast at this
    rw [this, neg_neg]

theorem le_roundHalfAway_of_le {x : ℚ} {n : ℤ} (hn : 0 ≤ n) (h : (n : ℚ) ≤ x) : n ≤ roundHalfAway x := by
  have hx : 0 ≤ x := le_trans (by exact_mod_cast hn) h
  rw [roundHalfAway, if_pos hx]
  exact Int.le_floor.2 (by linarith)

theorem roundHalfAway_nonneg {x : ℚ} (h : 0 ≤ x) : 0 ≤ roundHalfAway x :=
  le_roundHalfAway_of_le le_rfl (by simpa using h)

theorem roundHalfAway_mono {x y : ℚ} (hx : 0 ≤ x) (h : x ≤ y) : roundHalfAway x ≤ roundHalfAway y := by
  rw [roundHalfAway, roundHalfAway, if_pos hx, if_pos (hx.trans h)]
  exact Int.floor_le_floor (by linarith)

theorem roundHalfAway_neg (x : ℚ) : roundHalfAway (-x) = -roundHalfAway x := by
  rcases lt_trichotomy x 0 with h | rfl | h
  · simp [roundHalfAway, h.le, not_le.2 h]
  · have := roundHalfAway_intCast 0
    simp only [Int.cast_zero] at this
    simp [this]
  · simp [roundHalfAway, h.le, not_le.2 h]

/-! ## Grids -/

/-- `x` has at most `d` fractional digits. -/
def IsGrid (d : ℕ) (x : ℚ) : Prop := ∃ n : ℤ, x = n / 10 ^ d

theorem isGrid_iff {d : ℕ} {x : ℚ} : IsGrid d x ↔ (⌊x * 10 ^ d⌋ : ℚ) = x * 10 ^ d := by
  have h10 : (10 : ℚ) ^ d ≠ 0 := by positivity
  constructor
  · rintro ⟨n, rfl⟩
    rw [div_mul_cancel₀ _ h10, Int.floor_intCast]
  · intro h
    exact ⟨_, (eq_div_iff h10).2 h.symm⟩

instance (d : ℕ) (x : ℚ) : Decidable (IsGrid d x) := decidable_of_iff _ isGrid_iff.symm

@[simp] theorem isGrid_zero (d : ℕ) : IsGrid d 0 := ⟨0, by simp⟩

theorem IsGrid.add {d : ℕ} {x y : ℚ} : IsGrid d x → IsGrid d y → IsGrid d (x + y) := by
  rintro ⟨n, rfl⟩ ⟨m, rfl⟩
  exact ⟨n + m, by push_cast; ring⟩

theorem IsGrid.neg {d : ℕ} {x : ℚ} : IsGrid d x → IsGrid d (-x) := by
  rintro ⟨n, rfl⟩
  exact ⟨-n, by push_cast; ring⟩

theorem IsGrid.sub {d : ℕ} {x y : ℚ} (hx : IsGrid d x) (hy : IsGrid d y) : IsGrid d (x - y) :=
  sub_eq_add_neg x y ▸ hx.add hy.neg

theorem IsGrid.max {d : ℕ} {x y : ℚ} (hx : IsGrid d x) (hy : IsGrid d y) : IsGrid d (max x y) := by
  rcases max_choice x y with h | h <;> rw [h] <;> assumption

/-- More fractional digits hold everything fewer do. -/
theorem IsGrid.mono {d e : ℕ} (h : d ≤ e) {x : ℚ} : IsGrid d x → IsGrid e x := by
  rintro ⟨n, rfl⟩
  obtain ⟨k, rfl⟩ := Nat.exists_eq_add_of_le h
  refine ⟨n * 10 ^ k, ?_⟩
  push_cast
  field_simp
  ring

theorem IsGrid.natCast (d n : ℕ) : IsGrid d (n : ℚ) := ⟨n * 10 ^ d, by push_cast; field_simp⟩

/-! ## Arithmetic in a context of `p` significant digits -/

/-- The weight of the last of `p` significant digits of `x`. -/
def ulp (p : ℕ) (x : ℚ) : ℚ := 10 ^ (Int.log 10 |x| + 1 - p)

/-- `x` rounded half to even to `p` significant digits. -/
def ctx (p : ℕ) (x : ℚ) : ℚ := roundHalfEven (x / ulp p x) * ulp p x

def add (p : ℕ) (x y : ℚ) : ℚ := ctx p (x + y)
def sub (p : ℕ) (x y : ℚ) : ℚ := ctx p (x - y)
def mul (p : ℕ) (x y : ℚ) : ℚ := ctx p (x * y)
def div (p : ℕ) (x y : ℚ) : ℚ := ctx p (x / y)

/-- `p` digits are enough to write `g`. -/
def Fits (p : ℕ) (g : ℚ) : Prop := ∃ (n : ℤ) (e : ℤ), g = n * 10 ^ e ∧ n.natAbs < 10 ^ p

theorem ulp_pos (p : ℕ) (x : ℚ) : 0 < ulp p x := zpow_pos (by norm_num) _

@[simp] theorem ulp_neg (p : ℕ) (x : ℚ) : ulp p (-x) = ulp p x := by simp [ulp]

theorem ctx_neg (p : ℕ) (x : ℚ) : ctx p (-x) = -ctx p x := by
  simp [ctx, neg_div, roundHalfEven_neg]

@[simp] theorem ctx_zero (p : ℕ) : ctx p 0 = 0 := by simp [ctx]

theorem ctx_nonneg (p : ℕ) {x : ℚ} (h : 0 ≤ x) : 0 ≤ ctx p x := by
  have : 0 ≤ roundHalfEven (x / ulp p x) :=
    le_roundHalfEven_of_le (by simpa using div_nonneg h (ulp_pos p x).le)
  exact mul_nonneg (by exact_mod_cast this) (ulp_pos p x).le

theorem ctx_nonpos (p : ℕ) {x : ℚ} (h : x ≤ 0) : ctx p x ≤ 0 := by
  have hneg := ctx_nonneg p (neg_nonneg.2 h)
  rw [ctx_neg] at hneg
  exact neg_nonneg.1 hneg

theorem ctx_abs (p : ℕ) (x : ℚ) : ctx p |x| = |ctx p x| := by
  rcases le_total 0 x with h | h
  · rw [abs_of_nonneg h, abs_of_nonneg (ctx_nonneg p h)]
  · have := ctx_nonneg p (neg_nonneg.2 h)
    rw [ctx_neg] at this
    rw [abs_of_nonpos h, ctx_neg, abs_of_nonpos (by linarith)]

/-- A number below `10 ^ k` has its last digit no higher than `k - p`. -/
theorem log_lt_of_lt {x : ℚ} (hx : 0 < x) {k : ℤ} (h : x < 10 ^ k) : Int.log 10 x < k := by
  exact_mod_cast (Int.lt_zpow_iff_log_lt (b := 10) (by norm_num) hx).1 (by exact_mod_cast h)

/-- A number on the digits `10 ^ e` with weight `10 ^ u`, `u ≤ e`, is an integer of those units. -/
theorem int_of_zpow {n e u : ℤ} (h : u ≤ e) : ∃ m : ℤ, (n : ℚ) * 10 ^ e / 10 ^ u = m := by
  obtain ⟨k, hk⟩ := Int.eq_ofNat_of_zero_le (sub_nonneg.2 h)
  refine ⟨n * 10 ^ k, ?_⟩
  have : (10 : ℚ) ^ e / 10 ^ u = 10 ^ k := by
    rw [← zpow_sub₀ (by norm_num), hk]
    simp
  rw [mul_div_assoc, this]
  push_cast
  rfl

/-- What `p` digits can write is an integer of its own last digits. -/
theorem Fits.int_units {p : ℕ} {g : ℚ} (h : Fits p g) (hg : g ≠ 0) : ∃ m : ℤ, g / ulp p g = m := by
  obtain ⟨n, e, rfl, hn⟩ := h
  have hpos : 0 < |(n : ℚ) * 10 ^ e| := abs_pos.2 hg
  refine int_of_zpow ?_
  have hlt : |(n : ℚ) * 10 ^ e| < 10 ^ (e + p) := by
    have h10 : (0 : ℚ) < 10 ^ e := zpow_pos (by norm_num) e
    rw [abs_mul, abs_of_pos h10, zpow_add₀ (by norm_num), mul_comm]
    refine mul_lt_mul_of_pos_left ?_ h10
    rw [← Int.cast_abs, Int.abs_eq_natAbs]
    exact_mod_cast hn
  have := log_lt_of_lt hpos hlt
  omega

/-- The context does not touch what `p` digits can write. -/
theorem ctx_of_fits {p : ℕ} {g : ℚ} (h : Fits p g) : ctx p g = g := by
  by_cases hg : g = 0
  · simp [hg]
  · obtain ⟨m, hm⟩ := h.int_units hg
    rw [ctx, hm, roundHalfEven_intCast, ← hm, div_mul_cancel₀ _ (ulp_pos p g).ne']

theorem fits_of_grid {p d : ℕ} {n : ℤ} (h : n.natAbs < 10 ^ p) : Fits p ((n : ℚ) / 10 ^ d) :=
  ⟨n, -d, by simp [div_eq_mul_inv], h⟩

theorem fits_zpow {p : ℕ} (hp : 0 < p) (k : ℤ) : Fits p (10 ^ k) :=
  ⟨1, k, by simp, by simpa using Nat.one_lt_pow hp.ne' (by norm_num)⟩

theorem ulp_of_log_eq {p : ℕ} {x y : ℚ} (h : Int.log 10 |x| = Int.log 10 |y|) : ulp p x = ulp p y := by
  rw [ulp, ulp, h]

theorem ulp_of_pos {p : ℕ} {x : ℚ} (hx : 0 < x) : ulp p x = 10 ^ (Int.log 10 x + 1 - p) := by
  rw [ulp, abs_of_pos hx]

theorem zpow_log_le {x : ℚ} (hx : 0 < x) : (10 : ℚ) ^ Int.log 10 x ≤ x := by
  exact_mod_cast Int.zpow_log_le_self (b := 10) (by norm_num) hx

theorem lt_zpow_log (x : ℚ) : x < (10 : ℚ) ^ (Int.log 10 x + 1) := by
  exact_mod_cast Int.lt_zpow_succ_log_self (b := 10) (by norm_num) x

/-- The context stays below any bound that is an integer of the last digits of `x`. -/
theorem ctx_le_units {p : ℕ} {x g : ℚ} {m : ℤ} (hm : g / ulp p x = m) (h : x ≤ g) : ctx p x ≤ g := by
  have hu := ulp_pos p x
  have h1 : x / ulp p x ≤ m := hm ▸ (div_le_div_iff_of_pos_right hu).2 h
  have h2 : (roundHalfEven (x / ulp p x) : ℚ) ≤ g / ulp p x := by
    rw [hm]
    exact_mod_cast roundHalfEven_le_of_le h1
  exact (le_div_iff₀ hu).1 h2

theorem units_le_ctx {p : ℕ} {x g : ℚ} {m : ℤ} (hm : g / ulp p x = m) (h : g ≤ x) : g ≤ ctx p x := by
  have hu := ulp_pos p x
  have h1 : (m : ℚ) ≤ x / ulp p x := hm ▸ (div_le_div_iff_of_pos_right hu).2 h
  have h2 : g / ulp p x ≤ (roundHalfEven (x / ulp p x) : ℚ) := by
    rw [hm]
    exact_mod_cast le_roundHalfEven_of_le h1
  exact (div_le_iff₀ hu).1 h2

/-- The context never crosses a number `p` digits can write. -/
theorem ctx_le_of_le {p : ℕ} (hp : 0 < p) {x g : ℚ} (hx : 0 ≤ x) (hg : Fits p g) (h : x ≤ g) : ctx p x ≤ g := by
  rcases hx.lt_or_eq with hx | rfl
  swap
  · simpa using h
  have hgpos : 0 < g := hx.trans_le h
  rcases (Int.log_mono_right (b := 10) hx h).lt_or_eq with hlt | heq
  · -- `g` has more digits: the next power of ten lies between
    have hpow : ctx p x ≤ 10 ^ (Int.log 10 x + 1) := by
      obtain ⟨m, hm⟩ := int_of_zpow (n := 1) (e := Int.log 10 x + 1) (u := Int.log 10 x + 1 - p) (by omega)
      refine ctx_le_units (m := m) ?_ (lt_zpow_log x).le
      rw [ulp_of_pos hx, ← hm]
      simp
    refine hpow.trans (le_trans ?_ (zpow_log_le hgpos))
    exact zpow_le_zpow_right₀ (by norm_num) hlt
  · obtain ⟨m, hm⟩ := hg.int_units hgpos.ne'
    have hulp : ulp p x = ulp p g := ulp_of_log_eq (by rw [abs_of_pos hx, abs_of_pos hgpos, heq])
    exact ctx_le_units (hulp ▸ hm) h

theorem zpow_le_ctx {p : ℕ} (hp : 0 < p) {x : ℚ} {k : ℤ} (h : (10 : ℚ) ^ k ≤ x) : (10 : ℚ) ^ k ≤ ctx p x := by
  have hx : 0 < x := lt_of_lt_of_le (zpow_pos (by norm_num) k) h
  have hk : k ≤ Int.log 10 x :=
    (Int.zpow_le_iff_le_log (b := 10) (by norm_num) hx).1 (by exact_mod_cast h)
  obtain ⟨m, hm⟩ := int_of_zpow (n := 1) (e := Int.log 10 x) (u := Int.log 10 x + 1 - p) (by omega)
  have hpow : (10 : ℚ) ^ Int.log 10 x ≤ ctx p x := by
    refine units_le_ctx (m := m) ?_ (zpow_log_le hx)
    rw [ulp_of_pos hx, ← hm]
    simp
  exact (zpow_le_zpow_right₀ (by norm_num) hk).trans hpow

/-- Nor does it fall below a number `p` digits can write. -/
theorem le_ctx_of_le {p : ℕ} (hp : 0 < p) {x g : ℚ} (hg : Fits p g) (h0 : 0 ≤ g) (h : g ≤ x) : g ≤ ctx p x := by
  rcases h0.lt_or_eq with hgpos | rfl
  swap
  · exact ctx_nonneg p h
  have hx : 0 < x := hgpos.trans_le h
  rcases (Int.log_mono_right (b := 10) hgpos h).lt_or_eq with hlt | heq
  · have hpow : (10 : ℚ) ^ (Int.log 10 g + 1) ≤ x := le_trans (zpow_le_zpow_right₀ (by norm_num) hlt) (zpow_log_le hx)
    exact (lt_zpow_log g).le.trans (zpow_le_ctx hp hpow)
  · obtain ⟨m, hm⟩ := hg.int_units hgpos.ne'
    have hulp : ulp p x = ulp p g := ulp_of_log_eq (by rw [abs_of_pos hx, abs_of_pos hgpos, heq])
    exact units_le_ctx (hulp ▸ hm) h

/-- A number of more than `p` digits on the grid `d` keeps more than `p` digits there. -/
theorem ctx_overflow {p d : ℕ} (hp : 0 < p) {n : ℤ} (h : 10 ^ p ≤ n.natAbs) :
    (((10 ^ p : ℕ) : ℤ) : ℚ) ≤ ctx p (n / 10 ^ d) * 10 ^ d ∨
      (((10 ^ p : ℕ) : ℤ) : ℚ) ≤ -(ctx p (n / 10 ^ d) * 10 ^ d) := by
  have h10 : (0 : ℚ) < 10 ^ d := by positivity
  have habs : (10 : ℚ) ^ ((p : ℤ) - d) ≤ |(n : ℚ) / 10 ^ d| := by
    rw [zpow_sub₀ (by norm_num), abs_div, abs_of_pos h10, zpow_natCast, zpow_natCast]
    refine (div_le_div_iff_of_pos_right h10).2 ?_
    rw [← Int.cast_abs, Int.abs_eq_natAbs]
    exact_mod_cast h
  have hbig : (((10 ^ p : ℕ) : ℤ) : ℚ) ≤ |ctx p (n / 10 ^ d) * 10 ^ d| := by
    rw [abs_mul, ← ctx_abs, abs_of_pos h10]
    have := mul_le_mul_of_nonneg_right (zpow_le_ctx hp habs) h10.le
    rw [zpow_sub₀ (by norm_num), zpow_natCast, zpow_natCast, div_mul_cancel₀ _ h10.ne'] at this
    exact_mod_cast this
  exact le_abs.1 hbig

/-- A number on the grid is kept exactly, or it has more than `p` digits there before and after. -/
theorem ctx_exact_or {p d : ℕ} (hp : 0 < p) {x : ℚ} (hx : IsGrid d x) (h0 : 0 ≤ x) :
    ctx p x = x ∨ ((10 : ℚ) ^ ((p : ℤ) - d) ≤ x ∧ (10 : ℚ) ^ ((p : ℤ) - d) ≤ ctx p x) := by
  obtain ⟨n, rfl⟩ := hx
  have h10 : (0 : ℚ) < 10 ^ d := by positivity
  rcases lt_or_ge n.natAbs (10 ^ p) with hn | hn
  · exact .inl (ctx_of_fits (fits_of_grid hn))
  · have hlarge : (10 : ℚ) ^ ((p : ℤ) - d) ≤ n / 10 ^ d := by
      have hn0 : 0 ≤ n := by
        rw [le_div_iff₀ h10, zero_mul] at h0
        exact_mod_cast h0
      rw [zpow_sub₀ (by norm_num), zpow_natCast, zpow_natCast, div_le_div_iff_of_pos_right h10]
      rw [← Int.natAbs_of_nonneg hn0]
      exact_mod_cast hn
    exact .inr ⟨hlarge, zpow_le_ctx hp hlarge⟩

/-! ## Scaling, and rounding after the context -/

theorem log_mul_zpow {x : ℚ} (hx : 0 < x) (k : ℤ) : Int.log 10 (x * 10 ^ k) = Int.log 10 x + k := by
  have hk : (0 : ℚ) < 10 ^ k := zpow_pos (by norm_num) k
  have hlow : Int.log 10 x + k ≤ Int.log 10 (x * 10 ^ k) := by
    refine (Int.zpow_le_iff_le_log (b := 10) (by norm_num) (mul_pos hx hk)).1 ?_
    push_cast
    rw [zpow_add₀ (by norm_num)]
    exact mul_le_mul_of_nonneg_right (zpow_log_le hx) hk.le
  have hhigh : Int.log 10 (x * 10 ^ k) < Int.log 10 x + k + 1 := by
    refine log_lt_of_lt (mul_pos hx hk) ?_
    rw [show Int.log 10 x + k + 1 = Int.log 10 x + 1 + k by ring, zpow_add₀ (by norm_num)]
    exact mul_lt_mul_of_pos_right (lt_zpow_log x) hk
  omega

/-- Shifting the decimal point commutes with the context. -/
theorem ctx_mul_zpow (p : ℕ) {x : ℚ} (hx : 0 ≤ x) (k : ℤ) : ctx p (x * 10 ^ k) = ctx p x * 10 ^ k := by
  rcases hx.lt_or_eq with hx | rfl
  swap
  · simp
  have hk : (0 : ℚ) < 10 ^ k := zpow_pos (by norm_num) k
  have hu : ulp p (x * 10 ^ k) = ulp p x * 10 ^ k := by
    rw [ulp_of_pos (mul_pos hx hk), ulp_of_pos hx, log_mul_zpow hx, ← zpow_add₀ (by norm_num)]
    congr 1
    ring
  rw [ctx, ctx, hu, mul_div_mul_right _ _ hk.ne', mul_assoc]

theorem ctx_fits {p : ℕ} (hp : 0 < p) {x : ℚ} (hx : 0 ≤ x) : Fits p (ctx p x) := by
  rcases hx.lt_or_eq with hx | rfl
  swap
  · exact ⟨0, 0, by simp, by simp⟩
  have h0 : 0 ≤ roundHalfEven (x / ulp p x) :=
    le_roundHalfEven_of_le (by simpa using div_nonneg hx.le (ulp_pos p x).le)
  have hle : roundHalfEven (x / ulp p x) ≤ ((10 ^ p : ℕ) : ℤ) := by
    refine roundHalfEven_le_of_le ?_
    rw [div_le_iff₀ (ulp_pos p x), ulp_of_pos hx]
    push_cast
    rw [← zpow_natCast (10 : ℚ) p, ← zpow_add₀ (by norm_num), add_sub_cancel]
    exact (lt_zpow_log x).le
  rcases hle.lt_or_eq with hlt | heq
  · refine ⟨roundHalfEven (x / ulp p x), _, rfl, ?_⟩
    omega
  · -- carried up to the next power of ten
    rw [ctx, heq, ulp]
    push_cast
    rw [← zpow_natCast (10 : ℚ) p, ← zpow_add₀ (by norm_num)]
    exact fits_zpow hp _

theorem ctx_ctx {p : ℕ} (hp : 0 < p) {x : ℚ} (hx : 0 ≤ x) : ctx p (ctx p x) = ctx p x := ctx_of_fits (ctx_fits hp hx)

/-- Half integers are whole in units below one. -/
theorem half_units {e : ℤ} (he : e < 0) (n : ℤ) : ∃ m : ℤ, (n : ℚ) / 2 / 10 ^ e = m := by
  obtain ⟨m, hm⟩ := int_of_zpow (n := n * 5) (e := -1) (u := e) (by omega)
  refine ⟨m, ?_⟩
  rw [← hm, zpow_neg_one]
  push_cast
  ring

/-- When the result has at most `p` digits, the context rounded to an integer, or kept a fraction of one. -/
theorem ctx_integer_or_fraction {p : ℕ} (hp : 0 < p) {x : ℚ} (hx : 0 < x) (h : roundHalfEven (ctx p x) < 10 ^ p) :
    ctx p x = roundHalfEven x ∨ Int.log 10 x + 1 - p < 0 := by
  rcases lt_trichotomy (Int.log 10 x + 1 - p) 0 with he | he | he
  · exact .inr he
  · left
    rw [ctx, ulp_of_pos hx, he]
    simp
  · exfalso
    have hbig : (10 : ℚ) ^ (p : ℤ) ≤ ctx p x := by
      refine zpow_le_ctx hp (le_trans ?_ (zpow_log_le hx))
      exact zpow_le_zpow_right₀ (by norm_num) (by omega)
    have : (10 : ℤ) ^ p ≤ roundHalfEven (ctx p x) := by
      refine le_roundHalfEven_of_le ?_
      push_cast
      exact_mod_cast hbig
    omega

/-- The context does not take a number away from an even integer within half a unit. -/
theorem roundHalfEven_ctx_of_even {p : ℕ} (hp : 0 < p) {x : ℚ} (hx : 0 ≤ x) (h : roundHalfEven (ctx p x) < 10 ^ p)
    {c : ℤ} (hc : 2 ∣ c) (hd : |x - c| ≤ 1 / 2) : roundHalfEven (ctx p x) = c := by
  rcases hx.lt_or_eq with hx | rfl
  swap
  · rw [ctx_zero]
    exact roundHalfEven_of_even hc hd
  rcases ctx_integer_or_fraction hp hx h with he | he
  · rw [he, roundHalfEven_intCast, roundHalfEven_of_even hc hd]
  · refine roundHalfEven_of_even hc (abs_le.2 ?_)
    obtain ⟨hlow, hhigh⟩ := abs_le.1 hd
    obtain ⟨m, hm⟩ := half_units he (2 * c - 1)
    obtain ⟨n, hn⟩ := half_units he (2 * c + 1)
    rw [← ulp_of_pos hx] at hm hn
    push_cast at hm hn
    have h1 := units_le_ctx hm (by linarith)
    have h2 := ctx_le_units hn (by linarith)
    constructor <;> linarith

/-- Rounding the context's result is rounding the number exactly when it stays within half a unit. -/
theorem roundHalfEven_ctx_iff {p : ℕ} (hp : 0 < p) {x : ℚ} (hx : 0 ≤ x) (h : roundHalfEven (ctx p x) < 10 ^ p) :
    |x - roundHalfEven (ctx p x)| ≤ 1 / 2 ↔ roundHalfEven (ctx p x) = roundHalfEven x := by
  constructor
  swap
  · intro he
    rw [he]
    exact abs_sub_roundHalfEven_le x
  intro hd
  rcases hx.lt_or_eq with hx | rfl
  swap
  · rw [ctx_zero]
  rcases ctx_integer_or_fraction hp hx h with he | he
  · rw [he, roundHalfEven_intCast]
  by_contra hne
  -- two nearest integers: the number is half way between them, and the context keeps it
  have hmid : x = ((roundHalfEven (ctx p x) + roundHalfEven x : ℤ) : ℚ) / 2 := by
    obtain ⟨h1, h2⟩ := abs_le.1 hd
    obtain ⟨h3, h4⟩ := abs_le.1 (abs_sub_roundHalfEven_le x)
    push_cast
    rcases lt_or_gt_of_ne hne with hlt | hlt
    · have : (roundHalfEven (ctx p x) : ℚ) + 1 ≤ roundHalfEven x := by exact_mod_cast hlt
      linarith
    · have : (roundHalfEven x : ℚ) + 1 ≤ roundHalfEven (ctx p x) := by exact_mod_cast hlt
      linarith
  obtain ⟨m, hm⟩ := half_units he (roundHalfEven (ctx p x) + roundHalfEven x)
  rw [← hmid, ← ulp_of_pos hx] at hm
  refine hne (congrArg roundHalfEven ?_)
  exact le_antisymm (ctx_le_units hm le_rfl) (units_le_ctx hm le_rfl)

/-! ## Whole numbers -/

/-- `n / m` rounded half to even, on whole numbers. -/
def halfEven (n m : ℕ) : ℕ := n / m + if 2 * (n % m) < m ∨ 2 * (n % m) = m ∧ n / m % 2 = 0 then 0 else 1

theorem roundHalfEven_div (n : ℕ) {m : ℕ} (hm : 0 < m) : roundHalfEven ((n : ℚ) / m) = halfEven n m := by
  have hm' : (0 : ℚ) < m := by exact_mod_cast hm
  have hfloor : ⌊(n : ℚ) / m⌋ = (n / m : ℕ) := by
    rw [Rat.floor_natCast_div_natCast]
    rfl
  have hfrac : (n : ℚ) / m - ((n / m : ℕ) : ℤ) = (n % m : ℕ) / m := by
    have h : (n : ℚ) = m * (n / m : ℕ) + (n % m : ℕ) := by exact_mod_cast (Nat.div_add_mod n m).symm
    rw [eq_div_iff hm'.ne', sub_mul, div_mul_cancel₀ _ hm'.ne']
    rw [Int.cast_natCast, mul_comm, h]
    ring
  have hlt : ((n % m : ℕ) : ℚ) / m < 1 / 2 ↔ 2 * (n % m) < m := by
    rw [div_lt_div_iff₀ hm' (by norm_num), one_mul, mul_comm]
    exact_mod_cast Iff.rfl
  have hgt : 1 / 2 < ((n % m : ℕ) : ℚ) / m ↔ m < 2 * (n % m) := by
    rw [div_lt_div_iff₀ (by norm_num) hm', one_mul, mul_comm]
    exact_mod_cast Iff.rfl
  have heven : (2 : ℤ) ∣ ((n / m : ℕ) : ℤ) ↔ n / m % 2 = 0 := by omega
  simp only [roundHalfEven, hfloor, hfrac, hlt, hgt, heven, halfEven]
  split_ifs <;> push_cast <;> omega

theorem halfEven_whole {m : ℕ} (hm : 0 < m) (n : ℕ) : halfEven (n * m) m = n := by
  rw [halfEven, Nat.mul_mod_left, Nat.mul_div_cancel _ hm, mul_zero, if_pos (.inl hm), add_zero]

/-- A whole number of `p + j` digits loses the last `j` of them. -/
theorem ctx_natCast {p j n : ℕ} (hp : 0 < p) (hlow : 10 ^ (p - 1 + j) ≤ n) (hhigh : n < 10 ^ (p + j)) :
    ctx p (n : ℚ) = halfEven n (10 ^ j) * 10 ^ j := by
  have hn : (0 : ℚ) < n := by exact_mod_cast lt_of_lt_of_le (by positivity) hlow
  have hlog : Int.log 10 (n : ℚ) = p - 1 + j := by
    have hle : ((p - 1 + j : ℕ) : ℤ) ≤ Int.log 10 (n : ℚ) := by
      refine (Int.zpow_le_iff_le_log (b := 10) (by norm_num) hn).1 ?_
      exact_mod_cast hlow
    have hlt : Int.log 10 (n : ℚ) < ((p + j : ℕ) : ℤ) := by
      refine log_lt_of_lt hn ?_
      exact_mod_cast hhigh
    omega
  have hulp : ulp p (n : ℚ) = (10 ^ j : ℕ) := by
    rw [ulp_of_pos hn, hlog, show (p : ℤ) - 1 + j + 1 - p = j by ring]
    push_cast
    exact zpow_natCast _ _
  rw [ctx, hulp, roundHalfEven_div n (by positivity)]
  push_cast
  rfl

theorem ctx_of_digits {p n : ℕ} (h : n < 10 ^ p) : ctx p (n : ℚ) = n := ctx_of_fits ⟨n, 0, by simp, by simpa using h⟩

/-! ## Quantize -/

/-- `x` rounded half to even to `d` fractional digits, when `p` digits hold the result. -/
def quantize (p d : ℕ) (x : ℚ) : Option ℚ :=
  let n := roundHalfEven (x * 10 ^ d)
  if n.natAbs < 10 ^ p then some (n / 10 ^ d) else none

section quantize
variable {p d : ℕ} {x y : ℚ}

theorem quantize_eq_some (h : quantize p d x = some y) :
    y = roundHalfEven (x * 10 ^ d) / 10 ^ d ∧ (roundHalfEven (x * 10 ^ d)).natAbs < 10 ^ p := by
  simp only [quantize, Option.ite_none_right_eq_some, Option.some.injEq] at h
  exact ⟨h.2.symm, h.1⟩

theorem quantize_grid (h : quantize p d x = some y) : IsGrid d y :=
  ⟨_, (quantize_eq_some h).1⟩

theorem quantize_fits (h : quantize p d x = some y) : Fits p y := by
  obtain ⟨rfl, hb⟩ := quantize_eq_some h
  exact fits_of_grid hb

/-- A number that already has at most `d` fractional digits is not changed. -/
theorem quantize_of_grid (hx : IsGrid d x) (h : quantize p d x = some y) : y = x := by
  obtain ⟨n, rfl⟩ := hx
  obtain ⟨rfl, -⟩ := quantize_eq_some h
  rw [div_mul_cancel₀ _ (by positivity), roundHalfEven_intCast]

theorem quantize_self (h : quantize p d x = some y) : quantize p d y = some y := by
  obtain ⟨rfl, hb⟩ := quantize_eq_some h
  simp only [quantize]
  rw [div_mul_cancel₀ _ (by positivity), roundHalfEven_intCast, if_pos hb]

theorem quantize_nonneg (hx : 0 ≤ x) (h : quantize p d x = some y) : 0 ≤ y := by
  obtain ⟨rfl, -⟩ := quantize_eq_some h
  have : 0 ≤ roundHalfEven (x * 10 ^ d) := le_roundHalfEven_of_le (by simp; positivity)
  exact div_nonneg (by exact_mod_cast this) (by positivity)

theorem quantize_le_of_le {g : ℚ} (hg : IsGrid d g) (hx : x ≤ g) (h : quantize p d x = some y) : y ≤ g := by
  obtain ⟨rfl, -⟩ := quantize_eq_some h
  obtain ⟨n, rfl⟩ := hg
  have h10 : (0 : ℚ) < 10 ^ d := by positivity
  have : roundHalfEven (x * 10 ^ d) ≤ n := roundHalfEven_le_of_le ((le_div_iff₀ h10).1 hx)
  exact (div_le_div_iff_of_pos_right h10).2 (by exact_mod_cast this)

end quantize

/-- `x` rounded half to even to `d` fractional digits. -/
def roundTo (d : ℕ) (x : ℚ) : ℚ := roundHalfEven (x * 10 ^ d) / 10 ^ d

theorem roundTo_grid (d : ℕ) (x : ℚ) : IsGrid d (roundTo d x) := ⟨_, rfl⟩

theorem roundTo_of_grid {n : ℕ} {x : ℚ} (h : IsGrid n x) : roundTo n x = x := by
  obtain ⟨m, rfl⟩ := h
  rw [roundTo, div_mul_cancel₀ _ (by positivity), roundHalfEven_intCast]

theorem le_roundTo_of_le {n : ℕ} {g x : ℚ} (hg : IsGrid n g) (h : g ≤ x) : g ≤ roundTo n x := by
  obtain ⟨m, rfl⟩ := hg
  have h10 : (0 : ℚ) < 10 ^ n := by positivity
  rw [roundTo, div_le_div_iff_of_pos_right h10]
  exact_mod_cast le_roundHalfEven_of_le ((div_le_iff₀ h10).1 h)

theorem roundTo_nonneg {n : ℕ} {x : ℚ} (h : 0 ≤ x) : 0 ≤ roundTo n x := le_roundTo_of_le (isGrid_zero n) h

theorem quantize_roundTo {p d : ℕ} {x y : ℚ} (h : quantize p d x = some y) : y = roundTo d x := (quantize_eq_some h).1

theorem within_iff {d : ℕ} {x : ℚ} {n : ℤ} : |(n : ℚ) / 10 ^ d - x| ≤ 1 / 2 / 10 ^ d ↔ |x * 10 ^ d - n| ≤ 1 / 2 := by
  have h10 : (0 : ℚ) < 10 ^ d := by positivity
  rw [le_div_iff₀ h10, abs_sub_comm, show |x - n / 10 ^ d| * 10 ^ d = |x * 10 ^ d - n| by
    rw [← abs_of_pos h10, ← abs_mul, abs_of_pos h10, sub_mul, div_mul_cancel₀ _ h10.ne']]

/-- What `quantize` makes of the context's result, in whole units. -/
theorem quantize_ctx_units {p d : ℕ} {x y : ℚ} (hx : 0 ≤ x) (h : quantize p d (ctx p x) = some y) :
    y = roundHalfEven (ctx p (x * 10 ^ d)) / 10 ^ d ∧ roundHalfEven (ctx p (x * 10 ^ d)) < 10 ^ p := by
  obtain ⟨hy, hb⟩ := quantize_eq_some h
  rw [show ctx p x * 10 ^ d = ctx p (x * 10 ^ d) by
    rw [← zpow_natCast, ctx_mul_zpow p hx]] at hy hb
  refine ⟨hy, ?_⟩
  have hn : (roundHalfEven (ctx p (x * 10 ^ d))).natAbs < 10 ^ p := hb
  zify at hn
  exact (le_abs_self _).trans_lt hn

/-- The quantised result of the context is within half a unit of the exact
number exactly when the context did not change what it rounds to. -/
theorem quantize_ctx_within_iff {p d : ℕ} (hp : 0 < p) {x y : ℚ} (hx : 0 ≤ x) (h : quantize p d (ctx p x) = some y) :
    |y - x| ≤ 1 / 2 / 10 ^ d ↔ y = roundTo d x := by
  obtain ⟨rfl, hb⟩ := quantize_ctx_units hx h
  have h10 : (10 : ℚ) ^ d ≠ 0 := by positivity
  rw [within_iff, roundHalfEven_ctx_iff hp (by positivity) hb, roundTo, div_left_inj' h10, Int.cast_inj]

/-- A number with fewer digits that is within half a unit is the rounded number, and the context does not matter. -/
theorem quantize_ctx_of_coarse {p d s : ℕ} (hp : 0 < p) (hs : s < d) {x y g : ℚ} (hx : 0 ≤ x)
    (h : quantize p d (ctx p x) = some y) (hg : IsGrid s g) (hd : |g - x| ≤ 1 / 2 / 10 ^ d) :
    y = g ∧ roundTo d x = g := by
  obtain ⟨n, rfl⟩ := hg
  obtain ⟨k, rfl⟩ := Nat.exists_eq_add_of_lt hs
  have hn : (n : ℚ) / 10 ^ s = ((n * 10 ^ (k + 1) : ℤ) : ℚ) / 10 ^ (s + k + 1) := by
    push_cast
    field_simp
    ring
  have heven : (2 : ℤ) ∣ n * 10 ^ (k + 1) := Dvd.dvd.mul_left (Dvd.dvd.pow (by norm_num) (by omega)) n
  obtain ⟨rfl, hb⟩ := quantize_ctx_units hx h
  rw [hn, within_iff] at hd
  rw [hn, roundTo, roundHalfEven_of_even heven hd, roundHalfEven_ctx_of_even hp (by positivity) hb heven hd]
  exact ⟨rfl, rfl⟩

/-! ## Fixed-point columns -/

/-- A column of `p` digits, `s` of them fractional. -/
structure Numeric (p s : ℕ) where
  units : ℤ
  bound : units.natAbs < 10 ^ p
deriving DecidableEq

namespace Numeric
variable {p s : ℕ}

/-- The number a column value stands for. -/
def val (v : Numeric p s) : ℚ := v.units / 10 ^ s

/-- Writing a number to the column: it is rounded to `s` fractional digits,
half away from zero, and the write fails when the result does not fit. -/
def ofRat (p s : ℕ) (x : ℚ) : Option (Numeric p s) :=
  if h : (roundHalfAway (x * 10 ^ s)).natAbs < 10 ^ p then some ⟨_, h⟩ else none

def zero (p s : ℕ) : Numeric p s := ⟨0, by positivity⟩

@[simp] theorem val_zero : (zero p s).val = 0 := by simp [zero, val]

theorem isGrid (v : Numeric p s) : IsGrid s v.val := ⟨v.units, rfl⟩

theorem fits (v : Numeric p s) : Fits p v.val := fits_of_grid v.bound

theorem val_inj {v w : Numeric p s} (h : v.val = w.val) : v = w := by
  cases v
  cases w
  have h10 : (10 : ℚ) ^ s ≠ 0 := by positivity
  simp only [val, div_left_inj' h10, Int.cast_inj] at h
  simp [h]

theorem ofRat_eq_some {x : ℚ} {v : Numeric p s} (h : ofRat p s x = some v) :
    v.units = roundHalfAway (x * 10 ^ s) := by
  unfold ofRat at h
  split at h
  · cases h
    rfl
  · cases h

/-- A number with at most `s` fractional digits is stored as it is. -/
theorem val_of_grid {x : ℚ} (hx : IsGrid s x) {v : Numeric p s} (h : ofRat p s x = some v) : v.val = x := by
  obtain ⟨n, rfl⟩ := hx
  have := ofRat_eq_some h
  rw [div_mul_cancel₀ _ (by positivity), roundHalfAway_intCast] at this
  rw [val, this]

theorem ofRat_val (v : Numeric p s) : ofRat p s v.val = some v := by
  have h : roundHalfAway (v.val * 10 ^ s) = v.units := by
    rw [val, div_mul_cancel₀ _ (by positivity), roundHalfAway_intCast]
  unfold ofRat
  rw [dif_pos (by rw [h]; exact v.bound)]
  cases v
  simp only [h]

theorem val_nonneg {x : ℚ} (hx : 0 ≤ x) {v : Numeric p s} (h : ofRat p s x = some v) : 0 ≤ v.val := by
  have : 0 ≤ v.units := by
    rw [ofRat_eq_some h]
    exact roundHalfAway_nonneg (by positivity)
  exact div_nonneg (by exact_mod_cast this) (by positivity)

theorem val_mono {x y : ℚ} (hx : 0 ≤ x) (hxy : x ≤ y) {v w : Numeric p s} (hv : ofRat p s x = some v)
    (hw : ofRat p s y = some w) : v.val ≤ w.val := by
  have : v.units ≤ w.units := by
    rw [ofRat_eq_some hv, ofRat_eq_some hw]
    exact roundHalfAway_mono (by positivity) (mul_le_mul_of_nonneg_right hxy (by positivity))
  exact div_le_div_of_nonneg_right (by exact_mod_cast this) (by positivity)

/-- What does not fit the column does not fit after the context either. -/
theorem ofRat_ctx_none (hp : 0 < p) {n : ℤ} (h : 10 ^ p ≤ n.natAbs) : ofRat p s (ctx p (n / 10 ^ s)) = none := by
  have hround : 10 ^ p ≤ (roundHalfAway (ctx p (n / 10 ^ s) * 10 ^ s)).natAbs := by
    rcases ctx_overflow (d := s) hp h with hs | hs
    · have := le_roundHalfAway_of_le (by positivity) hs
      omega
    · have := le_roundHalfAway_of_le (by positivity) hs
      rw [roundHalfAway_neg] at this
      omega
  rw [ofRat, dif_neg (not_lt.2 hround)]

/-- If the exact result has `s` fractional digits and the column accepted
what the context made of it, the column holds the exact result. -/
theorem val_of_ctx (hp : 0 < p) {x : ℚ} (hx : IsGrid s x) {v : Numeric p s} (h : ofRat p s (ctx p x) = some v) :
    v.val = x := by
  obtain ⟨n, rfl⟩ := hx
  rcases lt_or_ge n.natAbs (10 ^ p) with hn | hn
  · rw [ctx_of_fits (fits_of_grid hn)] at h
    exact val_of_grid ⟨n, rfl⟩ h
  · rw [ofRat_ctx_none hp hn] at h
    cases h

end Numeric

/-- The same rule for `quantize`. -/
theorem quantize_ctx {p d : ℕ} (hp : 0 < p) {x y : ℚ} (hx : IsGrid d x) (h : quantize p d (ctx p x) = some y) :
    y = x := by
  obtain ⟨n, rfl⟩ := hx
  rcases lt_or_ge n.natAbs (10 ^ p) with hn | hn
  · rw [ctx_of_fits (fits_of_grid hn)] at h
    exact quantize_of_grid ⟨n, rfl⟩ h
  · exfalso
    obtain ⟨-, hb⟩ := quantize_eq_some h
    rcases ctx_overflow (d := d) hp hn with hs | hs
    · have := le_roundHalfEven_of_le hs
      omega
    · have := le_roundHalfEven_of_le hs
      rw [roundHalfEven_neg] at this
      omega

/-! ## As text -/

/-- `str` of a `Decimal` with the coefficient `n` and the exponent `-d`: scientific
when more than five zeros would follow the point. -/
def text (n d : ℕ) : String :=
  let digits := Nat.toDigits 10 n
  let k := digits.length
  if d = 0 then String.ofList digits
  else if k + 6 ≤ d then
    String.ofList (digits.take 1) ++ (if k = 1 then "" else "." ++ String.ofList (digits.drop 1)) ++
      "E-" ++ toString (d + 1 - k)
  else if k ≤ d then "0." ++ String.ofList (List.replicate (d - k) '0' ++ digits)
  else String.ofList (digits.take (k - d)) ++ "." ++ String.ofList (digits.drop (k - d))

example : (text 5000 2, text 7 8, text 0 8, text 12 8) = ("50.00", "7E-8", "0E-8", "1.2E-7") := by decide +kernel

/-- `str` of a number quantised to `d` fractional digits. -/
def str (d : ℕ) (x : ℚ) : String := (if x < 0 then "-" else "") ++ text (x * 10 ^ d).num.natAbs d

end Decimal
