import Garant.Operations
/-!
# The commission of a deal

The amount and the commission go through a context of 28 digits before they are
quantised. `commission_exact_iff` says for which amounts and rates that is the
exact commission rounded once.
-/
open Decimal

namespace Garant

/-- `DealCreate.amount`: finite, and at least `0.00000001`. -/
structure DealAmount where
  val : ℚ
  min : 1 / 10 ^ 8 ≤ val

/-- A commission rate between 0 and 100, two of its digits fractional. -/
structure CommissionRate where
  percent : Percent
  nonneg : 0 ≤ percent.units
  bound : percent.units ≤ 10000

def CommissionRate.val (rate : CommissionRate) : ℚ := rate.percent.val

def CommissionRate.hundredths (rate : CommissionRate) : ℕ := rate.percent.units.toNat

/-- The quantised amount and the commission are defined, and the commission is the exact one rounded once. -/
def ExactCommission (raw rate : ℚ) (decimals : ℕ) : Prop :=
  ∃ amt commission, quantizeMoney raw decimals = .ok amt ∧ commissionOf amt rate decimals = .ok commission ∧
    commission = roundTo decimals (amt * rate / 100) ∧ 0 ≤ commission ∧ commission ≤ amt

/-- The quantised amount in units of the currency. -/
def amountDigits (raw : ℚ) (decimals : ℕ) : ℕ := (roundHalfEven (raw * 10 ^ decimals)).toNat

/-- Amount times rate, as the whole number its digits make. -/
def commissionDigits (raw : ℚ) (rate : CommissionRate) (decimals : ℕ) : ℕ := amountDigits raw decimals * rate.hundredths

/-! ## Rounding twice -/

/-- How far from half way between two multiples of `10 ^ 4` rounding to 28 digits may take a number there. -/
def reach (n : ℕ) : ℕ :=
  if n < 10 ^ 28 then 0 else if n < 10 ^ 29 then 5 else if n < 10 ^ 30 then 50 else if n < 10 ^ 31 then 499 else 0

/-- Within `h` of half way, on the side of the odd multiple. -/
def NearTie (h n : ℕ) : Prop :=
  5000 < n % 20000 ∧ n % 20000 ≤ 5000 + h ∨ 15000 ≤ n % 20000 + h ∧ n % 20000 < 15000
deriving Decidable

theorem nearTie_zero (n : ℕ) : ¬NearTie 0 n := by
  unfold NearTie
  omega

theorem halfEven_twice {u h n : ℕ} (hu : u = 10 ∧ h = 5 ∨ u = 100 ∧ h = 50 ∨ u = 1000 ∧ h = 499) :
    halfEven (halfEven n u * u) 10000 = halfEven n 10000 ↔ ¬NearTie h n := by
  unfold NearTie
  obtain ⟨rfl, rfl⟩ | ⟨rfl, rfl⟩ | ⟨rfl, rfl⟩ := hu
  · unfold halfEven
    split_ifs <;> omega
  · unfold halfEven
    split_ifs <;> omega
  · unfold halfEven
    split_ifs <;> omega

/-- Rounding to 28 digits first changes nothing but near half way. -/
theorem roundHalfEven_ctx_digits_iff {n : ℕ} (hn : n < 10 ^ 32) :
    roundHalfEven (ctx 28 ((n : ℚ) / 10 ^ 4)) = roundHalfEven ((n : ℚ) / 10 ^ 4) ↔ ¬NearTie (reach n) n := by
  have hctx : ctx 28 ((n : ℚ) / 10 ^ 4) = ctx 28 (n : ℚ) / 10 ^ 4 := by
    rw [div_eq_mul_inv, ← zpow_natCast, ← zpow_neg, ctx_mul_zpow 28 (by positivity)]
    rfl
  have hround (m : ℕ) : roundHalfEven ((m : ℚ) / 10 ^ 4) = halfEven m 10000 := by
    exact_mod_cast roundHalfEven_div m (m := 10000) (by norm_num)
  -- dropping `j` digits first
  have hdrop {j : ℕ} (hlow : 10 ^ (28 - 1 + j) ≤ n) (hhigh : n < 10 ^ (28 + j)) :
      roundHalfEven (ctx 28 ((n : ℚ) / 10 ^ 4)) = halfEven (halfEven n (10 ^ j) * 10 ^ j) 10000 := by
    rw [hctx, ctx_natCast (by norm_num) hlow hhigh, ← hround]
    push_cast
    rfl
  unfold reach
  split_ifs with h28 h29 h30 h31
  · rw [hctx, ctx_of_digits h28]
    exact iff_of_true rfl (nearTie_zero n)
  · rw [hdrop (j := 1) (not_lt.1 h28) h29, hround, Nat.cast_inj]
    exact halfEven_twice (.inl ⟨rfl, rfl⟩)
  · rw [hdrop (j := 2) (not_lt.1 h29) h30, hround, Nat.cast_inj]
    exact halfEven_twice (.inr (.inl ⟨rfl, rfl⟩))
  · rw [hdrop (j := 3) (not_lt.1 h30) h31, hround, Nat.cast_inj]
    exact halfEven_twice (.inr (.inr ⟨rfl, rfl⟩))
  · rw [hdrop (j := 4) (not_lt.1 h31) hn, hround, Nat.cast_inj]
    exact iff_of_true (halfEven_whole (by norm_num) _) (nearTie_zero n)

/-! ## The commission -/

section
variable {raw amt com : ℚ} {rate : CommissionRate} {decimals : ℕ}

theorem CommissionRate.val_eq (rate : CommissionRate) : rate.val = rate.hundredths / 100 := by
  have h : (rate.hundredths : ℤ) = rate.percent.units := Int.toNat_of_nonneg rate.nonneg
  rw [CommissionRate.val, Numeric.val, ← h]
  norm_num

theorem CommissionRate.hundredths_le (rate : CommissionRate) : rate.hundredths ≤ 10000 :=
  Int.toNat_le.2 rate.bound

theorem amountDigits_cast (h0 : 0 ≤ raw) : (amountDigits raw decimals : ℤ) = roundHalfEven (raw * 10 ^ decimals) :=
  Int.toNat_of_nonneg (le_roundHalfEven_of_le (by simpa using (by positivity : 0 ≤ raw * 10 ^ decimals)))

theorem quantises_iff_digits (h0 : 0 ≤ raw) : Quantises decimals raw ↔ amountDigits raw decimals < 10 ^ prec := by
  rw [Quantises, ← amountDigits_cast h0, Int.natAbs_natCast]

theorem roundTo_eq_digits (h0 : 0 ≤ raw) : roundTo decimals raw = amountDigits raw decimals / 10 ^ decimals := by
  rw [roundTo, ← amountDigits_cast h0]
  rfl

theorem commissionDigits_le (raw : ℚ) (rate : CommissionRate) (decimals : ℕ) :
    commissionDigits raw rate decimals ≤ amountDigits raw decimals * 10000 :=
  Nat.mul_le_mul_left _ rate.hundredths_le

/-- The exact commission in units of the currency. -/
theorem commission_units (h0 : 0 ≤ raw) : roundTo decimals raw * rate.val / 100 * 10 ^ decimals =
    (commissionDigits raw rate decimals : ℚ) / 10 ^ 4 := by
  rw [roundTo_eq_digits h0, rate.val_eq, commissionDigits]
  push_cast
  field_simp
  norm_num

theorem commission_nonneg (raw : ℚ) (rate : CommissionRate) (decimals : ℕ) :
    0 ≤ roundHalfEven (ctx prec ((commissionDigits raw rate decimals : ℚ) / 10 ^ 4)) := by
  refine le_roundHalfEven_of_le ?_
  rw [Int.cast_zero]
  exact ctx_nonneg prec (by positivity)

/-- The context leaves the commission below the amount. -/
theorem commission_le (rate : CommissionRate) (hq : amountDigits raw decimals < 10 ^ prec) :
    roundHalfEven (ctx prec ((commissionDigits raw rate decimals : ℚ) / 10 ^ 4)) ≤ amountDigits raw decimals := by
  refine roundHalfEven_le_of_le (ctx_le_of_le (by norm_num [prec]) (by positivity) ?_ ?_)
  · exact ⟨amountDigits raw decimals, 0, by simp, by simpa using hq⟩
  · rw [div_le_iff₀ (by positivity)]
    exact_mod_cast commissionDigits_le raw rate decimals

/-- The commission of a quantised amount is defined: the product rounded twice. -/
theorem commissionOf_roundTo (rate : CommissionRate) (h0 : 0 ≤ raw) (hq : Quantises decimals raw) :
    commissionOf (roundTo decimals raw) rate.val decimals =
      .ok (roundHalfEven (ctx prec ((commissionDigits raw rate decimals : ℚ) / 10 ^ 4)) / 10 ^ decimals) := by
  have hle := commission_le rate ((quantises_iff_digits h0).1 hq)
  have hnonneg := commission_nonneg raw rate decimals
  have hprod : 0 ≤ roundTo decimals raw * rate.val := mul_nonneg (roundTo_nonneg h0) (by rw [rate.val_eq]; positivity)
  have hunits : ctx prec (roundTo decimals raw * rate.val / 100) * 10 ^ decimals =
      ctx prec ((commissionDigits raw rate decimals : ℚ) / 10 ^ 4) := by
    rw [← commission_units h0, ← zpow_natCast, ctx_mul_zpow prec (by positivity)]
  rw [commissionOf, quotient_times hprod, quantizeMoney_ok_iff, Quantises, hunits, roundTo.eq_def decimals (ctx _ _), hunits]
  refine ⟨?_, rfl⟩
  have hlt := (quantises_iff_digits h0).1 hq
  omega

/-- The commission taken is the exact one rounded once, but near half way. -/
theorem commission_rounds_once (h0 : 0 ≤ raw) (hq : Quantises decimals raw) :
    (roundHalfEven (ctx prec ((commissionDigits raw rate decimals : ℚ) / 10 ^ 4)) : ℚ) / 10 ^ decimals =
        roundTo decimals (roundTo decimals raw * rate.val / 100) ↔
      ¬NearTie (reach (commissionDigits raw rate decimals)) (commissionDigits raw rate decimals) := by
  have hlt := (quantises_iff_digits h0).1 hq
  have hdigits : commissionDigits raw rate decimals < 10 ^ 32 := by
    have hle := commissionDigits_le raw rate decimals
    rw [prec] at hlt
    omega
  have h10 : (10 : ℚ) ^ decimals ≠ 0 := by positivity
  rw [← roundHalfEven_ctx_digits_iff hdigits, roundTo.eq_def decimals (_ / 100), commission_units h0, div_left_inj' h10,
    Int.cast_inj]
  rfl

/-- Where `create_deal_with_topup` takes the exact commission. -/
theorem commission_exact_iff (amount : DealAmount) (rate : CommissionRate) (decimals : ℕ) :
    ExactCommission amount.val rate.val decimals ↔ Quantises decimals amount.val ∧
      ¬NearTie (reach (commissionDigits amount.val rate decimals)) (commissionDigits amount.val rate decimals) := by
  have h0 : 0 ≤ amount.val := le_trans (by norm_num) amount.min
  by_cases hq : Quantises decimals amount.val
  swap
  · refine iff_of_false ?_ fun h => hq h.1
    rintro ⟨amt, com, hamt, -⟩
    exact hq (quantizeMoney_ok_iff.1 hamt).1
  have hcom := commissionOf_roundTo rate h0 hq
  rw [and_iff_right hq, ← commission_rounds_once h0 hq]
  constructor
  · rintro ⟨amt, com, hamt, hc, heq, -, -⟩
    obtain ⟨-, rfl⟩ := quantizeMoney_ok_iff.1 hamt
    cases hcom.symm.trans hc
    exact heq
  · intro heq
    refine ⟨_, _, hq.ok, hcom, heq, ?_, ?_⟩
    · exact div_nonneg (by exact_mod_cast commission_nonneg amount.val rate decimals) (by positivity)
    · rw [roundTo_eq_digits h0, div_le_div_iff_of_pos_right (by positivity)]
      exact_mod_cast commission_le rate ((quantises_iff_digits h0).1 hq)

/-- In a deal that passes its checks, the commission is the one above. -/
theorem dealTerms_exact_iff {db : Db} {b se c : ℕ} {code : String} {cur : Currency} {buyer seller : User}
    (hb : db.users.row b = some buyer) (hs : db.users.row se = some seller)
    (hrate : resolveCommissionRate db.app_settings buyer seller = rate.val)
    (h : dealTerms db b se code (some raw) = .ok (c, cur, amt, com)) :
    com = roundTo cur.decimals (amt * rate.val / 100) ↔
      ¬NearTie (reach (commissionDigits raw rate cur.decimals)) (commissionDigits raw rate cur.decimals) := by
  simp only [dealTerms, bind_ok, orRaise_ok, raiseIf_ok, pure_ok, hb, hs, Option.some.injEq, Prod.mk.injEq] at h
  obtain ⟨_, -, _, rfl, _, rfl, ⟨c', cur'⟩, -, _, rfl, _, hraw, amt', hq, _, -, com', hcom, rfl, rfl, rfl, rfl⟩ := h
  obtain ⟨hquant, rfl⟩ := quantizeMoney_ok_iff.1 hq
  have h0 : 0 ≤ raw := (not_le.1 hraw).le
  rw [hrate] at hcom
  cases (commissionOf_roundTo rate h0 hquant).symm.trans hcom
  exact commission_rounds_once h0 hquant

end

/-! ## Where it fails -/

def sampleRate (n : ℕ) (h : n ≤ 10000) : CommissionRate :=
  ⟨⟨n, by norm_num; omega⟩, Int.natCast_nonneg n, Int.ofNat_le.2 h⟩

/-- Ten thousand million in a currency of 18 decimals cannot be quantised, and at
2.5 % of a number that can be, the commission is one unit short. -/
theorem commission_missed :
    ¬ExactCommission (10 ^ 10) (sampleRate 500 (by norm_num)).val 18 ∧
      ¬ExactCommission (4000000000000000000000000021 / 10 ^ 18) (sampleRate 250 (by norm_num)).val 18 := by
  refine ⟨?_, ?_⟩
  · rintro ⟨amt, com, hamt, -⟩
    have herr : quantizeMoney (10 ^ 10) 18 = .error .invalid_operation := by decide +kernel
    cases herr.symm.trans hamt
  · rintro ⟨amt, com, hamt, hcom, heq, -, -⟩
    have hq : quantizeMoney (4000000000000000000000000021 / 10 ^ 18) 18 =
        .ok (4000000000000000000000000021 / 10 ^ 18) := by
      decide +kernel
    cases hq.symm.trans hamt
    have hc : commissionOf (4000000000000000000000000021 / 10 ^ 18) (sampleRate 250 (by norm_num)).val 18 =
        .ok (10 ^ 26 / 10 ^ 18) := by
      decide +kernel
    cases hc.symm.trans hcom
    exact absurd heq (by decide +kernel)

end Garant
