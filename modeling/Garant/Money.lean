import Garant.Schema
import Garant.Lib.Journal
/-!
# Money

The decimal helpers of `money.py`, the balance rows, and the ledger entry
written with a balance change. Every write to a balance goes through
`changeBalance` or, where the source keeps no ledger, `writeBalance`;
`changeBalance_ok` and `writeBalance_ok` say all that either does.
-/
open Decimal Journal

namespace Garant

/-! ## Decimal helpers -/

/-- The significant digits of the default decimal context. -/
def prec : ℕ := 28

def plus (x y : ℚ) : ℚ := Decimal.add prec x y
def minus (x y : ℚ) : ℚ := Decimal.sub prec x y
def times (x y : ℚ) : ℚ := Decimal.mul prec x y
def quotient (x y : ℚ) : ℚ := Decimal.div prec x y

/-- Dividing by a hundred only moves the point, so the product is rounded once. -/
theorem quotient_times {a p : ℚ} (h : 0 ≤ a * p) : quotient (times a p) 100 = ctx prec (a * p / 100) := by
  have h100 (x : ℚ) : x / 100 = x * 10 ^ (-2 : ℤ) := by norm_num [div_eq_mul_inv]
  rw [quotient, times, Decimal.div, Decimal.mul, h100, h100, ctx_mul_zpow _ (ctx_nonneg _ h), ctx_mul_zpow _ h,
    ctx_ctx (by norm_num [prec]) h]

/-- `quantize_money`. -/
def quantizeMoney (value : ℚ) (decimals : ℕ) : Result ℚ := orRaise (quantize prec decimals value) .invalid_operation

/-- Writing a number to a money column. -/
def store (x : ℚ) : Result Money := orRaise (Numeric.ofRat 28 8 x) .numeric_overflow

def storeOpt : Option ℚ → Result (Option Money)
  | none => pure none
  | some x => do
    let v ← store x
    pure (some v)

/-- The number a money column keeps of `x`. -/
def stored (x : ℚ) : ℚ := roundHalfAway (x * 10 ^ 8) / 10 ^ 8

theorem store_stored {x : ℚ} {v : Money} (h : store x = .ok v) : v.val = stored x := by
  rw [Numeric.val, Numeric.ofRat_eq_some (orRaise_ok.1 h), stored]

theorem stored_of_grid {x : ℚ} (h : IsGrid 8 x) : stored x = x := by
  obtain ⟨n, rfl⟩ := h
  rw [stored, div_mul_cancel₀ _ (by positivity), roundHalfAway_intCast]

theorem stored_mono {x y : ℚ} (hx : 0 ≤ x) (h : x ≤ y) : stored x ≤ stored y := by
  have h10 : (0 : ℚ) < 10 ^ 8 := by positivity
  rw [stored, stored, div_le_div_iff_of_pos_right h10]
  exact_mod_cast roundHalfAway_mono (mul_nonneg hx h10.le) (mul_le_mul_of_nonneg_right h h10.le)

/-- The number fits a money column. -/
def Storable (x : ℚ) : Prop := ∃ v : Money, store x = .ok v

theorem store_val (v : Money) : store v.val = .ok v := by rw [store, Numeric.ofRat_val]; rfl

theorem storable_zero : Storable 0 := by
  have hzero : (Numeric.zero 28 8).val = 0 := by simp [Numeric.zero, Numeric.val]
  exact ⟨_, hzero ▸ store_val _⟩

theorem store_grid {x : ℚ} {v : Money} (hx : IsGrid 8 x) (h : store x = .ok v) : v.val = x :=
  Numeric.val_of_grid hx (orRaise_ok.1 h)

theorem store_nonneg {x : ℚ} {v : Money} (hx : 0 ≤ x) (h : store x = .ok v) : 0 ≤ v.val :=
  Numeric.val_nonneg hx (orRaise_ok.1 h)

/-- Storing a number gives it no more digits than it has, nor more than eight. -/
theorem store_keeps_grid {x : ℚ} {d : ℕ} {v : Money} (hx : IsGrid d x) (h : store x = .ok v) : IsGrid d v.val := by
  rcases le_total d 8 with hd | hd
  · rw [store_grid (hx.mono hd) h]
    exact hx
  · exact v.isGrid.mono hd

/-- A sum of stored numbers is stored exactly, whatever the context does to it first. -/
theorem store_plus {x y : ℚ} {v : Money} (hx : IsGrid 8 x) (hy : IsGrid 8 y) (h : store (plus x y) = .ok v) :
    v.val = x + y :=
  Numeric.val_of_ctx (by norm_num) (hx.add hy) (orRaise_ok.1 h)

theorem store_minus {x y : ℚ} {v : Money} (hx : IsGrid 8 x) (hy : IsGrid 8 y) (h : store (minus x y) = .ok v) :
    v.val = x - y :=
  Numeric.val_of_ctx (by norm_num) (hx.sub hy) (orRaise_ok.1 h)

theorem plus_zero_val (v : Money) : plus v.val 0 = v.val := by
  rw [plus, Decimal.add, add_zero]
  exact ctx_of_fits v.fits

theorem minus_zero_val (v : Money) : minus v.val 0 = v.val := by
  rw [minus, Decimal.sub, sub_zero]
  exact ctx_of_fits v.fits

/-- What is not there cannot be taken out. -/
theorem unlock_zero {x : ℚ} (hx : 0 ≤ x) : max 0 (minus 0 x) = 0 := by
  refine max_eq_left ?_
  rw [minus, Decimal.sub, zero_sub, ctx_neg]
  exact neg_nonpos.2 (ctx_nonneg _ hx)

theorem plus_nonneg {x y : ℚ} (hx : 0 ≤ x) (hy : 0 ≤ y) : 0 ≤ plus x y := ctx_nonneg _ (add_nonneg hx hy)

/-- `max(Decimal(0), x - y)` on stored numbers, when it does not clamp. -/
theorem store_unlock {x y : ℚ} {v : Money} (hx : IsGrid 8 x) (hy : IsGrid 8 y) (hle : y ≤ x)
    (h : store (max 0 (minus x y)) = .ok v) : v.val = x - y := by
  have h0 : 0 ≤ minus x y := ctx_nonneg _ (sub_nonneg.2 hle)
  rw [max_eq_right h0] at h
  exact store_minus hx hy h

theorem quantizeMoney_ok {x y : ℚ} {d : ℕ} : quantizeMoney x d = .ok y ↔ quantize prec d x = some y := orRaise_ok

theorem quantizeMoney_grid {x y : ℚ} {d : ℕ} (h : quantizeMoney x d = .ok y) : IsGrid d y :=
  quantize_grid (quantizeMoney_ok.1 h)

theorem quantizeMoney_of_grid {x y : ℚ} {d : ℕ} (hx : IsGrid d x) (h : quantizeMoney x d = .ok y) : y = x :=
  quantize_of_grid hx (quantizeMoney_ok.1 h)

theorem quantizeMoney_nonneg {x y : ℚ} {d : ℕ} (hx : 0 ≤ x) (h : quantizeMoney x d = .ok y) : 0 ≤ y :=
  quantize_nonneg hx (quantizeMoney_ok.1 h)

/-- The number, rounded to that many decimals, has no more digits than the context allows. -/
def Quantises (decimals : ℕ) (q : ℚ) : Prop := (roundHalfEven (q * 10 ^ decimals)).natAbs < 10 ^ prec

theorem quantizeMoney_ok_iff {x y : ℚ} {n : ℕ} : quantizeMoney x n = .ok y ↔ Quantises n x ∧ y = roundTo n x := by
  rw [quantizeMoney_ok, quantize, Option.ite_none_right_eq_some, Option.some.injEq]
  exact and_congr_right fun _ => eq_comm

theorem Quantises.ok {x : ℚ} {n : ℕ} (h : Quantises n x) : quantizeMoney x n = .ok (roundTo n x) :=
  quantizeMoney_ok_iff.2 ⟨h, rfl⟩

theorem quantises_of_ok {x y : ℚ} {n : ℕ} (h : quantizeMoney x n = .ok y) : Quantises n x := (quantizeMoney_ok_iff.1 h).1

theorem Quantises.mono {x y : ℚ} {n : ℕ} (hx : 0 ≤ x) (hxy : x ≤ y) (h : Quantises n y) : Quantises n x := by
  have h10 : (0 : ℚ) ≤ 10 ^ n := by positivity
  have h0 : 0 ≤ roundHalfEven (x * 10 ^ n) := le_roundHalfEven_of_le (by simpa using mul_nonneg hx h10)
  have hle : roundHalfEven (x * 10 ^ n) ≤ roundHalfEven (y * 10 ^ n) :=
    roundHalfEven_mono (mul_le_mul_of_nonneg_right hxy h10)
  unfold Quantises at h ⊢
  omega

/-- The range of the money column. -/
theorem val_lt_range (v : Money) : -10 ^ 20 < v.val ∧ v.val < 10 ^ 20 := by
  have h10 : (0 : ℚ) < 10 ^ 8 := by positivity
  have hb := v.bound
  have hlo : (-10 ^ 28 : ℤ) < v.units := by omega
  have hhi : v.units < (10 ^ 28 : ℤ) := by omega
  constructor
  · rw [Numeric.val, lt_div_iff₀ h10]
    norm_num
    exact_mod_cast hlo
  · rw [Numeric.val, div_lt_iff₀ h10]
    norm_num
    exact_mod_cast hhi

/-- Numbers of at most eight decimals within the range are stored. -/
theorem store_of_lt {x : ℚ} (hx : IsGrid 8 x) (hlo : -10 ^ 20 < x) (hhi : x < 10 ^ 20) : ∃ v, store x = .ok v := by
  obtain ⟨n, rfl⟩ := hx
  have h10 : (0 : ℚ) < 10 ^ 8 := by positivity
  have hlo' : (-10 ^ 28 : ℤ) < n := by
    rw [lt_div_iff₀ h10] at hlo
    norm_num at hlo
    exact_mod_cast hlo
  have hhi' : n < (10 ^ 28 : ℤ) := by
    rw [div_lt_iff₀ h10] at hhi
    norm_num at hhi
    exact_mod_cast hhi
  have hfit : n.natAbs < 10 ^ 28 := by omega
  exact ⟨⟨n, hfit⟩, store_val ⟨n, hfit⟩⟩

/-- And they are exact in the context. -/
theorem fits_of_lt {x : ℚ} (hx : IsGrid 8 x) (hlo : -10 ^ 20 < x) (hhi : x < 10 ^ 20) : Fits prec x := by
  obtain ⟨v, hv⟩ := store_of_lt hx hlo hhi
  rw [← store_grid hx hv]
  exact v.fits

/-- Rounding a stored amount gives an amount that can be stored. -/
theorem roundTo_money_grid (n : ℕ) (x : Money) : IsGrid 8 (roundTo n x.val) := by
  rcases le_total n 8 with hn | hn
  · exact (roundTo_grid n _).mono hn
  · rw [roundTo_of_grid (x.isGrid.mono hn)]
    exact x.isGrid

/-- A number of at most eight fractional digits below a stored one needs no rounding. -/
theorem fits_of_le {a : Money} {g : ℚ} (hg : IsGrid 8 g) (h0 : 0 ≤ g) (hle : g ≤ a.val) : Fits prec g := by
  obtain ⟨n, rfl⟩ := hg
  have h10 : (0 : ℚ) < 10 ^ 8 := by positivity
  have hn : 0 ≤ n := by
    have hn : (0 : ℚ) ≤ n := by
      rw [← zero_div (10 ^ 8), div_le_div_iff_of_pos_right h10] at h0
      exact h0
    exact_mod_cast hn
  have hna : n ≤ a.units := by
    rw [Numeric.val, div_le_div_iff_of_pos_right h10] at hle
    exact_mod_cast hle
  refine fits_of_grid ?_
  have hbound := a.bound
  unfold prec
  omega

/-- Storing a number does not bring it below a number that can be stored. -/
theorem le_store {g x : ℚ} {v : Money} (hg : IsGrid 8 g) (h0 : 0 ≤ g) (hle : g ≤ x) (h : store x = .ok v) : g ≤ v.val := by
  obtain ⟨n, rfl⟩ := hg
  have h10 : (0 : ℚ) < 10 ^ 8 := by positivity
  have hn : 0 ≤ n := by
    have hn : (0 : ℚ) ≤ n := by
      rw [← zero_div (10 ^ 8), div_le_div_iff_of_pos_right h10] at h0
      exact h0
    exact_mod_cast hn
  have hunits : n ≤ v.units := by
    rw [Numeric.ofRat_eq_some (orRaise_ok.1 h)]
    exact le_roundHalfAway_of_le hn ((div_le_iff₀ h10).1 hle)
  rw [Numeric.val, div_le_div_iff_of_pos_right h10]
  exact_mod_cast hunits

/-- Adding what is not negative to a stored number does not lower it. -/
theorem le_plus {a : Money} {x : ℚ} (ha : 0 ≤ a.val) (hx : 0 ≤ x) : a.val ≤ plus a.val x :=
  le_ctx_of_le (by norm_num [prec]) a.fits ha (le_add_of_nonneg_right hx)

/-! ## Currencies -/

/-- `get_currency_by_code`: the active currency with that code, and its key. -/
def getCurrencyByCode (db : Db) (code : String) : Result (ℕ × Currency) :=
  match db.currencies.ids fun c => c.code == code.toUpper && c.is_active with
  | [] => .error (.http 404 ("Валюта " ++ code ++ " не поддерживается"))
  | i :: _ => do
    let c ← orRaise (db.currencies.row i) .no_result
    pure (i, c)

theorem getCurrencyByCode_ok {db : Db} {code : String} {i : ℕ} {c : Currency}
    (h : getCurrencyByCode db code = .ok (i, c)) : db.currencies.row i = some c := by
  unfold getCurrencyByCode at h
  split at h
  · cases h
  · obtain ⟨c', hc, hp⟩ := bind_ok.1 h
    obtain ⟨rfl, rfl⟩ := Prod.mk.inj (pure_ok.1 hp)
    exact orRaise_ok.1 hc

/-! ## Balances -/

def UserBalance.zero : UserBalance := ⟨Numeric.zero 28 8, Numeric.zero 28 8⟩

/-- The user's funds in a currency; no row means none. -/
def Db.balance (db : Db) (user_id currency_id : ℕ) : UserBalance :=
  (db.user_balances user_id currency_id).getD UserBalance.zero

def Db.setBalance (db : Db) (user_id currency_id : ℕ) (bal : UserBalance) : Db :=
  { db with user_balances := fun u c => if u = user_id ∧ c = currency_id then some bal else db.user_balances u c }

theorem balance_setBalance (db : Db) (u c : ℕ) (bal : UserBalance) (v d : ℕ) :
    (db.setBalance u c bal).balance v d = if v = u ∧ d = c then bal else db.balance v d := by
  simp only [Db.balance, Db.setBalance]
  split <;> rfl

/-- `lock_user_balance`: the row, created empty if there is none. -/
def lockUserBalance (db : Db) (user_id currency_id : ℕ) : Db :=
  match db.user_balances user_id currency_id with
  | some _ => db
  | none => db.setBalance user_id currency_id UserBalance.zero

/-- The flush of `bal.amount = …; bal.locked = …`. -/
def writeBalance (db : Db) (user_id currency_id : ℕ) (amount locked : ℚ) : Result Db := do
  let amount ← store amount
  let locked ← store locked
  pure (db.setBalance user_id currency_id ⟨amount, locked⟩)

/-- What a ledger entry says about its cause. -/
structure LedgerRef where
  event_type : String
  source_type : String
  source_id : Option ℕ
  provider : Option WalletDepositProvider
  provider_event_id : Option String

/-- `record_balance_ledger`: nothing is written when neither number moved. -/
def recordBalanceLedger (db : Db) (user_id currency_id : ℕ)
    (before_amount before_locked after_amount after_locked : ℚ) (ref : LedgerRef) : Result Db :=
  if minus after_amount before_amount = 0 ∧ minus after_locked before_locked = 0 then pure db
  else do
    let amount_before ← store before_amount
    let amount_delta ← store (minus after_amount before_amount)
    let amount_after ← store after_amount
    let locked_before ← store before_locked
    let locked_delta ← store (minus after_locked before_locked)
    let locked_after ← store after_locked
    pure { db with
      wallet_ledger_entries := db.wallet_ledger_entries ++ [
        { user_id, currency_id, event_type := ref.event_type, source_type := ref.source_type,
          source_id := ref.source_id, provider := ref.provider, provider_event_id := ref.provider_event_id,
          amount_before, amount_delta, amount_after, locked_before, locked_delta, locked_after }] }

/-- A balance change with its ledger entry: the locked row is read, written
with the new numbers, and the move is recorded. -/
def changeBalance (db : Db) (user_id currency_id : ℕ) (amount locked : ℚ) (ref : LedgerRef) : Result Db := do
  let before := db.balance user_id currency_id
  let db ← writeBalance (lockUserBalance db user_id currency_id) user_id currency_id amount locked
  recordBalanceLedger db user_id currency_id before.amount.val before.locked.val amount locked ref

theorem balance_lockUserBalance (db : Db) (u c v d : ℕ) : (lockUserBalance db u c).balance v d = db.balance v d := by
  unfold lockUserBalance
  split
  · rfl
  · rename_i h
    rw [balance_setBalance]
    split
    · rename_i hv
      rw [hv.1, hv.2, Db.balance, h, Option.getD_none]
    · rfl

theorem setBalance_lockUserBalance (db : Db) (u c : ℕ) (bal : UserBalance) :
    (lockUserBalance db u c).setBalance u c bal = db.setBalance u c bal := by
  unfold lockUserBalance
  split
  · rfl
  · simp only [Db.setBalance]
    congr 1
    funext v d
    split <;> rfl

/-- The event of the entries that record the trust balance, which has no row of its own. -/
def trustEvent : String := "deposit.trust_credit"

/-- The ledger entries one change of a balance leaves: none if it changed
nothing, else one from the old numbers to the new. -/
def Records (es : List WalletLedgerEntry) (u c : ℕ) (old new : UserBalance) : Prop :=
  (es = [] ∧ new = old) ∨
    ∃ e : WalletLedgerEntry, es = [e] ∧ e.user_id = u ∧ e.currency_id = c ∧ e.event_type ≠ trustEvent ∧
      (⟨e.amount_before, e.locked_before⟩ : UserBalance) = old ∧ (⟨e.amount_after, e.locked_after⟩ : UserBalance) = new

/-- Only the balance of `u` in `c` moved, to `bal`, and the move was recorded unless it was silent. -/
structure Moved (silent : Prop) (db db' : Db) (u c : ℕ) (bal : UserBalance) : Prop where
  balance : ∀ v d, db'.balance v d = if v = u ∧ d = c then bal else db.balance v d
  ledger : silent ∨ ∃ es, Records es u c (db.balance u c) bal ∧
    db'.wallet_ledger_entries = db.wallet_ledger_entries ++ es
  deals : db'.deals = db.deals
  deposits : db'.wallet_deposits = db.wallet_deposits
  withdrawals : db'.wallet_withdrawals = db.wallet_withdrawals
  currencies : db'.currencies = db.currencies
  users : db'.users = db.users

theorem Moved.mono {P Q : Prop} {db db' : Db} {u c : ℕ} {bal : UserBalance} (h : Moved P db db' u c bal) (hpq : P → Q) :
    Moved Q db db' u c bal :=
  { h with ledger := h.ledger.imp_left hpq }

theorem writeBalance_ok {db db' : Db} {u c : ℕ} {amount locked : ℚ} (h : writeBalance db u c amount locked = .ok db') :
    ∃ bal : UserBalance, store amount = .ok bal.amount ∧ store locked = .ok bal.locked ∧ db' = db.setBalance u c bal := by
  obtain ⟨a, ha, h⟩ := bind_ok.1 h
  obtain ⟨l, hl, h⟩ := bind_ok.1 h
  exact ⟨⟨a, l⟩, ha, hl, (pure_ok.1 h).symm⟩

/-- A write with no ledger entry is silent, unless it changed nothing. -/
theorem setBalance_moved (db : Db) (u c : ℕ) (bal : UserBalance) :
    Moved (bal ≠ db.balance u c) db (db.setBalance u c bal) u c bal := by
  refine ⟨balance_setBalance db u c bal, ?_, rfl, rfl, rfl, rfl, rfl⟩
  by_cases hb : bal = db.balance u c
  · exact .inr ⟨[], .inl ⟨rfl, hb⟩, by simp [Db.setBalance]⟩
  · exact .inl hb

theorem writeBalance_moved {db db' : Db} {u c : ℕ} {amount locked : ℚ}
    (h : writeBalance (lockUserBalance db u c) u c amount locked = .ok db') :
    ∃ bal : UserBalance, store amount = .ok bal.amount ∧ store locked = .ok bal.locked ∧
      Moved (bal ≠ db.balance u c) db db' u c bal := by
  obtain ⟨bal, ha, hl, rfl⟩ := writeBalance_ok h
  rw [setBalance_lockUserBalance]
  exact ⟨bal, ha, hl, setBalance_moved db u c bal⟩

/-- Nothing moved. -/
theorem Moved.refl (db : Db) (u c : ℕ) : Moved False db db u c (db.balance u c) := by
  refine ⟨?_, .inr ⟨[], .inl ⟨rfl, rfl⟩, by simp⟩, rfl, rfl, rfl, rfl, rfl⟩
  intro v d
  split
  · rename_i h
    rw [h.1, h.2]
  · rfl

/-- The context rounds only zero to zero, so a move that the ledger skips is no move. -/
theorem minus_eq_zero {x y : ℚ} : minus x y = 0 ↔ x = y := by
  constructor
  · intro h
    by_contra hne
    have hpos : 0 < |x - y| := abs_pos.2 (sub_ne_zero.2 hne)
    have hle := zpow_le_ctx (p := prec) (by norm_num [prec]) (zpow_log_le hpos)
    rw [ctx_abs, show ctx prec (x - y) = 0 from h, abs_zero] at hle
    exact absurd hle (not_le.2 (zpow_pos (by norm_num) _))
  · rintro rfl
    simp [minus, Decimal.sub]

theorem store_avoids {e : Exc} (he : e ≠ .numeric_overflow) (q : ℚ) : Avoids e (store q) := .orRaise he.symm

/-- All that can go wrong with storing a number. -/
theorem store_error {x : ℚ} {e : Exc} (h : store x = .error e) : e = .numeric_overflow := by
  by_contra he
  exact store_avoids he x h

/-- A balance change fails only where a number does not fit its column. -/
theorem changeBalance_avoids {db : Db} {u c : ℕ} {x y : ℚ} {ref : LedgerRef} {e : Exc} (he : e ≠ .numeric_overflow) :
    Avoids e (changeBalance db u c x y ref) := by
  refine Avoids.bind ?_ fun db₁ _ => ?_
  · exact (store_avoids he x).bind fun _ _ => (store_avoids he y).bind fun _ _ => .pure _
  · unfold recordBalanceLedger
    split
    · exact .pure _
    · exact (store_avoids he _).bind fun _ _ => (store_avoids he _).bind fun _ _ => (store_avoids he _).bind fun _ _ =>
        (store_avoids he _).bind fun _ _ => (store_avoids he _).bind fun _ _ => (store_avoids he _).bind fun _ _ => .pure _

/-- A change of a balance goes through when both new numbers fit their columns,
and so do the two changes in the ledger entry. -/
theorem changeBalance_isOk_iff {db : Db} {u c : ℕ} {amount locked : ℚ} {ref : LedgerRef} :
    (∃ db', changeBalance db u c amount locked ref = .ok db') ↔ Storable amount ∧ Storable locked ∧
      Storable (minus amount (db.balance u c).amount.val) ∧ Storable (minus locked (db.balance u c).locked.val) := by
  constructor
  · rintro ⟨db', h⟩
    obtain ⟨db₁, hw, hr⟩ := bind_ok.1 h
    simp only [writeBalance, bind_ok] at hw
    obtain ⟨a, ha, l, hl, -⟩ := hw
    refine ⟨⟨a, ha⟩, ⟨l, hl⟩, ?_⟩
    unfold recordBalanceLedger at hr
    split at hr
    · next hzero =>
      rw [hzero.1, hzero.2]
      exact ⟨storable_zero, storable_zero⟩
    · simp only [bind_ok] at hr
      obtain ⟨-, -, da, hda, -, -, -, -, dl, hdl, -⟩ := hr
      exact ⟨⟨da, hda⟩, ⟨dl, hdl⟩⟩
  · rintro ⟨⟨a, ha⟩, ⟨l, hl⟩, ⟨da, hda⟩, ⟨dl, hdl⟩⟩
    simp only [changeBalance, writeBalance, recordBalanceLedger, ha, hl, hda, hdl, store_val, ok_bind]
    split
    · exact ⟨_, rfl⟩
    · exact ⟨_, rfl⟩

/-- All that `changeBalance` does. -/
theorem changeBalance_ok {db db' : Db} {u c : ℕ} {amount locked : ℚ} {ref : LedgerRef}
    (hev : ref.event_type ≠ trustEvent) (h : changeBalance db u c amount locked ref = .ok db') :
    ∃ bal : UserBalance, store amount = .ok bal.amount ∧ store locked = .ok bal.locked ∧
      Moved False db db' u c bal := by
  obtain ⟨db₁, hw, hr⟩ := bind_ok.1 h
  obtain ⟨bal, ha, hl, rfl⟩ := writeBalance_ok hw
  refine ⟨bal, ha, hl, ?_⟩
  rw [setBalance_lockUserBalance] at hr
  unfold recordBalanceLedger at hr
  split at hr
  · -- nothing moved: the stored numbers are the old ones
    rename_i h0
    rw [minus_eq_zero.1 h0.1, store_val] at ha
    rw [minus_eq_zero.1 h0.2, store_val] at hl
    obtain rfl := pure_ok.1 hr
    refine ⟨balance_setBalance db u c bal, .inr ⟨[], .inl ⟨rfl, ?_⟩, by simp [Db.setBalance]⟩, rfl, rfl, rfl, rfl, rfl⟩
    cases bal
    cases ha
    cases hl
    rfl
  · simp only [bind_ok, pure_ok] at hr
    obtain ⟨ab, hab, ad, -, aa, haa, lb, hlb, ld, -, la, hla, rfl⟩ := hr
    rw [store_val, Except.ok.injEq] at hab hlb
    rw [ha, Except.ok.injEq] at haa
    rw [hl, Except.ok.injEq] at hla
    subst hab hlb haa hla
    exact ⟨balance_setBalance db u c bal, .inr ⟨_, .inr ⟨_, rfl, rfl, rfl, hev, rfl, rfl⟩, rfl⟩, rfl, rfl, rfl, rfl, rfl⟩

end Garant
