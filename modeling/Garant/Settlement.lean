import Garant.Commission
import Garant.Escrow
/-!
# Settling a deal

The nine ways a deal's locked funds are paid out. Each takes exactly the amount
out of the buyer's locked funds and credits the party it names (`Paid`); a
split does so when its product of amount and percentage is `SplitExact`. A forced
settlement may instead wait for approval and change nothing. A deal that has been
settled moves no funds again, whatever is tried on it.
-/
open Decimal Relation

namespace Garant

/-- The operations that pay out a deal. -/
inductive SettlingOp
  | finish (user_id : ℕ) (now : Time)
  | decline (user_id : ℕ) (now : Time)
  | acceptCancel (user_id : ℕ) (now : Time)
  | resolve (admin_id : ℕ) (winner note : String) (now : Time)
  | inactivity (now : Time)
  | forceRelease (admin_id : ℕ) (reason : Option String) (approval_id : Option ℕ) (now : Time)
  | forceRefund (admin_id : ℕ) (reason : Option String) (approval_id : Option ℕ) (now : Time)
  | split (admin_id : ℕ) (body : BodyDecimal) (reason : Option String) (approval_id : Option ℕ) (now : Time)
  | delete

/-- The part of `sweep_inactivity` about one deal, for a deal it picks. -/
def sweepPicked (db : Db) (deal_id : ℕ) (now : Time) : Result Db := do
  let deal ← getDeal db deal_id
  raiseIf (inactive db.app_settings now deal = false) .no_result
  sweepInactivityDeal now db deal_id

def SettlingOp.run (db : Db) (deal_id : ℕ) : SettlingOp → Result Db
  | .finish u now => finishDeal db deal_id u now
  | .decline u now => declineDeal db deal_id u now
  | .acceptCancel u now => Garant.acceptCancel db deal_id u now
  | .resolve a winner note now => resolveArbitration db deal_id a winner note now
  | .inactivity now => sweepPicked db deal_id now
  | .forceRelease a reason approval now => Garant.forceRelease db deal_id a reason approval now
  | .forceRefund a reason approval now => Garant.forceRefund db deal_id a reason approval now
  | .split a p reason approval now => splitDeal db deal_id a p reason approval now
  | .delete => deleteDeal db deal_id

/-- The way the funds go, for all but a deletion. -/
inductive SettlingOp.Flows (db : Db) (d : Deal) : SettlingOp → Flow → Prop
  | finish {u : ℕ} {now : Time} : Flows db d (.finish u now) .release
  | decline {u : ℕ} {now : Time} : Flows db d (.decline u now) .refund
  | acceptCancel {u : ℕ} {now : Time} : Flows db d (.acceptCancel u now) .refund
  | resolve {a : ℕ} {winner note : String} {now : Time} : Flows db d (.resolve a winner note now) (winnerFlow winner)
  | inactivity {now : Time} : Flows db d (.inactivity now) .refund
  | forceRelease {a : ℕ} {r : Option String} {k : Option ℕ} {now : Time} : Flows db d (.forceRelease a r k now) .release
  | forceRefund {a : ℕ} {r : Option String} {k : Option ℕ} {now : Time} : Flows db d (.forceRefund a r k now) .refund
  | split {a : ℕ} {raw : BodyDecimal} {p share amt : ℚ} {cur : Currency} {r : Option String} {k : Option ℕ} {now : Time}
      (hp : percentOk raw = .ok p) (hc : db.currencies.row d.currency_id = some cur) (hq : Quantised db d amt)
      (hs : buyerShare amt p cur.decimals = .ok share) : Flows db d (.split a raw r k now) (.split share)

/-- The end of a deletion of an active deal: the funds are the buyer's again, and the row is gone. -/
structure Deleted (db db' : Db) (i : ℕ) (d : Deal) : Prop where
  row : db.deals.row i = some d
  active : isActiveForMoneyMovement d.status = true
  paid : ∃ amt bal db₁, Quantised db d amt ∧
    store (plus (db.balance d.buyer_id d.currency_id).amount.val amt) = .ok bal.amount ∧
    store (max 0 (minus (db.balance d.buyer_id d.currency_id).locked.val amt)) = .ok bal.locked ∧
    Moved (bal ≠ db.balance d.buyer_id d.currency_id) db db₁ d.buyer_id d.currency_id bal ∧ db' = removeDeal db₁ i

/-- The operations that may have to wait for approval. -/
def SettlingOp.Gated : SettlingOp → Prop
  | .forceRelease .. | .forceRefund .. | .split .. => True
  | _ => False

/-- The operation waits for approval: at most a request was written. -/
def HeldForApproval (op : SettlingOp) (db db' : Db) : Prop :=
  op.Gated ∧ ∃ t, db' = { db with admin_approval_requests := t }

/-- What one of these operations did: it waits for approval, it passed over a deal whose
currency is gone, a deletion with no refund, a payout, or a deletion with one. -/
inductive Outcome (op : SettlingOp) (db db' : Db) (i : ℕ) : Prop
  | held (h : HeldForApproval op db db')
  | passed {d : Deal} (hr : db.deals.row i = some d) (hc : db.currencies.row d.currency_id = none) (h : db' = db)
  | dropped {d : Deal} (hop : op = .delete) (hr : db.deals.row i = some d)
      (hb : ∀ u c, db'.balance u c = db.balance u c) (hd : db'.deals = db.deals.erase i)
      (ha : isActiveForMoneyMovement d.status = false ∨ db.currencies.row d.currency_id = none)
  | settled {d : Deal} {flow : Flow} (h : Settled db db' i d flow) (hf : op.Flows db d flow)
  | deleted {d : Deal} (h : Deleted db db' i d) (hop : op = .delete)

section
variable {op : SettlingOp} {db db₁ db' : Db} {i : ℕ} {d : Deal} {cur : Currency} {now : Time}

theorem sweepPicked_ok (h : sweepPicked db i now = .ok db') :
    ∃ d, db.deals.row i = some d ∧ (Settled db db' i d .refund ∨ db.currencies.row d.currency_id = none ∧ db' = db) := by
  simp only [sweepPicked, getDeal, bind_ok, orRaise_ok, raiseIf_ok] at h
  obtain ⟨d, hr, _, hp, h⟩ := h
  exact ⟨d, hr, sweepInactivityDeal_ok hr (inactive_active (by simpa using hp)) h⟩

/-- One case for each operation. -/
theorem SettlingOp.outcome (h : op.run db i = .ok db') : Outcome op db db' i := by
  cases op with
  | finish u now =>
    obtain ⟨d, hs⟩ := finishDeal_ok h
    exact .settled hs .finish
  | decline u now =>
    obtain ⟨d, hs⟩ := declineDeal_ok h
    exact .settled hs .decline
  | acceptCancel u now =>
    obtain ⟨d, hs⟩ := acceptCancel_ok h
    exact .settled hs .acceptCancel
  | resolve a winner note now =>
    obtain ⟨d, hs⟩ := resolveArbitration_ok h
    exact .settled hs .resolve
  | inactivity now =>
    obtain ⟨d, hr, hs | ⟨hc, hsame⟩⟩ := sweepPicked_ok h
    · exact .settled hs .inactivity
    · exact .passed hr hc hsame
  | forceRelease a reason approval now =>
    rcases forceRelease_ok h with ht | ⟨d, hs⟩
    · exact .held ⟨trivial, ht⟩
    · exact .settled hs .forceRelease
  | forceRefund a reason approval now =>
    rcases forceRefund_ok h with ht | ⟨d, hs⟩
    · exact .held ⟨trivial, ht⟩
    · exact .settled hs .forceRefund
  | split a raw reason approval now =>
    rcases splitDeal_ok h with ht | ⟨d, amt, c, p, share, hp, hc, hq, hshare, hs⟩
    · exact .held ⟨trivial, ht⟩
    · exact .settled hs (.split hp hc ⟨c, hc, hq⟩ hshare)
  | delete =>
    obtain ⟨d, hr, ⟨ha, rfl⟩ | ⟨ha, hpaid⟩⟩ := deleteDeal_ok h
    · exact .dropped rfl hr (fun _ _ => rfl) rfl ha
    · exact .deleted ⟨hr, ha, hpaid⟩ rfl

/-! ## What is paid -/

/-- The deal's amount left the buyer's locked funds, `xb` went to the buyer and
`xs` to the seller, nothing else moved, and nothing is negative. -/
structure Paid (db db' : Db) (d : Deal) (xb xs : ℚ) : Prop where
  buyer_amount : (db'.balance d.buyer_id d.currency_id).amount.val =
    (db.balance d.buyer_id d.currency_id).amount.val + xb
  buyer_locked : (db'.balance d.buyer_id d.currency_id).locked.val =
    (db.balance d.buyer_id d.currency_id).locked.val - d.amount.val
  seller_amount : (db'.balance d.seller_id d.currency_id).amount.val =
    (db.balance d.seller_id d.currency_id).amount.val + xs
  seller_locked : (db'.balance d.seller_id d.currency_id).locked = (db.balance d.seller_id d.currency_id).locked
  total : (db'.balance d.buyer_id d.currency_id).amount.val + (db'.balance d.buyer_id d.currency_id).locked.val +
      ((db'.balance d.seller_id d.currency_id).amount.val + (db'.balance d.seller_id d.currency_id).locked.val) =
    (db.balance d.buyer_id d.currency_id).amount.val + (db.balance d.buyer_id d.currency_id).locked.val +
      ((db.balance d.seller_id d.currency_id).amount.val + (db.balance d.seller_id d.currency_id).locked.val)
  others : ∀ u c, ¬(c = d.currency_id ∧ (u = d.buyer_id ∨ u = d.seller_id)) → db'.balance u c = db.balance u c
  nonneg : ∀ u c, 0 ≤ (db'.balance u c).amount.val ∧ 0 ≤ (db'.balance u c).locked.val

/-- No balance is negative. -/
def NonNegative (db : Db) : Prop := ∀ u c, 0 ≤ (db.balance u c).amount.val ∧ 0 ≤ (db.balance u c).locked.val

/-- The two moves of a settlement, the second of which may be none. -/
theorem paid_of_moves {P : Prop} {b s : UserBalance} {xb xs : ℚ} (hnn : NonNegative db)
    (hne : d.buyer_id ≠ d.seller_id) (h₁ : Moved P db db₁ d.buyer_id d.currency_id b)
    (h₂ : ∀ u c, db'.balance u c = if u = d.seller_id ∧ c = d.currency_id then s else db₁.balance u c)
    (hba : b.amount.val = (db.balance d.buyer_id d.currency_id).amount.val + xb)
    (hbl : b.locked.val = (db.balance d.buyer_id d.currency_id).locked.val + -d.amount.val)
    (hle : d.amount.val ≤ (db.balance d.buyer_id d.currency_id).locked.val)
    (hsa : s.amount.val = (db.balance d.seller_id d.currency_id).amount.val + xs)
    (hsl : s.locked = (db.balance d.seller_id d.currency_id).locked) (hxb : 0 ≤ xb) (hxs : 0 ≤ xs)
    (hsum : xb + xs = d.amount.val) : Paid db db' d xb xs := by
  have hb : db'.balance d.buyer_id d.currency_id = b := by
    rw [h₂, if_neg (fun h => hne h.1), h₁.balance, if_pos ⟨rfl, rfl⟩]
  have hs : db'.balance d.seller_id d.currency_id = s := by rw [h₂, if_pos ⟨rfl, rfl⟩]
  have hother : ∀ u c, ¬(c = d.currency_id ∧ (u = d.buyer_id ∨ u = d.seller_id)) → db'.balance u c = db.balance u c := by
    intro u c huc
    rw [h₂, if_neg (fun h => huc ⟨h.2, .inr h.1⟩), h₁.balance, if_neg (fun h => huc ⟨h.2, .inl h.1⟩)]
  refine ⟨by rw [hb, hba], by rw [hb, hbl, sub_eq_add_neg], by rw [hs, hsa], by rw [hs, hsl], ?_, hother, ?_⟩
  · rw [hb, hs, hba, hbl, hsa, hsl]
    linarith
  · intro u c
    by_cases huc : c = d.currency_id ∧ (u = d.buyer_id ∨ u = d.seller_id)
    · obtain ⟨rfl, rfl | rfl⟩ := huc
      · rw [hb, hba, hbl]
        exact ⟨add_nonneg (hnn _ _).1 hxb, by linarith⟩
      · rw [hs, hsa, hsl]
        exact ⟨add_nonneg (hnn _ _).1 hxs, (hnn _ _).2⟩
    · rw [hother u c huc]
      exact hnn u c

theorem Paid.transport {db₂ : Db} {xb xs : ℚ} (h : Paid db db₁ d xb xs)
    (hb : ∀ u c, db₂.balance u c = db₁.balance u c) : Paid db db₂ d xb xs := by
  obtain ⟨h1, h2, h3, h4, h5, h6, h7⟩ := h
  refine ⟨by rw [hb, h1], by rw [hb, h2], by rw [hb, h3], by rw [hb, h4], by rw [hb, hb, h5], ?_, ?_⟩
  · intro u c huc
    rw [hb, h6 u c huc]
  · intro u c
    rw [hb]
    exact h7 u c

/-- No second move. -/
theorem balance_same (db : Db) (s e : ℕ) (u c : ℕ) :
    db.balance u c = if u = s ∧ c = e then db.balance s e else db.balance u c := by
  split
  · rename_i h
    rw [h.1, h.2]
  · rfl

/-- What the deal is about, before it is settled. -/
structure Held (db : Db) (d : Deal) (cur : Currency) : Prop where
  parties : d.buyer_id ≠ d.seller_id
  currency : db.currencies.row d.currency_id = some cur
  grid : IsGrid cur.decimals d.amount.val
  amount : 0 ≤ d.amount.val
  locked : d.amount.val ≤ (db.balance d.buyer_id d.currency_id).locked.val
  nonneg : NonNegative db

theorem Held.quantised {amt : ℚ} (h : Held db d cur) (hq : Quantised db d amt) : amt = d.amount.val :=
  DealOk.quantised ⟨h.amount, cur, h.currency, h.grid⟩ hq

theorem credit_exact {a A x : Money} (h : store (plus A.val x.val) = .ok a) : a.val = A.val + x.val :=
  store_plus (Numeric.isGrid _) (Numeric.isGrid _) h

/-- All to the buyer. -/
theorem Held.refund {P : Prop} {b : UserBalance} (hh : Held db d cur)
    (hm : Moved P db db₁ d.buyer_id d.currency_id b)
    (ha : store (plus (db.balance d.buyer_id d.currency_id).amount.val d.amount.val) = .ok b.amount)
    (hl : store (max 0 (minus (db.balance d.buyer_id d.currency_id).locked.val d.amount.val)) = .ok b.locked) :
    Paid db db₁ d d.amount.val 0 := by
  refine paid_of_moves hh.nonneg hh.parties hm (balance_same db₁ d.seller_id d.currency_id) (credit_exact ha)
    (unlock_exact hh.locked hl) hh.locked ?_ ?_ hh.amount le_rfl (add_zero _)
  · rw [hm.balance, if_neg (fun h => hh.parties h.1.symm), add_zero]
  · rw [hm.balance, if_neg (fun h => hh.parties h.1.symm)]

/-- The seller's side, when the first move was the buyer's. -/
theorem Held.credit_seller {P : Prop} {b : UserBalance} {x : ℚ} {r : LedgerRef} (hh : Held db d cur)
    (hev : r.event_type ≠ trustEvent) (h₁ : Moved P db db₁ d.buyer_id d.currency_id b)
    (h₂ : creditAmount db₁ d.seller_id d.currency_id x r = .ok db') :
    ∃ s : UserBalance,
      (∀ u c, db'.balance u c = if u = d.seller_id ∧ c = d.currency_id then s else db₁.balance u c) ∧
        s.locked = (db.balance d.seller_id d.currency_id).locked ∧
          store (plus (db.balance d.seller_id d.currency_id).amount.val x) = .ok s.amount := by
  obtain ⟨s, hm, hl, ha⟩ := creditAmount_ok hev h₂
  have hs : db₁.balance d.seller_id d.currency_id = db.balance d.seller_id d.currency_id := by
    rw [h₁.balance, if_neg (fun h => hh.parties h.1.symm)]
  rw [hs] at hl ha
  exact ⟨s, hm.balance, hl, ha⟩

/-- All to the seller. -/
theorem Held.release {r₁ r₂ : LedgerRef} (hh : Held db d cur) (hr₁ : r₁.event_type ≠ trustEvent)
    (hr₂ : r₂.event_type ≠ trustEvent) (h₁ : dropLocked db d.buyer_id d.currency_id d.amount.val r₁ = .ok db₁)
    (h₂ : creditAmount db₁ d.seller_id d.currency_id d.amount.val r₂ = .ok db') : Paid db db' d 0 d.amount.val := by
  obtain ⟨b, hm, hba, hbl⟩ := dropLocked_ok hr₁ h₁
  obtain ⟨s, hs, hsl, hsa⟩ := hh.credit_seller hr₂ hm h₂
  refine paid_of_moves hh.nonneg hh.parties hm hs ?_ (unlock_exact hh.locked hbl) hh.locked (credit_exact hsa) hsl
    le_rfl hh.amount (zero_add _)
  rw [hba, add_zero]

/-- What is left of an amount after a share of at most eight fractional digits is exact. -/
theorem minus_exact {a : Money} {y : ℚ} (hy : IsGrid 8 y) (h0 : 0 ≤ y) (hle : y ≤ a.val) : minus a.val y = a.val - y := by
  have hfit : Fits prec (a.val - y) := fits_of_le (a := a) (a.isGrid.sub hy) (sub_nonneg.2 hle) (sub_le_self _ h0)
  rw [minus, Decimal.sub, ctx_of_fits hfit]

/-- A share of at most eight fractional digits is paid exactly, and the rest to the seller. -/
theorem Held.split {y : ℚ} {r₁ r₂ : LedgerRef} (hh : Held db d cur) (hr₁ : r₁.event_type ≠ trustEvent)
    (hr₂ : r₂.event_type ≠ trustEvent) (hy : IsGrid 8 y) (h0 : 0 ≤ y) (hle : y ≤ d.amount.val)
    (h₁ : unlockAndCredit db d.buyer_id d.currency_id d.amount.val y r₁ = .ok db₁)
    (h₂ : creditAmount db₁ d.seller_id d.currency_id (minus d.amount.val y) r₂ = .ok db') :
    Paid db db' d y (d.amount.val - y) := by
  obtain ⟨b, hm, hba, hbl⟩ := unlockAndCredit_ok hr₁ h₁
  obtain ⟨s, hs, hsl, hsa⟩ := hh.credit_seller hr₂ hm h₂
  rw [minus_exact hy h0 hle] at hsa
  refine paid_of_moves hh.nonneg hh.parties hm hs (store_plus (Numeric.isGrid _) hy hba) (unlock_exact hh.locked hbl)
    hh.locked ?_ hsl h0 (sub_nonneg.2 hle) (by ring)
  exact store_plus (Numeric.isGrid _) ((Numeric.isGrid _).sub hy) hsa

/-! ## The share of a split -/

theorem percentOk_ok {raw : BodyDecimal} {p : ℚ} (h : percentOk raw = .ok p) : 0 ≤ p ∧ p ≤ 100 := by
  simp only [percentOk, bind_ok, raiseIf_ok, not_or, not_lt] at h
  obtain ⟨_, ⟨h0, h100⟩, hq⟩ := h
  refine ⟨quantizeMoney_nonneg h0 hq, quantize_le_of_le ?_ h100 (quantizeMoney_ok.1 hq)⟩
  exact_mod_cast IsGrid.natCast 2 100

theorem percentOk_grid {raw : BodyDecimal} {p : ℚ} (h : percentOk raw = .ok p) : IsGrid 2 p := by
  simp only [percentOk, bind_ok] at h
  obtain ⟨_, -, hq⟩ := h
  exact quantizeMoney_grid hq

/-- Amount times percentage, as the whole number its digits make. -/
def splitDigits (amount percent : ℚ) (decimals : ℕ) : ℕ := ⌊amount * percent * 10 ^ (decimals + 2)⌋.toNat

/-- With up to 8 decimals, the product is not near half way between two shares, on the wrong
side; with more, it is within half a unit of a multiple of what the balance column holds. -/
def SplitExact (amount percent : ℚ) (decimals : ℕ) : Prop :=
  if decimals ≤ 8 then ¬NearTie (reach (splitDigits amount percent decimals)) (splitDigits amount percent decimals)
  else ∃ k : ℤ, |(splitDigits amount percent decimals : ℤ) - k * 10 ^ (decimals - 4)| ≤ 5000

/-- The share of a split, rounded to the currency's digits, fits the balance
column, and the 28 digits of the product are enough to round it right. -/
def ShareFits (amount percent : ℚ) (decimals : ℕ) : Prop :=
  IsGrid 8 (roundTo decimals (amount * percent / 100)) ∧
    roundTo decimals (ctx prec (amount * percent / 100)) = roundTo decimals (amount * percent / 100)

section
variable {p y : ℚ} {n : ℕ}

/-- The exact share in units of the currency. -/
theorem split_units {amt : ℚ} (hg : IsGrid n amt) (h0 : 0 ≤ amt) (hp : IsGrid 2 p) (hp0 : 0 ≤ p) :
    amt * p / 100 * 10 ^ n = (splitDigits amt p n : ℚ) / 10 ^ 4 := by
  have hprod : amt * p * 10 ^ (n + 2) = (⌊amt * p * 10 ^ (n + 2)⌋ : ℚ) := by
    obtain ⟨a, rfl⟩ := hg
    obtain ⟨b, rfl⟩ := hp
    have hint : (a : ℚ) / 10 ^ n * (b / 10 ^ 2) * 10 ^ (n + 2) = (a * b : ℤ) := by
      push_cast
      field_simp
      ring
    rw [hint, Int.floor_intCast]
  have hdigits : (splitDigits amt p n : ℚ) = amt * p * 10 ^ (n + 2) := by
    have hfloor : 0 ≤ ⌊amt * p * 10 ^ (n + 2)⌋ := Int.floor_nonneg.2 (by positivity)
    have hnat : (splitDigits amt p n : ℤ) = ⌊amt * p * 10 ^ (n + 2)⌋ := Int.toNat_of_nonneg hfloor
    rw [hprod, ← hnat, Int.cast_natCast]
  rw [hdigits]
  ring

/-- There are not too many digits for the rule about half way. -/
theorem splitDigits_lt {amt : Money} (hn : n ≤ 8) (h0 : 0 ≤ amt.val) (hp : 0 ≤ p) (hp' : p ≤ 100) :
    splitDigits amt.val p n < 10 ^ 32 := by
  have hunits : amt.val * 10 ^ 8 < 10 ^ 28 := by
    have hb := amt.bound
    zify at hb
    rw [Numeric.val, div_mul_cancel₀ _ (by positivity)]
    exact_mod_cast (le_abs_self _).trans_lt hb
  have hscale : (10 : ℚ) ^ (n + 2) ≤ 10 ^ (8 + 2) := pow_le_pow_right₀ (by norm_num) (by omega)
  have hlt : amt.val * p * 10 ^ (n + 2) < 10 ^ 32 := by
    calc amt.val * p * 10 ^ (n + 2) ≤ amt.val * 100 * 10 ^ (8 + 2) := by gcongr
      _ = amt.val * 10 ^ 8 * 10 ^ 4 := by ring
      _ < 10 ^ 28 * 10 ^ 4 := by gcongr
      _ = 10 ^ 32 := by norm_num
  have hfloor : ⌊amt.val * p * 10 ^ (n + 2)⌋ < 10 ^ 32 := Int.floor_lt.2 (by exact_mod_cast hlt)
  have hnonneg : 0 ≤ ⌊amt.val * p * 10 ^ (n + 2)⌋ := Int.floor_nonneg.2 (by positivity)
  unfold splitDigits
  omega

/-- A share fits exactly when the product of amount and percentage says so. -/
theorem shareFits_iff {amt : Money} (hg : IsGrid n amt.val) (h0 : 0 ≤ amt.val) (hp : IsGrid 2 p) (hp0 : 0 ≤ p)
    (hp' : p ≤ 100) (hq : quantize prec n (ctx prec (amt.val * p / 100)) = some y) :
    ShareFits amt.val p n ↔ SplitExact amt.val p n := by
  have hx : 0 ≤ amt.val * p / 100 := div_nonneg (mul_nonneg h0 hp0) (by norm_num)
  have hunits := split_units hg h0 hp hp0
  have h10 : (10 : ℚ) ^ n ≠ 0 := by positivity
  unfold ShareFits SplitExact
  split
  · -- every number of the currency fits the column
    rename_i hn
    rw [and_iff_right ((roundTo_grid n _).mono hn), ← roundHalfEven_ctx_digits_iff (splitDigits_lt hn h0 hp0 hp'),
      ← hunits, roundTo, roundTo, div_left_inj' h10, Int.cast_inj, ← zpow_natCast, ← ctx_mul_zpow prec hx, zpow_natCast]
    rfl
  · rename_i hn
    -- the half unit around a multiple of `10 ^ -8`, in units of the product
    have hwithin (k : ℤ) : |(k : ℚ) / 10 ^ 8 - amt.val * p / 100| ≤ 1 / 2 / 10 ^ n ↔
        |(splitDigits amt.val p n : ℤ) - k * 10 ^ (n - 4)| ≤ 5000 := by
      obtain ⟨j, rfl⟩ : ∃ j, n = j + 8 := ⟨n - 8, by omega⟩
      have hk : (k : ℚ) / 10 ^ 8 = ((k * 10 ^ j : ℤ) : ℚ) / 10 ^ (j + 8) := by
        push_cast
        field_simp
        ring
      have habs : (splitDigits amt.val p (j + 8) : ℚ) / 10 ^ 4 - (k * 10 ^ j : ℤ) =
          ((splitDigits amt.val p (j + 8) : ℤ) - k * 10 ^ (j + 8 - 4) : ℤ) / 10 ^ 4 := by
        rw [show j + 8 - 4 = j + 4 by omega]
        push_cast
        field_simp
        ring
      rw [hk, within_iff, hunits, habs, abs_div, abs_of_pos (a := (10 : ℚ) ^ 4) (by positivity),
        div_le_iff₀ (by positivity), ← Int.cast_abs, show (1 / 2 * 10 ^ 4 : ℚ) = (5000 : ℤ) by norm_num, Int.cast_le]
    constructor
    · rintro ⟨⟨k, hk⟩, -⟩
      refine ⟨k, (hwithin k).1 ?_⟩
      rw [← hk, roundTo, within_iff]
      exact abs_sub_roundHalfEven_le _
    · rintro ⟨k, hk⟩
      obtain ⟨hy, hround⟩ := quantize_ctx_of_coarse (by norm_num [prec]) (not_le.1 hn) hx hq ⟨k, rfl⟩ ((hwithin k).2 hk)
      exact ⟨by rw [hround]; exact ⟨k, rfl⟩, by rw [← quantize_roundTo hq, hy, hround]⟩

end

/-- A share lies between nothing and the amount. -/
theorem buyerShare_bounds {amt : Money} {p y : ℚ} {n : ℕ} (hg : IsGrid n amt.val) (h0 : 0 ≤ amt.val) (hp : 0 ≤ p)
    (hp' : p ≤ 100) (h : buyerShare amt.val p n = .ok y) :
    quantize prec n (ctx prec (amt.val * p / 100)) = some y ∧ 0 ≤ y ∧ y ≤ amt.val := by
  have hprod : 0 ≤ amt.val * p := mul_nonneg h0 hp
  have hle : amt.val * p / 100 ≤ amt.val := by
    rw [div_le_iff₀ (by norm_num)]
    exact mul_le_mul_of_nonneg_left hp' h0
  unfold buyerShare at h
  rw [quotient_times hprod] at h
  have hq := quantizeMoney_ok.1 h
  refine ⟨hq, quantizeMoney_nonneg (ctx_nonneg _ (by positivity)) h, quantize_le_of_le hg ?_ hq⟩
  exact ctx_le_of_le (by norm_num [prec]) (by positivity) amt.fits hle

/-- What the operation has to credit to the buyer and to the seller. -/
def SettlingOp.Credits (cur : Currency) (d : Deal) (xb xs : ℚ) : SettlingOp → Prop
  | .finish .. | .forceRelease .. => xb = 0 ∧ xs = d.amount.val
  | .decline .. | .acceptCancel .. | .inactivity .. | .forceRefund .. | .delete => xb = d.amount.val ∧ xs = 0
  | .resolve _ winner _ _ => if winner = "buyer" then xb = d.amount.val ∧ xs = 0 else xb = 0 ∧ xs = d.amount.val
  | .split _ raw _ _ _ => ∃ p, percentOk raw = .ok p ∧ 0 ≤ xb ∧ 0 ≤ xs ∧ xb + xs = d.amount.val ∧
      |xb - d.amount.val * p / 100| ≤ 1 / 2 / 10 ^ cur.decimals

/-- A split needs an exact product; the others need nothing. -/
def SettlingOp.Exact (cur : Currency) (d : Deal) : SettlingOp → Prop
  | .split _ raw _ _ _ => ∀ p, percentOk raw = .ok p → SplitExact d.amount.val p cur.decimals
  | _ => True

/-- A split meets its rule exactly when its share fits. -/
theorem split_paid_iff {raw : BodyDecimal} {p y : ℚ} {a : ℕ} {reason : Option String} {k : Option ℕ} {r₁ r₂ : LedgerRef}
    {db₂ : Db}
    (hh : Held db d cur) (hp : percentOk raw = .ok p) (hy : buyerShare d.amount.val p cur.decimals = .ok y)
    (hr₁ : r₁.event_type ≠ trustEvent) (hr₂ : r₂.event_type ≠ trustEvent)
    (h₁ : unlockAndCredit db d.buyer_id d.currency_id d.amount.val y r₁ = .ok db₁)
    (h₂ : creditAmount db₁ d.seller_id d.currency_id (minus d.amount.val y) r₂ = .ok db₂)
    (hs : ∀ u c, db'.balance u c = db₂.balance u c) :
    (∃ xb xs, (SettlingOp.split a raw reason k now).Credits cur d xb xs ∧ Paid db db' d xb xs) ↔
      ShareFits d.amount.val p cur.decimals := by
  obtain ⟨hp0, hp100⟩ := percentOk_ok hp
  obtain ⟨hq, hy0, hyle⟩ := buyerShare_bounds hh.grid hh.amount hp0 hp100 hy
  have hx : 0 ≤ d.amount.val * p / 100 := div_nonneg (mul_nonneg hh.amount hp0) (by norm_num)
  have hprec : 0 < prec := by norm_num [prec]
  have hyr := quantize_roundTo hq
  constructor
  · rintro ⟨xb, xs, ⟨p', hp', -, -, -, hclose⟩, hpaid⟩
    cases hp.symm.trans hp'
    -- what the buyer's column took up
    have hcredit : IsGrid 8 xb ∧ (IsGrid 8 y → xb = y) := by
      obtain ⟨b, hm, hba, -⟩ := unlockAndCredit_ok hr₁ h₁
      obtain ⟨s, hs', -, -⟩ := hh.credit_seller hr₂ hm h₂
      have hb := hpaid.buyer_amount
      rw [hs, hs', if_neg (fun h => hh.parties h.1), hm.balance, if_pos ⟨rfl, rfl⟩] at hb
      have hxb : xb = b.amount.val - (db.balance d.buyer_id d.currency_id).amount.val := by linarith
      refine ⟨hxb ▸ (Numeric.isGrid _).sub (Numeric.isGrid _), fun hy8 => ?_⟩
      have := store_plus (Numeric.isGrid _) hy8 hba
      linarith
    obtain ⟨hg8, heq⟩ := hcredit
    rcases le_or_gt cur.decimals 8 with hd | hd
    · -- the share fits the column as it is
      have hy8 : IsGrid 8 y := (quantize_grid hq).mono hd
      rw [heq hy8] at hclose
      have hround := (quantize_ctx_within_iff hprec hx hq).1 hclose
      exact ⟨hround ▸ hy8, by rw [← hyr, hround]⟩
    · obtain ⟨hyx, hround⟩ := quantize_ctx_of_coarse hprec hd hx hq hg8 hclose
      exact ⟨by rw [hround]; exact hg8, by rw [← hyr, hround, hyx]⟩
  · rintro ⟨hg8, hround⟩
    rw [← hyr] at hround
    have hy8 : IsGrid 8 y := hround ▸ hg8
    refine ⟨y, d.amount.val - y, ⟨p, hp, hy0, sub_nonneg.2 hyle, by ring, ?_⟩, ?_⟩
    · exact (quantize_ctx_within_iff hprec hx hq).2 hround
    · exact (hh.split hr₁ hr₂ hy8 hy0 hyle h₁ h₂).transport hs

/-! ## Every settlement pays what it has to -/

theorem Settled.paid_buyer (h : Settled db db' i d .refund) (hh : Held db d cur) : Paid db db' d d.amount.val 0 := by
  obtain ⟨amt, db₁, hq, hp, hs⟩ := h.paid
  obtain rfl := hh.quantised hq
  cases hp with
  | refund hr h =>
    obtain ⟨b, hm, hba, hbl⟩ := unlockAndCredit_ok hr h
    exact (hh.refund hm hba hbl).transport hs.balance

theorem Settled.paid_seller (h : Settled db db' i d .release) (hh : Held db d cur) : Paid db db' d 0 d.amount.val := by
  obtain ⟨amt, db₁, hq, hp, hs⟩ := h.paid
  obtain rfl := hh.quantised hq
  cases hp with
  | release hr₁ hr₂ h₁ h₂ => exact (hh.release hr₁ hr₂ h₁ h₂).transport hs.balance

theorem Settled.paid_iff {flow : Flow} (h : Settled db db' i d flow) (hf : op.Flows db d flow) (hh : Held db d cur) :
    (∃ xb xs, op.Credits cur d xb xs ∧ Paid db db' d xb xs) ↔ op.Exact cur d := by
  cases hf with
  | finish | forceRelease => exact iff_of_true ⟨0, _, ⟨rfl, rfl⟩, h.paid_seller hh⟩ trivial
  | decline | acceptCancel | inactivity | forceRefund => exact iff_of_true ⟨_, 0, ⟨rfl, rfl⟩, h.paid_buyer hh⟩ trivial
  | @resolve a winner note now =>
    refine iff_of_true ?_ trivial
    by_cases hw : winner = "buyer"
    · rw [winnerFlow, if_pos hw] at h
      refine ⟨_, 0, ?_, h.paid_buyer hh⟩
      simp only [SettlingOp.Credits, if_pos hw, and_self]
    · rw [winnerFlow, if_neg hw] at h
      refine ⟨0, _, ?_, h.paid_seller hh⟩
      simp only [SettlingOp.Credits, if_neg hw, and_self]
  | split hp hc hq hs =>
    obtain ⟨amt, db₁, hq', hpay, hsame⟩ := h.paid
    obtain rfl := hh.quantised hq
    obtain rfl := hh.quantised hq'
    cases hc.symm.trans hh.currency
    cases hpay with
    | split hr₁ hr₂ h₁ h₂ =>
      obtain ⟨hp0, hp100⟩ := percentOk_ok hp
      obtain ⟨hbounds, -⟩ := buyerShare_bounds hh.grid hh.amount hp0 hp100 hs
      rw [split_paid_iff hh hp hs hr₁ hr₂ h₁ h₂ hsame.balance,
        shareFits_iff hh.grid hh.amount (percentOk_grid hp) hp0 hp100 hbounds]
      constructor
      · intro hx p' hp'
        cases hp.symm.trans hp'
        exact hx
      · intro hx
        exact hx _ hp

theorem Deleted.paid_buyer (h : Deleted db db' i d) (hh : Held db d cur) : Paid db db' d d.amount.val 0 := by
  obtain ⟨amt, b, db₁, hq, hba, hbl, hm, rfl⟩ := h.paid
  obtain rfl := hh.quantised hq
  exact (hh.refund hm hba hbl).transport fun _ _ => rfl

/-! ## Once -/

/-- The deal's funds are still to be paid out. -/
def ActiveDeal (db : Db) (i : ℕ) : Prop := ∃ d, db.deals.row i = some d ∧ isActiveForMoneyMovement d.status = true

/-- One of these operations on one deal. -/
def SettleStep (a : SettlingOp × ℕ) (db db' : Db) : Prop := a.1.run db a.2 = .ok db'

/-- What is not active does not become active. -/
theorem SettlingOp.stays_settled {k : ℕ} (hi : ¬ActiveDeal db i) (h : op.run db k = .ok db') : ¬ActiveDeal db' i := by
  rintro ⟨e, he, hact⟩
  refine hi ?_
  have keep {t : Table Deal} (hd : db'.deals = t) (ht : t.row i = some e → db.deals.row i = some e) : ActiveDeal db i :=
    ⟨e, ht (hd ▸ he), hact⟩
  have erased {j : ℕ} (h : (db.deals.erase j).row i = some e) : db.deals.row i = some e := by
    rw [Table.erase_row] at h
    split at h
    · cases h
    · exact h
  cases op.outcome h with
  | held hheld =>
    obtain ⟨-, t, rfl⟩ := hheld
    exact keep rfl id
  | passed _ _ hsame => exact keep (by rw [hsame]) id
  | dropped _ _ _ hd => exact keep hd erased
  | @settled d flow hs =>
    obtain ⟨d', hd, -, hc⟩ := hs.closed
    by_cases hk : i = k
    · subst hk
      exact ⟨d, hs.row, hs.active⟩
    · exact keep hd fun h => by rwa [Table.set_row_ne hk] at h
  | @deleted d hs =>
    obtain ⟨_, _, db₁, -, -, -, hm, rfl⟩ := hs.paid
    refine keep (t := db.deals.erase k) ?_ erased
    rw [← hm.deals]
    rfl

/-- On a deal that is not active, these operations move no funds. -/
theorem SettlingOp.moves_nothing (hi : ¬ActiveDeal db i) (h : op.run db i = .ok db') (u c : ℕ) :
    db'.balance u c = db.balance u c := by
  cases op.outcome h with
  | held hheld =>
    obtain ⟨-, t, rfl⟩ := hheld
    rfl
  | passed _ _ hsame => rw [hsame]
  | dropped _ _ hb => exact hb u c
  | settled hs => exact absurd ⟨_, hs.row, hs.active⟩ hi
  | deleted hs => exact absurd ⟨_, hs.row, hs.active⟩ hi

theorem terminal_inactive {st : DealStatus} (h : isTerminal st = true) : isActiveForMoneyMovement st = false := by
  cases st <;> first | rfl | cases h

/-- What is settled is not active any more. -/
theorem Settled.inactive {flow : Flow} (h : Settled db db' i d flow) : ¬ActiveDeal db' i := by
  rintro ⟨e, he, hact⟩
  obtain ⟨d', hd, -, hterm⟩ := h.closed
  rw [hd, Table.set_row h.row, if_pos rfl, Option.some.injEq] at he
  rw [← he, terminal_inactive hterm] at hact
  cases hact

theorem Deleted.inactive (h : Deleted db db' i d) : ¬ActiveDeal db' i := by
  obtain ⟨_, _, db₁, -, -, -, -, rfl⟩ := h.paid
  rintro ⟨e, he, -⟩
  rw [show (removeDeal db₁ i).deals = db₁.deals.erase i from rfl, Table.erase_row, if_pos rfl] at he
  cases he

end

/-- A deal of user 1 with user 2, its funds locked. -/
def sampleDealDb (decimals : ℕ) (amount : Money) : Db :=
  { sampleDb decimals ⟨0, money_zero_fits⟩ with
    user_balances := fun u c => if u = 1 ∧ c = 1 then some ⟨⟨0, money_zero_fits⟩, amount⟩ else none
    deals := Table.empty.insert
      (newDeal 1 2 1 amount ⟨0, money_zero_fits⟩ .pending_confirmation "cryptobot" true 0) }

theorem sampleDeal_held {n : ℕ} {a : Money} (h0 : 0 ≤ a.val) (hg : IsGrid n a.val) :
    Held (sampleDealDb n a) (newDeal 1 2 1 a ⟨0, by decide⟩ .pending_confirmation "cryptobot" true 0) (sampleCurrency n) where
  parties := by simp [newDeal]
  currency := rfl
  grid := hg
  amount := h0
  locked := le_rfl
  nonneg u c := by
    simp only [Db.balance, sampleDealDb]
    split
    · exact ⟨by simp [Numeric.val], h0⟩
    · simp [UserBalance.zero]

theorem exists_ok {α : Type} {x : Result α} {p : α → Prop} [DecidablePred p]
    (h : x.toOption.any (fun a => decide (p a)) = true) : ∃ a, x = .ok a ∧ p a := by
  cases x with
  | error e => cases h
  | ok a => exact ⟨a, rfl, of_decide_eq_true h⟩

/-- Whether the deal is gone or closed, for examples. -/
theorem not_active_of_row {db : Db} {i : ℕ}
    (h : (db.deals.row i).all (fun d => !isActiveForMoneyMovement d.status) = true) : ¬ActiveDeal db i := by
  rintro ⟨d, hd, ha⟩
  rw [hd, Option.all_some, ha] at h
  cases h

/-- Fifty per cent. -/
def sampleHalf : BodyDecimal := ⟨50, false, by norm_num⟩

/-- An operation that closes the deal does not wait for approval. -/
theorem not_held {op : SettlingOp} {db db' : Db} {i : ℕ} (ha : ActiveDeal db i) (hgone : ¬ActiveDeal db' i) :
    ¬HeldForApproval op db db' := by
  rintro ⟨-, t, rfl⟩
  exact hgone ha

end Garant
