import Garant.System
/-!
# Who may call what

The role checks in front of the operations. `AdminGuard` guards the admin and
arbiter routes; the user routes check the parties themselves, inside the
operation. The second factor these guards also ask for is in `Totp`.
-/

namespace Garant

/-- `AdminGuard`. -/
structure AdminGuard where
  allow_arbiter : Bool

/-- `ADMIN_GUARD_TOTP`. -/
def adminGuardTotp : AdminGuard := ⟨false⟩

/-- `ADMIN_GUARD_TOTP_OR_ARBITER`. -/
def adminGuardTotpOrArbiter : AdminGuard := ⟨true⟩

/-- The role check of `AdminGuard.__call__`. -/
def AdminGuard.admits (g : AdminGuard) (user : User) : Bool :=
  if g.allow_arbiter then user.is_admin || user.is_arbiter else user.is_admin

/-- The guard on the operation's route, if it has one. -/
def Op.guard : Op → Option AdminGuard
  | .resolveArbitration .. => some adminGuardTotpOrArbiter
  | .approveDealApproval .. | .rejectDealApproval .. | .forceRelease .. | .forceRefund .. | .splitDeal ..
  | .forceArbitration .. | .assignArbiter .. | .deleteDeal .. | .markPaid .. | .refundDeposit ..
  | .adjustUserBalance .. => some adminGuardTotp
  | _ => none

/-- The user the operation acts for, where it is told one. -/
def Op.user : Op → Option ℕ
  | .createDepositInvoice u .. | .createDeal u .. | .createDealWithTopup u .. | .cancelPendingTopup _ u _
  | .acceptDeal _ u _ | .declineDeal _ u _ | .finishDeal _ u _ | .requestCancel _ u _ _ | .revokeCancel _ u
  | .acceptCancel _ u _ | .startArbitration _ u _ | .resolveArbitration _ u _ _ _ | .approveDealApproval _ u _
  | .forceRelease _ u _ _ _ | .forceRefund _ u _ _ _ | .splitDeal _ u _ _ _ _ | .forceArbitration _ u _
  | .pinResetPaid u => some u
  | _ => none

/-- A call of an operation. `actor = none` is a webhook or a sweep. -/
structure Request where
  actor : Option ℕ
  op : Op
  own : ∀ u, op.user = some u → actor = some u

/-- The call passes the guard on its route. -/
def Request.Guarded (r : Request) (db : Db) : Prop :=
  ∀ g, r.op.guard = some g → ∃ a user, r.actor = some a ∧ db.users.row a = some user ∧ g.admits user = true

end Garant
