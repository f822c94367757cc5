import OneApi.Billing.Quota
import OneApi.Lib.Run
import OneApi.Lib.Table

/-!
# Completion of top-up orders

The procedures of `model/topup.go` that close an order: the callback of each payment provider, the manual
completion and the update of a pending order's status.  Each is one transaction that holds the lock of
the order's row, so a call is one step.

Money and quotas are exact rationals.  `users` holds the users that are not deleted; the update of a user
that is not there changes no row and is not an error.  `credits` is not stored by the program: it records
the credits that transactions have committed, with who made them.
-/

namespace OneApi.Payment

open OneApi.Lib OneApi.Lib.Run OneApi.Billing.Quota

/-- The values of the column `payment_provider`; `unset` is its default, the empty text. -/
inductive PaymentProvider
  | unset
  | epay
  | stripe
  | creem
  | waffo
  | waffoPancake
  | balance
  | alipay
  | wechatPay
  deriving Repr, DecidableEq

inductive TopUpStatus
  | pending
  | success
  | failed
  | expired
  deriving Repr, DecidableEq

structure TopUp where
  tradeNo : String
  userId : ℤ
  amount : ℤ
  money : ℚ
  paymentAmountCents : ℤ := 0
  providerTradeNo : String := ""
  paymentMethod : String := ""
  paymentProvider : PaymentProvider
  completeTime : ℤ := 0
  status : TopUpStatus := .pending
  deriving Repr, DecidableEq

structure User where
  id : ℤ
  quota : ℚ := 0
  email : String := ""
  stripeCustomer : String := ""
  deriving Repr, DecidableEq

/-- Who completes an order. -/
inductive Completer
  | callback (provider : PaymentProvider)
  | manual
  deriving Repr, DecidableEq

structure Credit where
  tradeNo : String
  userId : ℤ
  quota : ℚ
  completer : Completer
  deriving Repr, DecidableEq

structure Store where
  topUps : Table TopUp TopUp.tradeNo
  users : Table User User.id
  credits : List Credit := []

def errPaymentMethodMismatch : String := "payment method mismatch"

def errPaymentAmountMismatch : String := "payment amount mismatch"

def errTopUpNotFound : String := "topup not found"

def errTopUpStatusInvalid : String := "topup status invalid"

def paymentMethodAlipayDirect : String := "alipay_direct"

def paymentMethodWechatNative : String := "wechat_native"

/-- What a transaction writes once it has checked the order: the row of the order, and the columns of
its user. -/
structure Completion where
  topUp : TopUp
  quota : ℚ
  email : Option String := none
  stripeCustomer : Option String := none

def User.apply (c : Completion) (user : User) : User :=
  { user with
    quota := user.quota + c.quota
    email := c.email.getD user.email
    stripeCustomer := c.stripeCustomer.getD user.stripeCustomer }

theorem User.apply_id (c : Completion) (user : User) : (user.apply c).id = user.id := rfl

/-- The order is saved and its user credited. -/
def Store.commit (x : Store) (completer : Completer) (c : Completion) : Store where
  topUps := x.topUps.save c.topUp
  users := x.users.updateWhere (fun user => user.id = c.topUp.userId) (User.apply c) (User.apply_id c)
  credits := x.credits ++ [⟨c.topUp.tradeNo, c.topUp.userId, c.quota, completer⟩]

/-- A transaction on the order with a number.  `settle` says what it finds on the locked row: an error, that
nothing is left to do, or what to write.  `fault` is the error of a statement or commit that fails. -/
def transaction (x : Store) (completer : Completer) (tradeNo notFound : String) (fault : Option String)
    (settle : TopUp → Except String (Option Completion)) : Except String Store :=
  match x.topUps.find tradeNo with
  | none => .error notFound
  | some topUp =>
    match settle topUp with
    | .error e => .error e
    | .ok none => .ok x
    | .ok (some c) =>
      match fault with
      | some e => .error e
      | none => .ok (x.commit completer c)

section Calls

variable (quotaPerUnit : ℚ)

/-- The number of an order to complete, the time and the database's error. -/
structure Request where
  tradeNo : String
  now : ℤ
  fault : Option String := none
  deriving Repr, DecidableEq

def TopUp.succeed (topUp : TopUp) (now : ℤ) : TopUp := { topUp with completeTime := now, status := .success }

def updatePendingTopUpStatus (x : Store) (r : Request) (expectedPaymentProvider : PaymentProvider)
    (targetStatus : TopUpStatus) : Except String Store :=
  if r.tradeNo = "" then .error "未提供支付单号"
  else
    match x.topUps.find r.tradeNo with
    | none => .error errTopUpNotFound
    | some topUp =>
      if expectedPaymentProvider ≠ .unset ∧ topUp.paymentProvider ≠ expectedPaymentProvider then
        .error errPaymentMethodMismatch
      else if topUp.status ≠ .pending then .error errTopUpStatusInvalid
      else
        match r.fault with
        | some e => .error e
        | none => .ok { x with topUps := x.topUps.save { topUp with status := targetStatus } }

/-- What the callers of the callbacks are told. -/
def rechargeFailed : Except String Store → Except String Store
  | .error _ => .error "充值失败，请稍后重试"
  | .ok x => .ok x

def settleStripe (customerId : String) (now : ℤ) (topUp : TopUp) : Except String (Option Completion) :=
  if topUp.paymentProvider ≠ .stripe then .error errPaymentMethodMismatch
  else if topUp.status ≠ .pending then .error "充值订单状态错误"
  else
    .ok (some
      { topUp := topUp.succeed now
        quota := topUp.money * quotaPerUnit
        stripeCustomer := some customerId })

/-- `Recharge`, the callback of Stripe. -/
def recharge (x : Store) (r : Request) (customerId : String) : Except String Store :=
  if r.tradeNo = "" then .error "未提供支付单号"
  else
    rechargeFailed (transaction x (.callback .stripe) r.tradeNo "充值订单不存在" r.fault
      (settleStripe quotaPerUnit customerId r.now))

def manualQuota (topUp : TopUp) : ℤ :=
  if topUp.paymentProvider = .stripe then truncate (topUp.money * quotaPerUnit)
  else truncate (topUp.amount * quotaPerUnit)

def settleManual (now : ℤ) (topUp : TopUp) : Except String (Option Completion) :=
  if topUp.status = .success then .ok none
  else if topUp.status ≠ .pending then .error "订单状态不是待支付，无法补单"
  else if manualQuota quotaPerUnit topUp ≤ 0 then .error "无效的充值额度"
  else .ok (some { topUp := topUp.succeed now, quota := manualQuota quotaPerUnit topUp })

def manualCompleteTopUp (x : Store) (r : Request) : Except String Store :=
  if r.tradeNo = "" then .error "未提供订单号"
  else transaction x .manual r.tradeNo "充值订单不存在" r.fault (settleManual quotaPerUnit r.now)

/-- The email of the payment is kept if the user has none. -/
def settleCreem (users : Table User User.id) (customerEmail : String) (now : ℤ) (topUp : TopUp) :
    Except String (Option Completion) :=
  if topUp.paymentProvider ≠ .creem then .error errPaymentMethodMismatch
  else if topUp.status ≠ .pending then .error "充值订单状态错误"
  else if customerEmail = "" then .ok (some { topUp := topUp.succeed now, quota := topUp.amount })
  else
    match users.find topUp.userId with
    | none => .error "record not found"
    | some user =>
      .ok (some
        { topUp := topUp.succeed now
          quota := topUp.amount
          email := if user.email = "" then some customerEmail else none })

def rechargeCreem (x : Store) (r : Request) (customerEmail : String) : Except String Store :=
  if r.tradeNo = "" then .error "未提供支付单号"
  else
    rechargeFailed (transaction x (.callback .creem) r.tradeNo "充值订单不存在" r.fault
      (settleCreem x.users customerEmail r.now))

/-- `RechargeWaffo` and `RechargeWaffoPancake` differ in the provider. -/
def settleWaffo (provider : PaymentProvider) (now : ℤ) (topUp : TopUp) : Except String (Option Completion) :=
  if topUp.paymentProvider ≠ provider then .error errPaymentMethodMismatch
  else if topUp.status = .success then .ok none
  else if topUp.status ≠ .pending then .error "充值订单状态错误"
  else if truncate (topUp.amount * quotaPerUnit) ≤ 0 then .error "无效的充值额度"
  else .ok (some { topUp := topUp.succeed now, quota := truncate (topUp.amount * quotaPerUnit) })

def rechargeWaffo (x : Store) (r : Request) : Except String Store :=
  if r.tradeNo = "" then .error "未提供支付单号"
  else
    rechargeFailed (transaction x (.callback .waffo) r.tradeNo "充值订单不存在" r.fault
      (settleWaffo quotaPerUnit .waffo r.now))

def rechargeWaffoPancake (x : Store) (r : Request) : Except String Store :=
  if r.tradeNo = "" then .error "未提供支付单号"
  else
    rechargeFailed (transaction x (.callback .waffoPancake) r.tradeNo "充值订单不存在" r.fault
      (settleWaffo quotaPerUnit .waffoPancake r.now))

/-- The quota that `RechargeEpay` and `RechargeOfficialPayment` credit; `none` is one out of range. -/
def checkedQuota (topUp : TopUp) : Option ℤ :=
  match quotaFromDecimalChecked (topUp.amount * quotaPerUnit) with
  | (_, some _) => none
  | (quota, none) => if quota ≤ 0 then none else some quota

/-- `decimal.Round(2)`. -/
def roundCents (money : ℚ) : ℚ := roundAway (money * 100) / 100

/-- `paidAmount` is the amount the callback reports, if its text is a number. -/
def settleEpay (paymentMethod : String) (paidAmount : Option ℚ) (now : ℤ) (topUp : TopUp) :
    Except String (Option Completion) :=
  if topUp.paymentProvider ≠ .epay then .error errPaymentMethodMismatch
  else if topUp.status = .success then .ok none
  else if topUp.status ≠ .pending then .error errTopUpStatusInvalid
  else if paidAmount ≠ some (roundCents topUp.money) then .error errPaymentAmountMismatch
  else
    match checkedQuota quotaPerUnit topUp with
    | none => .error "无效的充值额度"
    | some quota =>
      .ok (some
        { topUp :=
            { topUp.succeed now with
              paymentMethod := if paymentMethod ≠ "" then paymentMethod else topUp.paymentMethod }
          quota := quota })

def rechargeEpay (x : Store) (r : Request) (paymentMethod : String) (paidAmount : Option ℚ) : Except String Store :=
  if r.tradeNo = "" then .error "未提供支付单号"
  else transaction x (.callback .epay) r.tradeNo errTopUpNotFound r.fault
    (settleEpay quotaPerUnit paymentMethod paidAmount r.now)

def settleOfficialPayment (expectedProvider : PaymentProvider) (expectedMethod providerTradeNo : String)
    (paidAmountCents : ℤ) (now : ℤ) (topUp : TopUp) : Except String (Option Completion) :=
  if topUp.paymentProvider ≠ expectedProvider ∨ topUp.paymentMethod ≠ expectedMethod then
    .error errPaymentMethodMismatch
  else if topUp.paymentAmountCents ≤ 0 ∨ topUp.paymentAmountCents ≠ paidAmountCents then
    .error errPaymentAmountMismatch
  else if topUp.providerTradeNo ≠ "" ∧ topUp.providerTradeNo ≠ providerTradeNo then
    .error errPaymentMethodMismatch
  else if topUp.status = .success then .ok none
  else if topUp.status ≠ .pending then .error errTopUpStatusInvalid
  else
    match checkedQuota quotaPerUnit topUp with
    | none => .error "invalid topup quota"
    | some quota =>
      .ok (some { topUp := { topUp.succeed now with providerTradeNo := providerTradeNo }, quota := quota })

def expectedMethod : PaymentProvider → Option String
  | .alipay => some paymentMethodAlipayDirect
  | .wechatPay => some paymentMethodWechatNative
  | _ => none

def rechargeOfficialPayment (x : Store) (r : Request) (expectedProvider : PaymentProvider)
    (providerTradeNo : String) (paidAmountCents : ℤ) : Except String Store :=
  if r.tradeNo = "" ∨ providerTradeNo = "" ∨ paidAmountCents ≤ 0 then
    .error "invalid official payment result"
  else
    match expectedMethod expectedProvider with
    | none => .error errPaymentMethodMismatch
    | some method =>
      transaction x (.callback expectedProvider) r.tradeNo errTopUpNotFound r.fault
        (settleOfficialPayment quotaPerUnit expectedProvider method providerTradeNo paidAmountCents r.now)

/-! ## Calls in any order -/

/-- A pending order is closed as failed or as expired; no caller passes another status. -/
inductive Closing
  | failed
  | expired
  deriving Repr, DecidableEq

def Closing.status : Closing → TopUpStatus
  | .failed => .failed
  | .expired => .expired

inductive Call
  | updatePending (expectedPaymentProvider : PaymentProvider) (target : Closing)
  | manual
  | stripe (customerId : String)
  | creem (customerEmail : String)
  | waffo
  | waffoPancake
  | epay (paymentMethod : String) (paidAmount : Option ℚ)
  | official (expectedProvider : PaymentProvider) (providerTradeNo : String) (paidAmountCents : ℤ)
  deriving Repr, DecidableEq

def call (x : Store) (r : Request) : Call → Except String Store
  | .updatePending expected target => updatePendingTopUpStatus x r expected target.status
  | .manual => manualCompleteTopUp quotaPerUnit x r
  | .stripe customerId => recharge quotaPerUnit x r customerId
  | .creem customerEmail => rechargeCreem x r customerEmail
  | .waffo => rechargeWaffo quotaPerUnit x r
  | .waffoPancake => rechargeWaffoPancake quotaPerUnit x r
  | .epay paymentMethod paidAmount => rechargeEpay quotaPerUnit x r paymentMethod paidAmount
  | .official expected providerTradeNo cents =>
    rechargeOfficialPayment quotaPerUnit x r expected providerTradeNo cents

/-- A call that fails leaves the store as it was. -/
def step (x : Store) (a : Request × Call) : Store :=
  match call quotaPerUnit x a.1 a.2 with
  | .error _ => x
  | .ok x' => x'

end Calls

end OneApi.Payment
