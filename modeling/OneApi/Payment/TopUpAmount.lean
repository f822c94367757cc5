import OneApi.Payment.TopUpOnce

/-!
# The amount credited for a top-up order

What a callback credits for a pending order against what the manual completion of the same order would
credit.
-/

namespace OneApi.Payment

open OneApi.Lib OneApi.Lib.Run OneApi.Billing.Quota

variable {quotaPerUnit : ℚ} {x : Store} {topUp : TopUp} {r : Request} {c : Call}

/-- The call is the callback of the order's provider, and reports the payment of the order. -/
def Pays (topUp : TopUp) : Call → Prop
  | .updatePending _ _ => False
  | .manual => False
  | .stripe _ => topUp.paymentProvider = .stripe
  | .creem _ => topUp.paymentProvider = .creem
  | .waffo => topUp.paymentProvider = .waffo
  | .waffoPancake => topUp.paymentProvider = .waffoPancake
  | .epay _ paidAmount => topUp.paymentProvider = .epay ∧ paidAmount = some (roundCents topUp.money)
  | .official provider providerTradeNo cents =>
    topUp.paymentProvider = provider ∧ expectedMethod provider = some topUp.paymentMethod ∧
      topUp.paymentAmountCents = cents ∧ 0 < cents ∧ providerTradeNo ≠ "" ∧
      (topUp.providerTradeNo = "" ∨ topUp.providerTradeNo = providerTradeNo)

def quotaOf (x : Store) (id : ℤ) : ℚ := ((x.users.find id).map User.quota).getD 0

/-- What a call adds to the quota of the order's user. -/
def credited (quotaPerUnit : ℚ) (x : Store) (topUp : TopUp) (r : Request) (c : Call) : ℚ :=
  quotaOf (step quotaPerUnit x (r, c)) topUp.userId - quotaOf x topUp.userId

/-- The orders for which the callback and the manual completion agree, up to one unit. -/
def AmountsAgree (quotaPerUnit : ℚ) (topUp : TopUp) : Prop :=
  match topUp.paymentProvider with
  | .stripe => -1 ≤ topUp.money * quotaPerUnit
  | .creem =>
    topUp.amount * quotaPerUnit < 1 ∧ -1 ≤ topUp.amount ∧ topUp.amount ≤ 1 ∨
      1 ≤ topUp.amount * quotaPerUnit ∧ topUp.amount - 1 ≤ topUp.amount * quotaPerUnit ∧
        topUp.amount * quotaPerUnit < topUp.amount + 2
  | .epay | .alipay | .wechatPay => topUp.amount * quotaPerUnit < maxQuota - 1 / 2
  | _ => True

/-! ## What is credited -/

/-- A truncated quota, if it is positive. -/
def truncatedCredit (value : ℚ) : ℚ := if truncate value ≤ 0 then 0 else truncate value

/-- A checked quota, if there is one. -/
def checkedCredit : Option ℤ → ℚ
  | none => 0
  | some quota => quota

def callbackQuota (quotaPerUnit : ℚ) (topUp : TopUp) : ℚ :=
  match topUp.paymentProvider with
  | .stripe => topUp.money * quotaPerUnit
  | .creem => topUp.amount
  | .waffo | .waffoPancake => truncatedCredit (topUp.amount * quotaPerUnit)
  | .epay | .alipay | .wechatPay => checkedCredit (checkedQuota quotaPerUnit topUp)
  | _ => 0

theorem quotaOf_of_none {x' : Store} (h : Effect x x') {id : ℤ} (hnone : x.users.find id = none) :
    quotaOf x' id = 0 := by
  obtain ⟨credits, _, husers⟩ := h.users
  rw [quotaOf, husers id, hnone]
  rfl

theorem credited_of_none (hnone : x.users.find topUp.userId = none) : credited quotaPerUnit x topUp r c = 0 := by
  rw [credited, quotaOf_of_none (step_effect quotaPerUnit x (r, c)) hnone, quotaOf_of_none .same hnone, sub_zero]

theorem credited_of_error {e : String} (h : call quotaPerUnit x r c = .error e) :
    credited quotaPerUnit x topUp r c = 0 := by
  rw [credited, step, h, sub_self]

variable {user : User} {completer : Completer}

theorem credited_of_ok {completion : Completion} (h : call quotaPerUnit x r c = .ok (x.commit completer completion))
    (huserId : completion.topUp.userId = topUp.userId) (huser : x.users.find topUp.userId = some user) :
    credited quotaPerUnit x topUp r c = completion.quota := by
  have hid : user.id = topUp.userId := Table.find_key huser
  have hafter : (x.commit completer completion).users.find topUp.userId = some (user.apply completion) := by
    rw [Store.commit, Table.find_updateWhere, huser, Option.map_some, if_pos (decide_eq_true (hid.trans huserId.symm))]
  rw [credited, step, h, quotaOf, quotaOf, hafter, huser]
  exact add_sub_cancel_left ..

/-- What a transaction credits that finds this on the locked row. -/
def settledQuota : Except String (Option Completion) → ℚ
  | .ok (some completion) => completion.quota
  | _ => 0

theorem credited_of_transaction {notFound : String} {settle : TopUp → Except String (Option Completion)}
    (hcall : call quotaPerUnit x r c = transaction x completer topUp.tradeNo notFound none settle ∨
      call quotaPerUnit x r c = rechargeFailed (transaction x completer topUp.tradeNo notFound none settle))
    (hsettles : Settles completer settle) (hfind : x.topUps.find topUp.tradeNo = some topUp)
    (huser : x.users.find topUp.userId = some user) :
    credited quotaPerUnit x topUp r c = settledQuota (settle topUp) := by
  rw [transaction, hfind] at hcall
  cases hsettle : settle topUp with
  | error e =>
    simp only [hsettle] at hcall
    rcases hcall with hcall | hcall
    · exact credited_of_error hcall
    · exact credited_of_error hcall
  | ok completion =>
    cases completion with
    | none =>
      simp only [hsettle] at hcall
      have hok : call quotaPerUnit x r c = .ok x := hcall.elim id id
      rw [credited, step, hok, sub_self]
      rfl
    | some completion =>
      simp only [hsettle] at hcall
      have hok : call quotaPerUnit x r c = .ok (x.commit completer completion) := hcall.elim id id
      exact credited_of_ok hok (hsettles topUp completion hsettle).userId huser

theorem pending_ne_success : ¬ TopUpStatus.pending = .success := by decide

section Pending

variable (hpending : topUp.status = .pending)

include hpending

theorem settledQuota_manual (now : ℤ) :
    settledQuota (settleManual quotaPerUnit now topUp)
      = if topUp.paymentProvider = .stripe then truncatedCredit (topUp.money * quotaPerUnit)
        else truncatedCredit (topUp.amount * quotaPerUnit) := by
  rw [settleManual, hpending, if_neg pending_ne_success, if_neg (not_not.mpr rfl), manualQuota]
  by_cases hstripe : topUp.paymentProvider = .stripe
  · simp only [if_pos hstripe, truncatedCredit]
    split <;> rfl
  · simp only [if_neg hstripe, truncatedCredit]
    split <;> rfl

theorem settledQuota_stripe (hprovider : topUp.paymentProvider = .stripe) (customerId : String) (now : ℤ) :
    settledQuota (settleStripe quotaPerUnit customerId now topUp) = topUp.money * quotaPerUnit := by
  rw [settleStripe, if_neg (not_not.mpr hprovider), hpending, if_neg (not_not.mpr rfl)]
  rfl

theorem settledQuota_waffo {provider : PaymentProvider} (hprovider : topUp.paymentProvider = provider) (now : ℤ) :
    settledQuota (settleWaffo quotaPerUnit provider now topUp) = truncatedCredit (topUp.amount * quotaPerUnit) := by
  rw [settleWaffo, if_neg (not_not.mpr hprovider), hpending, if_neg pending_ne_success, if_neg (not_not.mpr rfl),
    truncatedCredit]
  split <;> rfl

theorem settledQuota_creem (hprovider : topUp.paymentProvider = .creem) (huser : x.users.find topUp.userId = some user)
    (customerEmail : String) (now : ℤ) : settledQuota (settleCreem x.users customerEmail now topUp) = topUp.amount := by
  rw [settleCreem, if_neg (not_not.mpr hprovider), hpending, if_neg (not_not.mpr rfl), huser]
  split <;> rfl

theorem settledQuota_epay (hprovider : topUp.paymentProvider = .epay) (paymentMethod : String) (now : ℤ) :
    settledQuota (settleEpay quotaPerUnit paymentMethod (some (roundCents topUp.money)) now topUp)
      = checkedCredit (checkedQuota quotaPerUnit topUp) := by
  rw [settleEpay, if_neg (not_not.mpr hprovider), hpending, if_neg pending_ne_success, if_neg (not_not.mpr rfl),
    if_neg (not_not.mpr rfl)]
  cases checkedQuota quotaPerUnit topUp <;> rfl

theorem settledQuota_official {provider : PaymentProvider} {providerTradeNo : String}
    (hprovider : topUp.paymentProvider = provider) (hcents : 0 < topUp.paymentAmountCents)
    (htrade : topUp.providerTradeNo = "" ∨ topUp.providerTradeNo = providerTradeNo) (now : ℤ) :
    settledQuota (settleOfficialPayment quotaPerUnit provider topUp.paymentMethod providerTradeNo
        topUp.paymentAmountCents now topUp)
      = checkedCredit (checkedQuota quotaPerUnit topUp) := by
  have hmatch : ¬(topUp.paymentProvider ≠ provider ∨ topUp.paymentMethod ≠ topUp.paymentMethod) := by
    simp [hprovider]
  have hpaid : ¬(topUp.paymentAmountCents ≤ 0 ∨ topUp.paymentAmountCents ≠ topUp.paymentAmountCents) := by
    simp [hcents]
  have hnumber : ¬(topUp.providerTradeNo ≠ "" ∧ topUp.providerTradeNo ≠ providerTradeNo) := by
    rintro ⟨hne, hother⟩
    exact htrade.elim hne hother
  rw [settleOfficialPayment, if_neg hmatch, if_neg hpaid, if_neg hnumber, hpending, if_neg pending_ne_success,
    if_neg (not_not.mpr rfl)]
  cases checkedQuota quotaPerUnit topUp <;> rfl

variable (hne : topUp.tradeNo ≠ "") (hfind : x.topUps.find topUp.tradeNo = some topUp)
  (huser : x.users.find topUp.userId = some user) (now : ℤ)

include hne hfind huser

theorem callback_credited (hpays : Pays topUp c) :
    credited quotaPerUnit x topUp ⟨topUp.tradeNo, now, none⟩ c = callbackQuota quotaPerUnit topUp := by
  cases c with
  | updatePending expected target | manual => exact hpays.elim
  | stripe customerId =>
    have hcall : call quotaPerUnit x ⟨topUp.tradeNo, now, none⟩ (.stripe customerId) = _ := if_neg hne
    rw [credited_of_transaction (.inr hcall) (settleStripe_settles customerId now) hfind huser,
      settledQuota_stripe hpending hpays, callbackQuota, hpays]
  | creem customerEmail =>
    have hcall : call quotaPerUnit x ⟨topUp.tradeNo, now, none⟩ (.creem customerEmail) = _ := if_neg hne
    rw [credited_of_transaction (.inr hcall) (settleCreem_settles x.users customerEmail now) hfind huser,
      settledQuota_creem hpending hpays huser, callbackQuota, hpays]
  | waffo =>
    have hcall : call quotaPerUnit x ⟨topUp.tradeNo, now, none⟩ .waffo = _ := if_neg hne
    rw [credited_of_transaction (.inr hcall) (settleWaffo_settles .waffo now) hfind huser,
      settledQuota_waffo hpending hpays, callbackQuota, hpays]
  | waffoPancake =>
    have hcall : call quotaPerUnit x ⟨topUp.tradeNo, now, none⟩ .waffoPancake = _ := if_neg hne
    rw [credited_of_transaction (.inr hcall) (settleWaffo_settles .waffoPancake now) hfind huser,
      settledQuota_waffo hpending hpays, callbackQuota, hpays]
  | epay paymentMethod paidAmount =>
    obtain ⟨hprovider, rfl⟩ := hpays
    have hcall : call quotaPerUnit x ⟨topUp.tradeNo, now, none⟩
        (.epay paymentMethod (some (roundCents topUp.money))) = _ := if_neg hne
    rw [credited_of_transaction (.inl hcall) (settleEpay_settles paymentMethod _ now) hfind huser,
      settledQuota_epay hpending hprovider, callbackQuota, hprovider]
  | official provider providerTradeNo cents =>
    obtain ⟨hprovider, hmethod, rfl, hcents, hnumber, htrade⟩ := hpays
    have hvalid : ¬(topUp.tradeNo = "" ∨ providerTradeNo = "" ∨ topUp.paymentAmountCents ≤ 0) := by
      simp [hne, hnumber, hcents]
    have hcall : call quotaPerUnit x ⟨topUp.tradeNo, now, none⟩
        (.official provider providerTradeNo topUp.paymentAmountCents)
        = transaction x (.callback provider) topUp.tradeNo errTopUpNotFound none
          (settleOfficialPayment quotaPerUnit provider topUp.paymentMethod providerTradeNo
            topUp.paymentAmountCents now) := by
      rw [call, rechargeOfficialPayment, if_neg hvalid, hmethod]
    rw [credited_of_transaction (.inl hcall) (settleOfficialPayment_settles provider _ _ _ now) hfind huser,
      settledQuota_official hpending hprovider hcents htrade, callbackQuota, hprovider]
    cases provider <;> first | rfl | cases hmethod

theorem manual_credited : credited quotaPerUnit x topUp ⟨topUp.tradeNo, now, none⟩ .manual
      = if topUp.paymentProvider = .stripe then truncatedCredit (topUp.money * quotaPerUnit)
        else truncatedCredit (topUp.amount * quotaPerUnit) := by
  have hcall : call quotaPerUnit x ⟨topUp.tradeNo, now, none⟩ .manual = _ := if_neg hne
  rw [credited_of_transaction (.inl hcall) (settleManual_settles now) hfind huser, settledQuota_manual hpending]

end Pending

/-! ## The amounts compared -/

theorem truncatedCredit_of_lt {value : ℚ} (h : value < 1) : truncatedCredit value = 0 :=
  if_pos (not_lt.mp fun hpos => absurd ((truncate_pos_iff value).mp hpos) (not_le.mpr h))

theorem truncatedCredit_of_le {value : ℚ} (h : 1 ≤ value) : truncatedCredit value = ⌊value⌋ := by
  rw [truncatedCredit, if_neg (not_le.mpr ((truncate_pos_iff value).mpr h)), truncate_of_nonneg (zero_le_one.trans h)]

/-- A quota that is not rounded. -/
theorem exact_agrees_iff (value : ℚ) : |value - truncatedCredit value| ≤ 1 ↔ -1 ≤ value := by
  rw [abs_le]
  by_cases h : value < 1
  · rw [truncatedCredit_of_lt h, sub_zero]
    exact ⟨fun h => h.1, fun hle => ⟨hle, h.le⟩⟩
  · rw [truncatedCredit_of_le (not_lt.mp h)]
    have hlow := Int.floor_le value
    have hhigh := Int.lt_floor_add_one value
    constructor
    · intro _
      linarith
    · intro _
      exact ⟨by linarith, by linarith⟩

/-- A whole quota beside a truncated one. -/
theorem whole_agrees_iff (n : ℤ) (value : ℚ) :
    |(n : ℚ) - truncatedCredit value| ≤ 1 ↔
      value < 1 ∧ -1 ≤ n ∧ n ≤ 1 ∨ 1 ≤ value ∧ (n : ℚ) - 1 ≤ value ∧ value < n + 2 := by
  rw [abs_le]
  by_cases h : value < 1
  · rw [truncatedCredit_of_lt h, sub_zero]
    have hcast : (-1 : ℚ) ≤ n ∧ (n : ℚ) ≤ 1 ↔ -1 ≤ n ∧ n ≤ 1 := by norm_cast
    rw [hcast]
    constructor
    · exact fun hn => .inl ⟨h, hn⟩
    · rintro (⟨_, hn⟩ | ⟨hle, _⟩)
      · exact hn
      · exact absurd h (not_lt.mpr hle)
  · have hle : 1 ≤ value := not_lt.mp h
    rw [truncatedCredit_of_le hle]
    -- the floor is at most one unit away
    have hfloor : (-1 ≤ (n : ℚ) - ⌊value⌋ ∧ (n : ℚ) - ⌊value⌋ ≤ 1) ↔ n - 1 ≤ ⌊value⌋ ∧ ⌊value⌋ < n + 2 := by
      norm_cast
      omega
    rw [hfloor, Int.le_floor, Int.floor_lt]
    push_cast
    constructor
    · exact fun hn => .inr ⟨hle, hn⟩
    · rintro (⟨hlt, _⟩ | ⟨_, hn⟩)
      · exact absurd hlt h
      · exact hn

theorem checkedCredit_of_lt (h : topUp.amount * quotaPerUnit < 1 / 2) :
    checkedCredit (checkedQuota quotaPerUnit topUp) = 0 := by
  have hround : ¬ 0 < roundAway (topUp.amount * quotaPerUnit) := by
    rw [roundAway_pos_iff]
    exact not_le.mpr h
  delta checkedQuota
  rw [quotaFromDecimalChecked, saturateQuota]
  generalize roundAway (topUp.amount * quotaPerUnit) = n at hround
  rw [truncate_intCast]
  split
  next => rfl
  next quota heq =>
    have hquota : quota ≤ 0 := by
      split at heq
      · cases heq
      split at heq
      · cases heq
      · cases heq
        exact not_lt.mp hround
    rw [if_pos hquota]
    rfl

theorem checkedCredit_of_overflow (h : maxQuota ≤ topUp.amount * quotaPerUnit + 1 / 2) :
    checkedCredit (checkedQuota quotaPerUnit topUp) = 0 := by
  have hmax : ((maxQuota : ℤ) : ℚ) = 2147483647 := by norm_num [maxQuota]
  have hnonneg : 0 ≤ topUp.amount * quotaPerUnit := by linarith
  have hround : ((maxQuota : ℤ) : ℚ) ≤ roundAway (topUp.amount * quotaPerUnit) := by
    rw [roundAway_of_nonneg hnonneg]
    exact_mod_cast Int.le_floor.mpr h
  delta checkedQuota
  rw [quotaFromDecimalChecked, saturateQuota, if_pos hround]
  rfl

theorem checkedCredit_of_le (h : 1 / 2 ≤ topUp.amount * quotaPerUnit)
    (hmax : topUp.amount * quotaPerUnit + 1 / 2 < maxQuota) :
    checkedCredit (checkedQuota quotaPerUnit topUp) = ⌊topUp.amount * quotaPerUnit + 1 / 2⌋ := by
  have hround : roundAway (topUp.amount * quotaPerUnit) = ⌊topUp.amount * quotaPerUnit + 1 / 2⌋ :=
    roundAway_of_nonneg (by linarith)
  have hpos : 0 < roundAway (topUp.amount * quotaPerUnit) := (roundAway_pos_iff _).mpr h
  have hless : roundAway (topUp.amount * quotaPerUnit) < maxQuota := by
    rw [hround]
    exact Int.floor_lt.mpr hmax
  delta checkedQuota
  rw [quotaFromDecimalChecked, saturateQuota, ← hround]
  generalize roundAway (topUp.amount * quotaPerUnit) = n at hpos hless
  rw [if_neg (not_le.mpr (by exact_mod_cast hless)), if_neg, truncate_intCast]
  · show checkedCredit (if n ≤ 0 then none else some n) = n
    rw [if_neg (not_le.mpr hpos)]
    rfl
  · have hmin : minQuota < n := lt_trans (by decide) hpos
    exact not_le.mpr (by exact_mod_cast hmin)

/-- A checked quota beside a truncated one. -/
theorem checked_agrees_iff :
    |checkedCredit (checkedQuota quotaPerUnit topUp) - truncatedCredit (topUp.amount * quotaPerUnit)| ≤ 1 ↔
      topUp.amount * quotaPerUnit < maxQuota - 1 / 2 := by
  have hmax : ((maxQuota : ℤ) : ℚ) = 2147483647 := by norm_num [maxQuota]
  by_cases hover : maxQuota ≤ topUp.amount * quotaPerUnit + 1 / 2
  · -- the callback refuses, and the manual completion credits nearly the bound
    have hfloor : ((maxQuota : ℤ) : ℚ) - 1 ≤ ⌊topUp.amount * quotaPerUnit⌋ := by
      have hle : maxQuota - 1 ≤ ⌊topUp.amount * quotaPerUnit⌋ :=
        Int.le_floor.mpr (by push_cast; linarith)
      exact_mod_cast hle
    rw [checkedCredit_of_overflow hover, truncatedCredit_of_le (by linarith), abs_le]
    constructor
    · rintro ⟨hlow, _⟩
      linarith
    · intro h
      linarith
  · have hunder : topUp.amount * quotaPerUnit + 1 / 2 < maxQuota := not_le.mp hover
    have hholds : topUp.amount * quotaPerUnit < maxQuota - 1 / 2 := by linarith
    refine iff_of_true ?_ hholds
    rw [abs_le]
    by_cases hhalf : topUp.amount * quotaPerUnit < 1 / 2
    · rw [checkedCredit_of_lt hhalf, truncatedCredit_of_lt (by linarith)]
      norm_num
    · rw [checkedCredit_of_le (not_lt.mp hhalf) hunder]
      generalize (topUp.amount : ℚ) * quotaPerUnit = value at hhalf
      have hlow := Int.lt_floor_add_one (value + 1 / 2)
      have hhigh := Int.floor_le (value + 1 / 2)
      by_cases hone : value < 1
      · have hfloor : ⌊value + 1 / 2⌋ = 1 := by
          rw [Int.floor_eq_iff]
          push_cast
          exact ⟨by linarith, by linarith⟩
        rw [truncatedCredit_of_lt hone, hfloor]
        norm_num
      · rw [truncatedCredit_of_le (not_lt.mp hone)]
        have hle : ⌊value⌋ ≤ ⌊value + 1 / 2⌋ := Int.floor_le_floor (by linarith)
        have hnext : ⌊value + 1 / 2⌋ ≤ ⌊value⌋ + 1 := by
          rw [← Int.floor_add_one]
          exact Int.floor_le_floor (by linarith)
        have hle' : (⌊value⌋ : ℚ) ≤ ⌊value + 1 / 2⌋ := by exact_mod_cast hle
        have hnext' : (⌊value + 1 / 2⌋ : ℚ) ≤ ⌊value⌋ + 1 := by exact_mod_cast hnext
        exact ⟨by linarith, by linarith⟩

theorem Pays.provider (hpays : Pays topUp c) : topUp.paymentProvider ≠ .unset ∧ topUp.paymentProvider ≠ .balance := by
  cases c with
  | updatePending expected target | manual => exact hpays.elim
  | epay paymentMethod paidAmount =>
    rw [hpays.1]
    exact ⟨nofun, nofun⟩
  | official provider providerTradeNo cents =>
    obtain ⟨hprovider, hmethod, _⟩ := hpays
    rw [hprovider]
    constructor
    · rintro rfl
      cases hmethod
    · rintro rfl
      cases hmethod
  | _ =>
    rw [hpays]
    exact ⟨nofun, nofun⟩

/-- The callback and the manual completion, by the order's provider. -/
theorem amounts_agree_iff (hpays : Pays topUp c) :
    |callbackQuota quotaPerUnit topUp -
        if topUp.paymentProvider = .stripe then truncatedCredit (topUp.money * quotaPerUnit)
        else truncatedCredit (topUp.amount * quotaPerUnit)| ≤ 1 ↔
      AmountsAgree quotaPerUnit topUp := by
  rw [callbackQuota, AmountsAgree]
  cases hprovider : topUp.paymentProvider with
  | stripe => exact exact_agrees_iff _
  | creem => exact whole_agrees_iff topUp.amount _
  | epay | alipay | wechatPay => exact checked_agrees_iff
  | waffo | waffoPancake => simp
  | unset => exact absurd hprovider hpays.provider.1
  | balance => exact absurd hprovider hpays.provider.2

theorem credited_of_empty (hempty : topUp.tradeNo = "") (hpays : Pays topUp c ∨ c = .manual) (now : ℤ) :
    credited quotaPerUnit x topUp ⟨topUp.tradeNo, now, none⟩ c = 0 := by
  cases c with
  | updatePending expected target => exact (hpays.elim False.elim Call.noConfusion)
  | official provider providerTradeNo cents => exact credited_of_error (if_pos (.inl hempty))
  | _ => exact credited_of_error (if_pos hempty)

/-- The callback of the provider and the manual completion credit a pending order with the same quota, up
to one unit, exactly if there is no user to credit or the order is one of `AmountsAgree`: the callback of
Creem credits `Amount`, where the manual completion credits `Amount` times the quota per unit. -/
theorem topUp_amounts_iff (quotaPerUnit : ℚ) (x : Store) (topUp : TopUp)
    (hfind : x.topUps.find topUp.tradeNo = some topUp) (hpending : topUp.status = .pending) (c : Call)
    (hpays : Pays topUp c) (now now' : ℤ) :
    |credited quotaPerUnit x topUp ⟨topUp.tradeNo, now, none⟩ c -
        credited quotaPerUnit x topUp ⟨topUp.tradeNo, now', none⟩ .manual| ≤ 1 ↔
      topUp.tradeNo = "" ∨ x.users.find topUp.userId = none ∨ AmountsAgree quotaPerUnit topUp := by
  by_cases hempty : topUp.tradeNo = ""
  · rw [credited_of_empty hempty (.inl hpays), credited_of_empty hempty (.inr rfl)]
    simp [hempty]
  · cases huser : x.users.find topUp.userId with
    | none =>
      rw [credited_of_none huser, credited_of_none huser]
      simp
    | some user =>
      rw [callback_credited hpending hempty hfind huser _ hpays, manual_credited hpending hempty hfind huser,
        amounts_agree_iff hpays]
      simp [hempty]

theorem epayTopUp_amounts :
    |credited 500000 { topUps := .single epayTopUp, users := .single { id := 7 } } epayTopUp ⟨"t", 0, none⟩
          (.epay "" (some (999 / 100))) -
        credited 500000 { topUps := .single epayTopUp, users := .single { id := 7 } } epayTopUp
          ⟨"t", 0, none⟩ .manual| ≤ 1 :=
  (topUp_amounts_iff 500000 { topUps := .single epayTopUp, users := .single { id := 7 } } epayTopUp
    (by decide +kernel) rfl (.epay "" (some (999 / 100))) ⟨rfl, by decide +kernel⟩ 0 0).mpr (.inr (.inr (by
        show (10 : ℤ) * (500000 : ℚ) < ((maxQuota : ℤ) : ℚ) - 1 / 2
        norm_num [maxQuota])))

/-- A product of Creem that grants a quota of 500000. -/
def creemTopUp : TopUp :=
  { tradeNo := "t", userId := 7, amount := 500000, money := 1, paymentMethod := "creem"
    paymentProvider := .creem }

theorem creemTopUp_amounts_differ :
    credited 500000 { topUps := .single creemTopUp, users := .single { id := 7 } } creemTopUp
        ⟨"t", 0, none⟩ (.creem "") = 500000 ∧
      credited 500000 { topUps := .single creemTopUp, users := .single { id := 7 } } creemTopUp
        ⟨"t", 0, none⟩ .manual = 250000000000 := by
  decide +kernel

end OneApi.Payment
