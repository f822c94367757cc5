import OneApi.Billing.Quota
import OneApi.Lib.Run
import OneApi.Lib.Table

/-!
# Product orders

The procedures of `model/product_order.go`.  A product is paid from the wallet when the order is placed, or
by a QR code whose payment an administrator confirms; a paid order is shipped, and an order that is not
shipped can be cancelled, which gives the wallet its quota back.

Creating and cancelling are transactions that lock the rows they read, confirming and shipping are single
conditional updates, so a call is one step.  `users` holds the users that are not deleted.  `refunds` is not
stored by the program: it records the credits that cancellations have made to a user's row.
-/

namespace OneApi.Payment.ProductOrders

open OneApi.Lib OneApi.Lib.Run OneApi.Billing.Quota

inductive PaymentMethod
  | wallet
  | qrCode
  deriving Repr, DecidableEq

inductive PaymentStatus
  | pending
  | paid
  deriving Repr, DecidableEq

inductive FulfillmentStatus
  | pending
  | shipped
  | cancelled
  deriving Repr, DecidableEq

structure Product where
  id : ℤ
  name : String := ""
  priceCents : ℤ
  enabled : Bool := true
  deriving Repr, DecidableEq

structure ProductOrder where
  id : ℤ
  userId : ℤ
  productId : ℤ
  productName : String
  priceCents : ℤ
  paymentMethod : PaymentMethod
  paymentStatus : PaymentStatus
  fulfillmentStatus : FulfillmentStatus
  paidQuota : ℤ := 0
  createdAt : ℤ
  updatedAt : ℤ
  deriving Repr, DecidableEq

structure User where
  id : ℤ
  quota : ℤ
  deriving Repr, DecidableEq

structure Refund where
  orderId : ℤ
  userId : ℤ
  quota : ℤ
  deriving Repr, DecidableEq

structure Store where
  products : Table Product Product.id
  users : Table User User.id
  orders : Table ProductOrder ProductOrder.id
  refunds : List Refund := []

structure Config where
  quotaPerUnit : ℚ
  usdExchangeRate : ℚ
  deriving Repr, DecidableEq

def errInsufficientBalance : String := "insufficient wallet balance"

def errInvalidState : String := "invalid product order state"

def errNotFound : String := "record not found"

/-- What the environment brings to a call: the key the database gives to a new order, the time, and the error
of a statement or commit that fails. -/
structure Request where
  newId : ℤ
  now : ℤ
  fault : Option String := none
  deriving Repr, DecidableEq

/-- The end of a transaction. -/
def Request.commit {α : Type*} (r : Request) (outcome : α) : Except String α :=
  match r.fault with
  | some e => .error e
  | none => .ok outcome

/-- The row of an enabled product. -/
def Store.findProduct (s : Store) (productId : ℤ) : Option Product :=
  (s.products.find productId).filter fun product => product.enabled

def Store.createOrder (s : Store) (r : Request) (order : ProductOrder) : Except String (ProductOrder × Store) :=
  match s.orders.insert order with
  | none => .error "duplicated key not allowed"
  | some orders => r.commit (order, { s with orders })

def createQRCodeProductOrder (s : Store) (r : Request) (userId productId : ℤ) : Except String (ProductOrder × Store) :=
  if userId ≤ 0 ∨ productId ≤ 0 then .error "invalid product order"
  else
    match s.findProduct productId with
    | none => .error errNotFound
    | some product =>
      s.createOrder r
        { id := r.newId
          userId
          productId := product.id
          productName := product.name
          priceCents := product.priceCents
          paymentMethod := .qrCode
          paymentStatus := .pending
          fulfillmentStatus := .pending
          createdAt := r.now
          updatedAt := r.now }

/-- `decimal.Div` keeps sixteen decimal places. -/
def decimalDiv (a b : ℚ) : ℚ := roundAway (a / b * 10 ^ 16) / 10 ^ 16

def productPriceCentsToQuota (cfg : Config) (priceCents : ℤ) : Except String ℤ :=
  if priceCents ≤ 0 ∨ cfg.quotaPerUnit ≤ 0 ∨ cfg.usdExchangeRate ≤ 0 then
    .error "invalid product payment configuration"
  else
    match quotaFromDecimalChecked (decimalDiv (decimalDiv priceCents 100) cfg.usdExchangeRate * cfg.quotaPerUnit) with
    | (_, some _) => .error "invalid product payment configuration"
    | (quota, none) => if quota ≤ 0 then .error "invalid product payment configuration" else .ok quota

example : productPriceCentsToQuota ⟨500000, 73 / 10⟩ 1990 = .ok 1363014 := by decide +kernel

/-- `quota = quota + ?`. -/
def User.addQuota (quota : ℤ) (user : User) : User := { user with quota := user.quota + quota }

def createWalletProductOrder (cfg : Config) (s : Store) (r : Request) (userId productId : ℤ) :
    Except String (ProductOrder × Store) :=
  if userId ≤ 0 ∨ productId ≤ 0 then .error "invalid product order"
  else
    match s.findProduct productId with
    | none => .error errNotFound
    | some product =>
      match productPriceCentsToQuota cfg product.priceCents with
      | .error e => .error e
      | .ok quota =>
        match s.users.updateIf userId (fun user => quota ≤ user.quota) (User.addQuota (-quota)) with
        | none => .error errInsufficientBalance
        | some users =>
          Store.createOrder { s with users } r
            { id := r.newId
              userId
              productId := product.id
              productName := product.name
              priceCents := product.priceCents
              paymentMethod := .wallet
              paymentStatus := .paid
              fulfillmentStatus := .pending
              paidQuota := quota
              createdAt := r.now
              updatedAt := r.now }

/-- A conditional update of one order that has to affect a row. -/
def Store.updateOrder (s : Store) (r : Request) (orderId : ℤ) (p : ProductOrder → Bool)
    (f : ProductOrder → ProductOrder) : Except String Store :=
  if orderId ≤ 0 then .error errInvalidState
  else
    match r.fault with
    | some e => .error e
    | none =>
      match s.orders.updateIf orderId p f with
      | none => .error errInvalidState
      | some orders => .ok { s with orders }

def confirmQRCodeProductOrder (s : Store) (r : Request) (orderId : ℤ) : Except String Store :=
  s.updateOrder r orderId
    (fun order => order.paymentMethod = .qrCode ∧ order.paymentStatus = .pending ∧ order.fulfillmentStatus = .pending)
    (fun order => { order with paymentStatus := .paid, updatedAt := r.now })

def shipProductOrder (s : Store) (r : Request) (orderId : ℤ) : Except String Store :=
  s.updateOrder r orderId
    (fun order => order.paymentStatus = .paid ∧ order.fulfillmentStatus = .pending)
    (fun order => { order with fulfillmentStatus := .shipped, updatedAt := r.now })

/-- The quota goes back to the user.  A user without a row is not an error: the update affects no row. -/
def Store.refund (s : Store) (order : ProductOrder) : Store :=
  match s.users.updateIf order.userId (fun _ => true) (User.addQuota order.paidQuota) with
  | none => s
  | some users => { s with users, refunds := s.refunds ++ [⟨order.id, order.userId, order.paidQuota⟩] }

def cancelProductOrder (s : Store) (r : Request) (orderId : ℤ) : Except String Store :=
  if orderId ≤ 0 then .error errInvalidState
  else
    match s.orders.find orderId with
    | none => .error errNotFound
    | some order =>
      if order.fulfillmentStatus ≠ .pending then .error errInvalidState
      else
        let s' := if order.paymentMethod = .wallet ∧ order.paymentStatus = .paid ∧ order.paidQuota > 0
          then s.refund order else s
        let order' := { order with fulfillmentStatus := .cancelled, updatedAt := r.now }
        r.commit { s' with orders := s'.orders.save order' }

/-! ## Calls in any order -/

inductive Call
  | createQRCode (userId productId : ℤ)
  | createWallet (userId productId : ℤ)
  | confirmQRCode (orderId : ℤ)
  | ship (orderId : ℤ)
  | cancel (orderId : ℤ)
  deriving Repr, DecidableEq

def call (cfg : Config) (s : Store) (r : Request) : Call → Except String Store
  | .createQRCode userId productId => (createQRCodeProductOrder s r userId productId).map Prod.snd
  | .createWallet userId productId => (createWalletProductOrder cfg s r userId productId).map Prod.snd
  | .confirmQRCode orderId => confirmQRCodeProductOrder s r orderId
  | .ship orderId => shipProductOrder s r orderId
  | .cancel orderId => cancelProductOrder s r orderId

/-- A call that fails is rolled back. -/
def step (cfg : Config) (s : Store) (a : Request × Call) : Store :=
  match call cfg s a.1 a.2 with
  | .error _ => s
  | .ok s' => s'

/-- The users and the products before the first order. -/
def opening (products : Table Product Product.id) (users : Table User User.id) : Store where
  products := products
  users := users
  orders := Table.empty

/-- What a wallet order keeps from its user's quota until it is cancelled. -/
def ProductOrder.heldFrom (order : ProductOrder) (userId : ℤ) : ℤ :=
  if order.userId = userId ∧ order.paymentMethod = .wallet ∧ order.fulfillmentStatus ≠ .cancelled then
    order.paidQuota
  else 0

/-- The paid quota of a user's wallet orders that are not cancelled. -/
def Store.held (s : Store) (userId : ℤ) : ℤ := (s.orders.rows.map fun order => order.heldFrom userId).sum

def Store.refundsOf (s : Store) (orderId : ℤ) : List Refund :=
  s.refunds.filter fun refund => refund.orderId = orderId

/-- The refunds an order should have had: one of all it paid, once it is cancelled. -/
def ProductOrder.refundsDue (order : ProductOrder) : List Refund :=
  if order.paymentMethod = .wallet ∧ order.fulfillmentStatus = .cancelled then
    [⟨order.id, order.userId, order.paidQuota⟩]
  else []

end OneApi.Payment.ProductOrders
