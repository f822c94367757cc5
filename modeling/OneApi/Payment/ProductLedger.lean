import OneApi.Payment.ProductOrder

/-!
# The ledger of product orders

`Effect` says what a successful call writes, in six cases.  `Books` is the invariant that every case keeps:
each user's quota together with what the wallet orders hold is what the user had at the start, and every
order has had the refunds that are due.  An order that has been shipped or cancelled is never written again
(`find_step_of_closed`), and a shipment finds its order paid (`step_shipped`).
-/

namespace OneApi.Payment.ProductOrders

open OneApi.Lib OneApi.Lib.Run OneApi.Billing.Quota

def ProductOrder.confirmed (order : ProductOrder) (now : ℤ) : ProductOrder :=
  { order with paymentStatus := .paid, updatedAt := now }

def ProductOrder.shipped (order : ProductOrder) (now : ℤ) : ProductOrder :=
  { order with fulfillmentStatus := .shipped, updatedAt := now }

def ProductOrder.cancelled (order : ProductOrder) (now : ℤ) : ProductOrder :=
  { order with fulfillmentStatus := .cancelled, updatedAt := now }

/-- What a successful call does. -/
inductive Effect (s : Store) : Store → Prop
  | placeQRCode {order : ProductOrder} {orders : Table ProductOrder ProductOrder.id}
      (hmethod : order.paymentMethod = .qrCode) (hpending : order.fulfillmentStatus = .pending)
      (hinsert : s.orders.insert order = some orders) : Effect s { s with orders }
  | placeWallet {order : ProductOrder} {user : User} {orders : Table ProductOrder ProductOrder.id}
      (hmethod : order.paymentMethod = .wallet) (hpaid : order.paymentStatus = .paid)
      (hpending : order.fulfillmentStatus = .pending) (huser : s.users.find order.userId = some user)
      (hpos : 0 < order.paidQuota) (henough : order.paidQuota ≤ user.quota)
      (hinsert : s.orders.insert order = some orders) :
      Effect s { s with users := s.users.save (user.addQuota (-order.paidQuota)), orders }
  | confirm {order : ProductOrder} {now : ℤ} (horder : s.orders.find order.id = some order)
      (hmethod : order.paymentMethod = .qrCode) (hpending : order.fulfillmentStatus = .pending) :
      Effect s { s with orders := s.orders.save (order.confirmed now) }
  | ship {order : ProductOrder} {now : ℤ} (horder : s.orders.find order.id = some order)
      (hpaid : order.paymentStatus = .paid) (hpending : order.fulfillmentStatus = .pending) :
      Effect s { s with orders := s.orders.save (order.shipped now) }
  | cancelPaid {order : ProductOrder} {now : ℤ} (horder : s.orders.find order.id = some order)
      (hpending : order.fulfillmentStatus = .pending) (hmethod : order.paymentMethod = .wallet) :
      Effect s { s.refund order with orders := (s.refund order).orders.save (order.cancelled now) }
  | cancelUnpaid {order : ProductOrder} {now : ℤ} (horder : s.orders.find order.id = some order)
      (hpending : order.fulfillmentStatus = .pending)
      (hunpaid : ¬ (order.paymentMethod = .wallet ∧ order.paymentStatus = .paid ∧ order.paidQuota > 0)) :
      Effect s { s with orders := s.orders.save (order.cancelled now) }

/-! ## What a call does -/

section Calls

variable {cfg : Config} {s s' : Store} {r : Request}

theorem commit_eq_ok {α : Type*} {outcome result : α} (h : r.commit outcome = .ok result) : outcome = result := by
  rw [Request.commit] at h
  split at h
  · cases h
  · cases h
    rfl

variable {result : ProductOrder × Store}

theorem createOrder_eq_ok {order : ProductOrder} (h : s.createOrder r order = .ok result) :
    ∃ orders, s.orders.insert order = some orders ∧ result = (order, { s with orders }) := by
  rw [Store.createOrder] at h
  split at h
  · cases h
  · next orders horders => exact ⟨orders, horders, (commit_eq_ok h).symm⟩

theorem productPriceCentsToQuota_pos {priceCents quota : ℤ}
    (h : productPriceCentsToQuota cfg priceCents = .ok quota) : 0 < quota := by
  rw [productPriceCentsToQuota] at h
  split at h
  · cases h
  · split at h
    · cases h
    · split at h
      · cases h
      · cases h
        omega

theorem createQRCodeProductOrder_effect {userId productId : ℤ}
    (h : createQRCodeProductOrder s r userId productId = .ok result) : Effect s result.2 := by
  rw [createQRCodeProductOrder] at h
  split at h
  · cases h
  · split at h
    · cases h
    · obtain ⟨orders, hinsert, rfl⟩ := createOrder_eq_ok h
      exact .placeQRCode rfl rfl hinsert

theorem createWalletProductOrder_effect {userId productId : ℤ}
    (h : createWalletProductOrder cfg s r userId productId = .ok result) : Effect s result.2 := by
  rw [createWalletProductOrder] at h
  split at h
  · cases h
  · split at h
    · cases h
    · split at h
      · cases h
      · next quota hquota =>
        split at h
        · cases h
        · next users husers =>
          obtain ⟨user, huser, henough, rfl⟩ := Table.updateIf_eq_some husers
          obtain ⟨orders, hinsert, rfl⟩ := createOrder_eq_ok h
          exact Effect.placeWallet (s := s) rfl rfl rfl huser (productPriceCentsToQuota_pos hquota)
            (of_decide_eq_true henough) hinsert

theorem updateOrder_eq_ok {orderId : ℤ} {p : ProductOrder → Bool} {f : ProductOrder → ProductOrder}
    (h : s.updateOrder r orderId p f = .ok s') :
    ∃ order, s.orders.find order.id = some order ∧ p order = true
      ∧ s' = { s with orders := s.orders.save (f order) } := by
  rw [Store.updateOrder] at h
  split at h
  · cases h
  · split at h
    · cases h
    · split at h
      · cases h
      · next orders horders =>
        obtain ⟨order, horder, hp, rfl⟩ := Table.updateIf_eq_some horders
        refine ⟨order, ?_, hp, (Except.ok.inj h).symm⟩
        rw [Table.find_key horder]
        exact horder

theorem cancelProductOrder_effect {orderId : ℤ} (h : cancelProductOrder s r orderId = .ok s') : Effect s s' := by
  rw [cancelProductOrder] at h
  split at h
  · cases h
  · split at h
    · cases h
    · next order horder =>
      have horder' : s.orders.find order.id = some order := by
        rw [Table.find_key horder]
        exact horder
      split at h
      · cases h
      · next hpending =>
        have hs' := commit_eq_ok h
        by_cases hrefund : order.paymentMethod = .wallet ∧ order.paymentStatus = .paid ∧ order.paidQuota > 0
        · rw [if_pos hrefund] at hs'
          rw [← hs']
          exact .cancelPaid horder' (not_not.mp hpending) hrefund.1
        · rw [if_neg hrefund] at hs'
          rw [← hs']
          exact .cancelUnpaid horder' (not_not.mp hpending) hrefund

theorem map_snd_eq_ok {x : Except String (ProductOrder × Store)} (h : x.map Prod.snd = .ok s') :
    ∃ result, x = .ok result ∧ result.2 = s' := by
  cases x with
  | error e => cases h
  | ok result => exact ⟨result, rfl, Except.ok.inj h⟩

theorem call_effect {c : Call} (h : call cfg s r c = .ok s') : Effect s s' := by
  cases c with
  | createQRCode userId productId =>
    obtain ⟨result, hresult, rfl⟩ := map_snd_eq_ok h
    exact createQRCodeProductOrder_effect hresult
  | createWallet userId productId =>
    obtain ⟨result, hresult, rfl⟩ := map_snd_eq_ok h
    exact createWalletProductOrder_effect hresult
  | confirmQRCode orderId =>
    obtain ⟨order, horder, hp, rfl⟩ := updateOrder_eq_ok h
    have hguard := of_decide_eq_true hp
    exact .confirm horder hguard.1 hguard.2.2
  | ship orderId =>
    obtain ⟨order, horder, hp, rfl⟩ := updateOrder_eq_ok h
    have hguard := of_decide_eq_true hp
    exact .ship horder hguard.1 hguard.2
  | cancel orderId => exact cancelProductOrder_effect h

/-- A step is the effect of its call, or nothing. -/
theorem step_effect (cfg : Config) (s : Store) (a : Request × Call) : step cfg s a = s ∨ Effect s (step cfg s a) := by
  rw [step]
  split
  · exact .inl rfl
  · next s' hs' => exact .inr (call_effect hs')

end Calls

/-! ## The books -/

structure Books (users : Table User User.id) (s : Store) : Prop where
  balance : ∀ user ∈ users.rows, ∃ user', s.users.find user.id = some user'
    ∧ user'.quota + s.held user.id = user.quota ∧ (0 ≤ user.quota → 0 ≤ user'.quota)
  paid : ∀ order ∈ s.orders.rows, order.paymentMethod = .wallet →
    order.paymentStatus = .paid ∧ 0 < order.paidQuota ∧ ∃ user, s.users.find order.userId = some user
  refunded : ∀ id, s.refundsOf id = (s.orders.find id).elim [] ProductOrder.refundsDue

theorem books_opening (products : Table Product Product.id) (users : Table User User.id) :
    Books users (opening products users) where
  balance user huser := ⟨user, Table.find_of_mem huser, add_zero user.quota, id⟩
  paid _ horder := absurd horder List.not_mem_nil
  refunded _ := rfl

section Keep

variable {users : Table User User.id} {s : Store} {order order' : ProductOrder}
  {orders : Table ProductOrder ProductOrder.id}

theorem held_insert (hinsert : s.orders.insert order = some orders) (users' : Table User User.id) (userId : ℤ) :
    Store.held { s with users := users', orders } userId = s.held userId + order.heldFrom userId :=
  Table.sum_insert hinsert _

theorem held_save (horder : s.orders.find order'.id = some order) (users' : Table User User.id)
    (refunds : List Refund) (userId : ℤ) :
    Store.held { s with users := users', orders := s.orders.save order', refunds } userId
      + order.heldFrom userId = s.held userId + order'.heldFrom userId :=
  Table.sum_save horder _

/-- A new order has had no refund, and none is due. -/
theorem refunded_insert (h : Books users s) (hinsert : s.orders.insert order = some orders)
    (hdue : order.refundsDue = []) (id : ℤ) : s.refundsOf id = (orders.find id).elim [] ProductOrder.refundsDue := by
  rw [h.refunded id]
  by_cases hid : id = order.id
  · rw [hid, Table.find_eq_none_of_insert hinsert, Table.find_insert_self hinsert]
    exact hdue.symm
  · rw [Table.find_insert_of_ne hinsert hid]

/-- A write that moves no money. -/
theorem books_save (h : Books users s) (horder : s.orders.find order'.id = some order)
    (hheld : ∀ userId, order'.heldFrom userId = order.heldFrom userId)
    (hdue : order'.refundsDue = order.refundsDue)
    (hpaid : order'.paymentMethod = .wallet →
      order'.paymentStatus = .paid ∧ 0 < order'.paidQuota ∧ ∃ user, s.users.find order'.userId = some user) :
    Books users { s with orders := s.orders.save order' } where
  balance user huser := by
    obtain ⟨user', hfind, hsum, hsolvent⟩ := h.balance user huser
    have hsave := held_save horder s.users s.refunds user.id
    rw [hheld] at hsave
    exact ⟨user', hfind, by rw [← hsum, add_right_cancel hsave], hsolvent⟩
  paid := Table.forall_save h.paid hpaid
  refunded id := by
    show s.refundsOf id = _
    rw [h.refunded id]
    by_cases hid : id = order'.id
    · rw [hid, horder, Table.find_save_self horder]
      exact hdue.symm
    · rw [Table.find_save_of_ne hid]

theorem books_placeQRCode (h : Books users s) (hmethod : order.paymentMethod = .qrCode)
    (hpending : order.fulfillmentStatus = .pending) (hinsert : s.orders.insert order = some orders) :
    Books users { s with orders } where
  balance user huser := by
    obtain ⟨user', hfind, hsum, hsolvent⟩ := h.balance user huser
    have hheld : order.heldFrom user.id = 0 := by
      simp [ProductOrder.heldFrom, hmethod]
    refine ⟨user', hfind, ?_, hsolvent⟩
    rw [held_insert hinsert s.users, hheld, add_zero]
    exact hsum
  paid := by
    refine Table.forall_insert hinsert h.paid fun hwallet => ?_
    rw [hmethod] at hwallet
    cases hwallet
  refunded := by
    have hdue : order.refundsDue = [] := by
      simp [ProductOrder.refundsDue, hpending]
    exact fun id => refunded_insert h hinsert hdue id

variable {userId : ℤ} {user : User} {t : Table User User.id}

/-- The rows of the users after one of them has been given a quota. -/
theorem find_addQuota (huser : t.find userId = some user) (quota id : ℤ) :
    (t.save (user.addQuota quota)).find id = if id = userId then some (user.addQuota quota) else t.find id := by
  have hid : (user.addQuota quota).id = userId := Table.find_key (r := user) huser
  by_cases h : id = userId
  · rw [if_pos h, h, ← hid]
    exact Table.find_save_self (by rw [hid]; exact huser)
  · rw [if_neg h]
    exact Table.find_save_of_ne (by rw [hid]; exact h)

/-- A user whose quota changes still has a row. -/
theorem exists_find_addQuota
    (huser : t.find userId = some user) (quota : ℤ) {id : ℤ} (hid : ∃ other, t.find id = some other) :
    ∃ other, (t.save (user.addQuota quota)).find id = some other := by
  rw [find_addQuota huser]
  split
  · exact ⟨_, rfl⟩
  · exact hid

/-- What a user has and what the orders hold after a payment of `quota` into the wallet, when the orders
hold that much less. -/
theorem balance_addQuota {quota held held' : ℤ}
    (huser : t.find userId = some user) (hquota : 0 ≤ user.quota → 0 ≤ user.quota + quota) {start : User}
    (hheld : held' = held - if start.id = userId then quota else 0)
    (h : ∃ user', t.find start.id = some user' ∧ user'.quota + held = start.quota
      ∧ (0 ≤ start.quota → 0 ≤ user'.quota)) :
    ∃ user', (t.save (user.addQuota quota)).find start.id = some user'
      ∧ user'.quota + held' = start.quota ∧ (0 ≤ start.quota → 0 ≤ user'.quota) := by
  obtain ⟨user', hfind, hsum, hsolvent⟩ := h
  rw [find_addQuota huser]
  by_cases hid : start.id = userId
  · rw [if_pos hid] at hheld ⊢
    rw [hid, huser] at hfind
    obtain rfl := Option.some.inj hfind
    refine ⟨_, rfl, ?_, fun hstart => hquota (hsolvent hstart)⟩
    show user.quota + quota + held' = start.quota
    omega
  · rw [if_neg hid] at hheld ⊢
    exact ⟨user', hfind, by omega, hsolvent⟩

theorem books_placeWallet (h : Books users s) (hmethod : order.paymentMethod = .wallet)
    (hpaid : order.paymentStatus = .paid) (hpending : order.fulfillmentStatus = .pending)
    (huser : s.users.find order.userId = some user) (hpos : 0 < order.paidQuota)
    (henough : order.paidQuota ≤ user.quota) (hinsert : s.orders.insert order = some orders) :
    Books users { s with users := s.users.save (user.addQuota (-order.paidQuota)), orders } where
  balance start hstart := by
    refine balance_addQuota huser (fun _ => by omega) ?_ (h.balance start hstart)
    rw [held_insert hinsert, ProductOrder.heldFrom]
    by_cases hid : start.id = order.userId
    · simp [hid, hmethod, hpending]
    · simp [hid, Ne.symm hid]
  paid := by
    refine Table.forall_insert hinsert (fun x hx hwallet => ?_) fun _ => ?_
    · obtain ⟨hxpaid, hxpos, hxuser⟩ := h.paid x hx hwallet
      exact ⟨hxpaid, hxpos, exists_find_addQuota huser _ hxuser⟩
    · exact ⟨hpaid, hpos, exists_find_addQuota huser _ ⟨user, huser⟩⟩
  refunded := by
    have hdue : order.refundsDue = [] := by
      simp [ProductOrder.refundsDue, hpending]
    exact fun id => refunded_insert h hinsert hdue id

theorem books_cancelPaid (h : Books users s) (horder : s.orders.find order.id = some order)
    (hpending : order.fulfillmentStatus = .pending) (hmethod : order.paymentMethod = .wallet) (now : ℤ) :
    Books users { s.refund order with orders := (s.refund order).orders.save (order.cancelled now) } := by
  obtain ⟨hpaid, hpos, user, huser⟩ := h.paid order (Table.find_mem horder) hmethod
  have hsaved : s.orders.find (order.cancelled now).id = some order := horder
  rw [Store.refund, Table.updateIf_of_find huser rfl]
  dsimp only
  refine ⟨fun start hstart => ?_, ?_, fun id => ?_⟩
  · refine balance_addQuota huser (fun _ => by omega) ?_ (h.balance start hstart)
    have hsave := held_save hsaved (s.users.save (user.addQuota order.paidQuota))
      (s.refunds ++ [⟨order.id, order.userId, order.paidQuota⟩]) start.id
    have hbefore : order.heldFrom start.id = if start.id = order.userId then order.paidQuota else 0 := by
      rw [ProductOrder.heldFrom]
      simp [hmethod, hpending, eq_comm]
    have hafter : (order.cancelled now).heldFrom start.id = 0 := by
      simp [ProductOrder.heldFrom, ProductOrder.cancelled]
    omega
  · refine Table.forall_save (fun x hx hwallet => ?_) fun _ => ?_
    · obtain ⟨hxpaid, hxpos, hxuser⟩ := h.paid x hx hwallet
      exact ⟨hxpaid, hxpos, exists_find_addQuota huser _ hxuser⟩
    · exact ⟨hpaid, hpos, exists_find_addQuota huser _ ⟨user, huser⟩⟩
  · have hbefore := h.refunded id
    rw [Store.refundsOf] at hbefore ⊢
    rw [List.filter_append, hbefore]
    by_cases hid : id = order.id
    · rw [hid, horder, show order.id = (order.cancelled now).id from rfl, Table.find_save_self hsaved]
      simp [ProductOrder.refundsDue, ProductOrder.cancelled, hpending, hmethod]
    · rw [Table.find_save_of_ne (r := order.cancelled now) hid]
      simp [Ne.symm hid]

theorem Books.effect {s' : Store} (h : Books users s) (heffect : Effect s s') : Books users s' := by
  cases heffect with
  | placeQRCode hmethod hpending hinsert => exact books_placeQRCode h hmethod hpending hinsert
  | placeWallet hmethod hpaid hpending huser hpos henough hinsert =>
    exact books_placeWallet h hmethod hpaid hpending huser hpos henough hinsert
  | @confirm order now horder hmethod hpending =>
    refine books_save h horder (fun _ => rfl) rfl fun hwallet => ?_
    rw [show (order.confirmed now).paymentMethod = .qrCode from hmethod] at hwallet
    cases hwallet
  | @ship order now horder hpaid hpending =>
    refine books_save h horder (fun userId => ?_) ?_ (h.paid order (Table.find_mem horder))
    · simp [ProductOrder.heldFrom, ProductOrder.shipped, hpending]
    · simp [ProductOrder.refundsDue, ProductOrder.shipped, hpending]
  | cancelPaid horder hpending hmethod => exact books_cancelPaid h horder hpending hmethod _
  | @cancelUnpaid order now horder hpending hunpaid =>
    -- a wallet order is paid, so this one is not a wallet order
    have hmethod : order.paymentMethod ≠ .wallet := by
      intro hwallet
      obtain ⟨hpaid, hpos, _⟩ := h.paid order (Table.find_mem horder) hwallet
      exact hunpaid ⟨hwallet, hpaid, hpos⟩
    refine books_save h horder (fun userId => ?_) ?_ fun hwallet => absurd hwallet hmethod
    · simp [ProductOrder.heldFrom, ProductOrder.cancelled, hmethod]
    · simp [ProductOrder.refundsDue, ProductOrder.cancelled, hmethod]

end Keep

/-! ## Shipped and cancelled orders -/

section Closed

variable {s s' : Store} {id : ℤ} {order : ProductOrder}

@[simp] theorem refund_orders : (s.refund order).orders = s.orders := by
  rw [Store.refund]
  split <;> rfl

variable (horder : s.orders.find id = some order) (hclosed : order.fulfillmentStatus ≠ .pending)

include horder hclosed in
/-- Only the rows of open orders are written. -/
theorem find_save_of_closed {written written' : ProductOrder}
    (hwritten : s.orders.find written.id = some written) (hid : written'.id = written.id)
    (hpending : written.fulfillmentStatus = .pending) : (s.orders.save written').find id = some order := by
  refine (Table.find_save_of_ne fun e => ?_).trans horder
  rw [e, hid, hwritten] at horder
  rw [← Option.some.inj horder] at hclosed
  exact hclosed hpending

include horder in
theorem find_insert_of_some {new : ProductOrder} {orders : Table ProductOrder ProductOrder.id}
    (hinsert : s.orders.insert new = some orders) : orders.find id = some order := by
  refine (Table.find_insert_of_ne hinsert fun e => ?_).trans horder
  rw [e, Table.find_eq_none_of_insert hinsert] at horder
  cases horder

include horder hclosed in
theorem Effect.find_of_closed (heffect : Effect s s') : s'.orders.find id = some order := by
  cases heffect with
  | placeQRCode _ _ hinsert | placeWallet _ _ _ _ _ _ hinsert => exact find_insert_of_some horder hinsert
  | confirm hwritten _ hpending | ship hwritten _ hpending | cancelUnpaid hwritten hpending _ =>
    exact find_save_of_closed horder hclosed hwritten rfl hpending
  | cancelPaid hwritten hpending _ =>
    rw [refund_orders]
    exact find_save_of_closed horder hclosed hwritten rfl hpending

include horder hclosed in
/-- **Shipped and cancelled are final**: the row of such an order is not written again. -/
theorem find_step_of_closed (cfg : Config) (a : Request × Call) : (step cfg s a).orders.find id = some order := by
  rcases step_effect cfg s a with hsame | heffect
  · rw [hsame]
    exact horder
  · exact heffect.find_of_closed horder hclosed

/-- A write that does not ship leaves the shipped orders as they are. -/
theorem find_of_save_shipped {written' : ProductOrder} (hnot : written'.fulfillmentStatus ≠ .shipped)
    {t : Table ProductOrder ProductOrder.id} (hex : ∃ written, t.find written'.id = some written)
    (horder : (t.save written').find id = some order) (hshipped : order.fulfillmentStatus = .shipped) :
    t.find id = some order := by
  by_cases hid : id = written'.id
  · obtain ⟨written, hwritten⟩ := hex
    rw [hid, Table.find_save_self hwritten] at horder
    exact absurd ((congrArg _ (Option.some.inj horder)).trans hshipped) hnot
  · rwa [Table.find_save_of_ne hid] at horder

theorem find_of_insert_shipped {new : ProductOrder} {orders : Table ProductOrder ProductOrder.id}
    (hinsert : s.orders.insert new = some orders) (hpending : new.fulfillmentStatus = .pending)
    (horder : orders.find id = some order) (hshipped : order.fulfillmentStatus = .shipped) :
    s.orders.find id = some order := by
  by_cases hid : id = new.id
  · rw [hid, Table.find_insert_self hinsert] at horder
    rw [← Option.some.inj horder, hpending] at hshipped
    cases hshipped
  · rwa [Table.find_insert_of_ne hinsert hid] at horder

/-- An order that is shipped after a call was shipped before, or the call found it paid. -/
theorem Effect.shipped (heffect : Effect s s') (horder : s'.orders.find id = some order)
    (hshipped : order.fulfillmentStatus = .shipped) :
    s.orders.find id = some order ∨ ∃ before, s.orders.find id = some before
      ∧ before.paymentStatus = .paid ∧ before.fulfillmentStatus = .pending := by
  cases heffect with
  | placeQRCode _ hpending hinsert | placeWallet _ _ hpending _ _ _ hinsert =>
    exact .inl (find_of_insert_shipped hinsert hpending horder hshipped)
  | @confirm written now hwritten _ hpending =>
    have hnot : (written.confirmed now).fulfillmentStatus ≠ .shipped := by
      simp [ProductOrder.confirmed, hpending]
    exact .inl (find_of_save_shipped hnot ⟨written, hwritten⟩ horder hshipped)
  | @ship written now hwritten hpaid hpending =>
    by_cases hid : id = written.id
    · rw [hid]
      exact .inr ⟨written, hwritten, hpaid, hpending⟩
    · exact .inl ((Table.find_save_of_ne (r := written.shipped now) hid).symm.trans horder)
  | @cancelPaid written now hwritten _ _ =>
    rw [refund_orders] at horder
    have hnot : (written.cancelled now).fulfillmentStatus ≠ .shipped := by
      simp [ProductOrder.cancelled]
    exact .inl (find_of_save_shipped hnot ⟨written, hwritten⟩ horder hshipped)
  | @cancelUnpaid written now hwritten _ _ =>
    have hnot : (written.cancelled now).fulfillmentStatus ≠ .shipped := by
      simp [ProductOrder.cancelled]
    exact .inl (find_of_save_shipped hnot ⟨written, hwritten⟩ horder hshipped)

end Closed

/-! ## Whole runs -/

section Runs

variable (cfg : Config) (products : Table Product Product.id) (users : Table User User.id)
  (acts : List (Request × Call))

/-- The store after the first `n` calls. -/
def after (n : ℕ) : Store := run (step cfg) (opening products users) (acts.take n)

theorem books_after (n : ℕ) : Books users (after cfg products users acts n) := by
  refine run_preserves (I := Books users) (fun s a h => ?_) _ (books_opening products users)
  rcases step_effect cfg s a with hsame | heffect
  · rw [hsame]
    exact h
  · exact h.effect heffect

theorem find_after_of_closed {n m : ℕ} (hnm : n ≤ m) {id : ℤ} {order : ProductOrder}
    (horder : (after cfg products users acts n).orders.find id = some order)
    (hclosed : order.fulfillmentStatus ≠ .pending) : (after cfg products users acts m).orders.find id = some order := by
  obtain ⟨rest, hrest⟩ := run_take_of_le (step cfg) (opening products users) acts hnm
  rw [after, hrest]
  exact run_preserves (I := fun s : Store => s.orders.find id = some order)
    (fun s a h => find_step_of_closed h hclosed cfg a) rest horder

/-- Every shipment has a moment before it in which its order is paid and open. -/
theorem paid_before_shipped (n : ℕ) {id : ℤ} {order : ProductOrder}
    (horder : (after cfg products users acts n).orders.find id = some order)
    (hshipped : order.fulfillmentStatus = .shipped) :
    ∃ m < n, ∃ before, (after cfg products users acts m).orders.find id = some before
      ∧ before.paymentStatus = .paid ∧ before.fulfillmentStatus = .pending := by
  induction n with
  | zero => cases horder
  | succ n ih =>
    have hearlier : (after cfg products users acts n).orders.find id = some order →
        ∃ m < n + 1, ∃ before, (after cfg products users acts m).orders.find id = some before
          ∧ before.paymentStatus = .paid ∧ before.fulfillmentStatus = .pending := by
      intro hn
      obtain ⟨m, hm, hbefore⟩ := ih hn
      exact ⟨m, by omega, hbefore⟩
    rw [after] at horder
    rcases run_take_succ (step cfg) (opening products users) acts n with hsame | ⟨a, ha⟩
    · rw [hsame] at horder
      exact hearlier horder
    · rw [ha] at horder
      rcases step_effect cfg (after cfg products users acts n) a with hstay | heffect
      · exact hearlier (hstay ▸ horder)
      · rcases heffect.shipped horder hshipped with hn | hbefore
        · exact hearlier hn
        · exact ⟨n, by omega, hbefore⟩

/-- **The ledger of product orders.**  After any number of calls, each user's quota and what the user's wallet
orders hold add up to the quota at the start, and the quota is not negative if it was not; every wallet order
that is cancelled has had one refund, of all it paid, and the others none; every shipped order was paid
before; and no later call changes the row of a shipped or cancelled order. -/
theorem productOrder_ledger (n : ℕ) :
    (∀ user ∈ users.rows, ∃ user', (after cfg products users acts n).users.find user.id = some user'
        ∧ user'.quota + (after cfg products users acts n).held user.id = user.quota
        ∧ (0 ≤ user.quota → 0 ≤ user'.quota))
      ∧ (∀ order ∈ (after cfg products users acts n).orders.rows, order.paymentMethod = .wallet →
          (after cfg products users acts n).refundsOf order.id =
            if order.fulfillmentStatus = .cancelled then [⟨order.id, order.userId, order.paidQuota⟩] else [])
      ∧ (∀ order ∈ (after cfg products users acts n).orders.rows, order.fulfillmentStatus = .shipped →
          ∃ m < n, ∃ before, (after cfg products users acts m).orders.find order.id = some before
            ∧ before.paymentStatus = .paid ∧ before.fulfillmentStatus = .pending)
      ∧ (∀ order ∈ (after cfg products users acts n).orders.rows, order.fulfillmentStatus ≠ .pending →
          ∀ m, n ≤ m → (after cfg products users acts m).orders.find order.id = some order) := by
  have hbooks := books_after cfg products users acts n
  refine ⟨hbooks.balance, fun order horder hmethod => ?_, fun order horder hshipped => ?_,
    fun order horder hclosed m hnm => ?_⟩
  · rw [hbooks.refunded, Table.find_of_mem horder]
    simp [ProductOrder.refundsDue, hmethod]
  · exact paid_before_shipped cfg products users acts n (Table.find_of_mem horder) hshipped
  · exact find_after_of_closed cfg products users acts hnm (Table.find_of_mem horder) hclosed

end Runs

end OneApi.Payment.ProductOrders
