import Mathlib
import TsaBackend.OrderEffects

/-!
Notifications of the payment gateway, handled one after another.

A notification that is verified and names a payment debits the order of the payment and
marks the payment, again and again when it is delivered again. Notifications for different
payments commute.
-/

namespace TsaBackend.Webhooks

open Call OrderEffects

/-- The balance of an order drops by an amount and the flag follows it. -/
def debit (amount : Money) (o : Order) : Order := payOrder (newRemainingAmount o amount) o

@[simp] lemma debit_debit (a b : Money) (o : Order) : debit a (debit b o) = debit (b + a) o := by
  simp [debit, payOrder, newRemainingAmount, sub_sub]

/-- The payment a notification is processed for, and its order. -/
def target (cfg : Config) (s : DB) (body : WebhookType) : Option (Id × Id) :=
  if cfg.verifyPaymentWebhookData body = true ∧ body.orderCode ≠ 123 then
    (s.findPayment (toString body.orderCode)).bind fun e =>
      if e.2.orderId ∈ s.orders then some (e.1, e.2.orderId) else none
  else none

/-- What a notification does to the tables. -/
def receive (cfg : Config) (s : DB) (body : WebhookType) : DB :=
  match target cfg s body with
  | none => s
  | some (paymentId, orderId) => { s with
      orders := s.orders.modify orderId (debit body.amount)
      payments := s.payments.modify paymentId (markPaid body) }

variable {cfg : Config} {s t : DB} {body : WebhookType}

lemma receive_none (h : target cfg s body = none) : receive cfg s body = s := by
  simp [receive, h]

lemma receive_some {paymentId orderId : Id} (h : target cfg s body = some (paymentId, orderId)) :
    receive cfg s body = { s with
      orders := s.orders.modify orderId (debit body.amount)
      payments := s.payments.modify paymentId (markPaid body) } := by
  simp [receive, h]

lemma webhookTransaction_eq (hv : cfg.verifyPaymentWebhookData body = true)
    (hc : body.orderCode ≠ 123) :
    match webhookTransaction body s with
    | .ok (_, t) => t = receive cfg s body
    | .error _ => receive cfg s body = s := by
  unfold webhookTransaction receive target
  rw [if_pos ⟨hv, hc⟩]
  rcases hp : s.findPayment (toString body.orderCode) with _ | ⟨paymentId, payment⟩
  · rfl
  rcases ho : s.orders.lookup payment.orderId with _ | order
  · have hno : payment.orderId ∉ s.orders := by simp [Table.mem_iff_lookup, ho]
    simp [ho, hno]
  have hmem : payment.orderId ∈ s.orders := Table.mem_iff_lookup.mpr ⟨order, ho⟩
  have hpay : paymentId ∈ s.payments :=
    Table.mem_iff_lookup.mpr ⟨payment, (Table.findFirst_some hp).1⟩
  have hfun : s.orders.modify payment.orderId (payOrder (newRemainingAmount order body.amount)) =
      s.orders.modify payment.orderId (debit body.amount) := by
    refine Table.modify_congr fun r hr => ?_
    obtain rfl : order = r := by simpa [ho] using hr
    rfl
  have hu := DB.updateOrder_eq (f := payOrder (newRemainingAmount order body.amount)) ho .kept rfl rfl
  have hpu : ∀ orders, DB.updatePayment { s with orders := orders } paymentId (markPaid body) = _ :=
    fun orders => DB.updatePayment_eq (s := { s with orders := orders }) hpay
  simp only [ho, hu, hpu, Bind.bind, Except.bind, Option.bind_some, hmem, if_true, hfun]
  rfl

/-- **The handler is its effect**: whatever it meets, it leaves the tables of `receive`, and
it never throws. -/
theorem handleWebhook_wp {E : Input → Prop} : (handleWebhook cfg body).wp E Any
    (fun _ t => t = receive cfg s body) (fun _ _ => False) s := by
  unfold handleWebhook processWebhook
  rw [wp_tryCatch, wp_throwIf_bind]
  refine ⟨fun hv => ?_, fun hv => ?_⟩
  · have ht : target cfg s body = none := by simp_all [target]
    simp [receive, ht]
  rw [not_not] at hv
  rw [wp_when]
  split
  case isFalse hc =>
    have ht : target cfg s body = none := by simp_all [target]
    simp [receive, ht]
  case isTrue hc =>
    rw [wp_bind, wp_atomic]
    intro i _
    have htx := webhookTransaction_eq (s := s) hv hc
    rcases hw : webhookTransaction body s with e | ⟨o, t⟩
    · rw [hw] at htx
      exact ⟨trivial, htx.symm⟩
    · rw [hw] at htx
      refine ⟨trivial, ?_⟩
      rcases o.studentId with _ | u
      · exact htx
      · refine wp_service.mpr fun j _ => ⟨trivial, ?_⟩
        split <;> exact htx

lemma handleWebhook_exec (ω : ℕ → Input) :
    ((handleWebhook cfg body).exec ω s).2 = receive cfg s body := by
  have hends : Ends (handleWebhook cfg body) s fun t => t = receive cfg s body :=
    ends_of_wp (wp_mono handleWebhook_wp (fun _ _ h => h) fun _ _ h => h.elim)
  exact hends ω

lemma mem_orders_receive {id : Id} : id ∈ (receive cfg s body).orders ↔ id ∈ s.orders := by
  unfold receive
  split <;> simp

lemma findPayment_receive (code : String) :
    ((receive cfg s body).findPayment code).map (fun e => (e.1, e.2.orderId)) =
      (s.findPayment code).map fun e => (e.1, e.2.orderId) := by
  unfold receive
  split
  · rfl
  · simp only [DB.findPayment]
    rw [Table.findFirst_modify (f := markPaid body) fun _ _ => rfl, Option.map_map]
    congr 1
    funext e
    dsimp only [Function.comp]
    split <;> rfl

/-- Which payment a notification is processed for does not depend on what came before. -/
lemma target_receive (body' : WebhookType) :
    target cfg (receive cfg s body) body' = target cfg s body' := by
  have htarget : ∀ u : DB, target cfg u body' =
      if cfg.verifyPaymentWebhookData body' = true ∧ body'.orderCode ≠ 123 then
        ((u.findPayment (toString body'.orderCode)).map fun e => (e.1, e.2.orderId)).bind fun e =>
          if e.2 ∈ u.orders then some e else none
      else none := by
    intro u
    simp [target, Option.bind_map]
  rw [htarget, htarget, findPayment_receive]
  simp only [mem_orders_receive]

/-- The tables after a list of notifications. -/
def receiveAll (cfg : Config) (s : DB) (ws : List WebhookType) : DB := ws.foldl (receive cfg) s

variable {ws : List WebhookType}

/-- The notification debits this order. -/
def Pays (cfg : Config) (s : DB) (orderId : Id) (w : WebhookType) : Prop :=
  ∃ paymentId, target cfg s w = some (paymentId, orderId)

/-- The notification marks this payment. -/
def Marks (cfg : Config) (s : DB) (paymentId : Id) (w : WebhookType) : Prop :=
  ∃ orderId, target cfg s w = some (paymentId, orderId)

instance (orderId : Id) (w : WebhookType) : Decidable (Pays cfg s orderId w) :=
  decidable_of_iff ((target cfg s w).map Prod.snd = some orderId) (by
    simp [Pays])

instance (paymentId : Id) (w : WebhookType) : Decidable (Marks cfg s paymentId w) :=
  decidable_of_iff ((target cfg s w).map Prod.fst = some paymentId) (by
    simp [Marks])

lemma pays_receive {id : Id} {w : WebhookType} :
    Pays cfg (receive cfg s body) id w ↔ Pays cfg s id w := by
  simp only [Pays, target_receive]

lemma marks_receive {id : Id} {w : WebhookType} :
    Marks cfg (receive cfg s body) id w ↔ Marks cfg s id w := by
  simp only [Marks, target_receive]

lemma lookup_orders_receive (id : Id) : (receive cfg s body).orders.lookup id =
    (s.orders.lookup id).map fun o => if Pays cfg s id body then debit body.amount o else o := by
  unfold receive
  rcases ht : target cfg s body with _ | ⟨paymentId, orderId⟩
  · simp [Pays, ht]
  · rw [Table.lookup_modify]
    by_cases hid : id = orderId
    · subst hid
      simp [Pays, ht]
    · simp [Pays, ht, hid, Ne.symm hid]

lemma lookup_payments_receive (id : Id) : (receive cfg s body).payments.lookup id =
    (s.payments.lookup id).map fun p => if Marks cfg s id body then markPaid body p else p := by
  unfold receive
  rcases ht : target cfg s body with _ | ⟨paymentId, orderId⟩
  · simp [Marks, ht]
  · rw [Table.lookup_modify]
    by_cases hid : id = paymentId
    · subst hid
      simp [Marks, ht]
    · simp [Marks, ht, hid, Ne.symm hid]

lemma lookup_orders_receiveAll (id : Id) : (receiveAll cfg s ws).orders.lookup id =
    (s.orders.lookup id).map fun o =>
      ws.foldl (fun o w => if Pays cfg s id w then debit w.amount o else o) o := by
  induction ws generalizing s with
  | nil => simp [receiveAll]
  | cons b ws ih =>
    have h := ih (s := receive cfg s b)
    simp only [pays_receive] at h
    calc (receiveAll cfg (receive cfg s b) ws).orders.lookup id
        = ((receive cfg s b).orders.lookup id).map fun o =>
            ws.foldl (fun o w => if Pays cfg s id w then debit w.amount o else o) o := h
      _ = (s.orders.lookup id).map fun o =>
            (b :: ws).foldl (fun o w => if Pays cfg s id w then debit w.amount o else o) o := by
          rw [lookup_orders_receive, Option.map_map]
          rfl

lemma lookup_payments_receiveAll (id : Id) : (receiveAll cfg s ws).payments.lookup id =
    (s.payments.lookup id).map fun p =>
      ws.foldl (fun p w => if Marks cfg s id w then markPaid w p else p) p := by
  induction ws generalizing s with
  | nil => simp [receiveAll]
  | cons b ws ih =>
    have h := ih (s := receive cfg s b)
    simp only [marks_receive] at h
    calc (receiveAll cfg (receive cfg s b) ws).payments.lookup id
        = ((receive cfg s b).payments.lookup id).map fun p =>
            ws.foldl (fun p w => if Marks cfg s id w then markPaid w p else p) p := h
      _ = (s.payments.lookup id).map fun p =>
            (b :: ws).foldl (fun p w => if Marks cfg s id w then markPaid w p else p) p := by
          rw [lookup_payments_receive, Option.map_map]
          rfl

variable (cfg s ws) in
/-- Only orders and payments change, and none is created or deleted. -/
lemma receiveAll_frame : ∃ orders payments, receiveAll cfg s ws = { s with orders, payments } ∧
    orders.keys = s.orders.keys ∧ payments.keys = s.payments.keys := by
  induction ws generalizing s with
  | nil => exact ⟨s.orders, s.payments, rfl, rfl, rfl⟩
  | cons b ws ih =>
    obtain ⟨orders, payments, h, ho, hp⟩ := ih (receive cfg s b)
    refine ⟨orders, payments, ?_, ho.trans ?_, hp.trans ?_⟩
    · rw [receiveAll, List.foldl_cons]
      refine h.trans ?_
      unfold receive
      split <;> rfl
    · unfold receive
      split <;> simp
    · unfold receive
      split <;> simp

lemma foldl_debit (p : WebhookType → Prop) [DecidablePred p] (o : Order) :
    ws.foldl (fun o w => if p w then debit w.amount o else o) o =
      if ws.filter p = [] then o else debit ((ws.filter p).map (·.amount)).sum o := by
  induction ws generalizing o with
  | nil => simp
  | cons w ws ih =>
    rw [List.foldl_cons, ih]
    by_cases hw : p w
    · by_cases hws : ws.filter p = []
      · simp [hw, hws]
      · simp [hw, hws]
    · simp [hw]

/-! ### Different payments, and what a list leaves -/

/-- A payment is found under its own code only. -/
lemma code_of_target {paymentId orderId : Id} (h : target cfg s body = some (paymentId, orderId)) :
    cfg.verifyPaymentWebhookData body = true ∧ body.orderCode ≠ 123 ∧
      ∃ p, s.payments.lookup paymentId = some p ∧ p.orderCode = toString body.orderCode ∧
        p.orderId = orderId ∧ orderId ∈ s.orders := by
  unfold target at h
  split at h
  · next hv =>
    obtain ⟨⟨pid, p⟩, hp, he⟩ := Option.bind_eq_some_iff.mp h
    split at he
    · next hmem =>
      cases he
      obtain ⟨hlookup, hcode⟩ := Table.findFirst_some hp
      exact ⟨hv.1, hv.2, p, hlookup, by simpa using hcode, rfl, hmem⟩
    · cases he
  · cases h

lemma findPayment_of_target {x : Id × Id} (h : target cfg s body = some x) :
    (s.findPayment (toString body.orderCode)).map (fun e => (e.1, e.2.orderId)) = some x := by
  unfold target at h
  split at h
  · obtain ⟨e, he, hx⟩ := Option.bind_eq_some_iff.mp h
    split at hx
    · rw [he, Option.map_some, hx]
    · cases hx
  · cases h

/-- **Notifications with different codes commute.** -/
theorem receive_comm {a b : WebhookType} (hab : a.orderCode ≠ b.orderCode) :
    receive cfg (receive cfg s a) b = receive cfg (receive cfg s b) a := by
  have hb : target cfg (receive cfg s a) b = target cfg s b := target_receive b
  have ha : target cfg (receive cfg s b) a = target cfg s a := target_receive a
  rcases hta : target cfg s a with _ | ⟨pa, oa⟩
  · rw [hta] at ha
    rw [receive_none hta, receive_none ha]
  rcases htb : target cfg s b with _ | ⟨pb, ob⟩
  · rw [htb] at hb
    rw [receive_none htb, receive_none hb]
  have hp : pa ≠ pb := by
    rintro rfl
    obtain ⟨_, _, p, hpa, hca, _⟩ := code_of_target hta
    obtain ⟨_, _, p', hpb, hcb, _⟩ := code_of_target htb
    obtain rfl : p = p' := by simpa [hpa] using hpb
    exact hab (Int.repr_injective (hca.symm.trans hcb))
  have horders : (s.orders.modify oa (debit a.amount)).modify ob (debit b.amount) =
      (s.orders.modify ob (debit b.amount)).modify oa (debit a.amount) := by
    rcases eq_or_ne oa ob with rfl | ho
    · rw [Table.modify_modify, Table.modify_modify]
      congr 1
      funext o
      simp [add_comm]
    · exact Table.modify_comm _ _ _ ho
  rw [receive_some (hb.trans htb), receive_some (ha.trans hta), receive_some hta, receive_some htb]
  simp only [horders, Table.modify_comm _ _ _ hp]

/-- A list of notifications for different payments can be handled in any order. -/
lemma receiveAll_perm {us : List WebhookType} (hd : (ws.map (·.orderCode)).Nodup)
    (h : us.Perm ws) : receiveAll cfg s us = receiveAll cfg s ws := by
  refine (h.symm.foldl_eq' (fun a ha b hb z => ?_) s).symm
  rcases eq_or_ne a b with rfl | hab
  · rfl
  · exact receive_comm fun hcode => hab (List.inj_on_of_nodup_map hd ha hb hcode)

/-- The unique codes of payments, and their foreign key. -/
structure PaymentKeys (s : DB) : Prop where
  orderCode : ∀ e ∈ s.payments.entries, ∀ e' ∈ s.payments.entries,
    e.2.orderCode = e'.2.orderCode → e.1 = e'.1
  orderId : ∀ e ∈ s.payments.entries, e.2.orderId ∈ s.orders

/-- A verified notification names this payment, and is not the gateway's test. -/
def Names (cfg : Config) (w : WebhookType) (p : Payment) : Prop :=
  cfg.verifyPaymentWebhookData w = true ∧ w.orderCode ≠ 123 ∧ p.orderCode = toString w.orderCode

instance (w : WebhookType) (p : Payment) : Decidable (Names cfg w p) := by
  unfold Names; infer_instance

lemma target_of_names (hs : PaymentKeys s) {id : Id} {p : Payment}
    (hp : s.payments.lookup id = some p) (hn : Names cfg body p) :
    target cfg s body = some (id, p.orderId) := by
  obtain ⟨hv, hc, hcode⟩ := hn
  unfold target
  rw [if_pos ⟨hv, hc⟩]
  rcases hf : s.findPayment (toString body.orderCode) with _ | ⟨id', p'⟩
  · have := Table.findFirst_none.mp hf id p hp
    simp [hcode] at this
  · obtain ⟨hp', hcode'⟩ := Table.findFirst_some hf
    have hmem := Table.lookup_eq_some.mp hp
    have hid : id' = id := hs.orderCode _ (Table.lookup_eq_some.mp hp') _ hmem
      (by simpa [hcode] using hcode')
    subst hid
    obtain rfl : p' = p := by simpa [hp] using hp'.symm
    simp [hs.orderId _ hmem]

/-- A notification marks exactly the payment it names. -/
lemma marks_iff (hs : PaymentKeys s) {id : Id} {p : Payment}
    (hp : s.payments.lookup id = some p) : Marks cfg s id body ↔ Names cfg body p := by
  constructor
  · rintro ⟨orderId, h⟩
    obtain ⟨hv, hc, p', hp', hcode, _⟩ := code_of_target h
    obtain rfl : p = p' := by simpa [hp] using hp'
    exact ⟨hv, hc, hcode⟩
  · exact fun hn => ⟨_, target_of_names hs hp hn⟩

/-- A notification debits the order of the payment it names. -/
lemma pays_iff (hs : PaymentKeys s) {id : Id} : Pays cfg s id body ↔
    ∃ e ∈ s.payments.entries, e.2.orderId = id ∧ Names cfg body e.2 := by
  constructor
  · rintro ⟨paymentId, h⟩
    obtain ⟨hv, hc, p, hp, hcode, ho, _⟩ := code_of_target h
    exact ⟨⟨paymentId, p⟩, Table.lookup_eq_some.mp hp, ho, hv, hc, hcode⟩
  · rintro ⟨⟨paymentId, p⟩, hmem, rfl, hn⟩
    exact ⟨paymentId, target_of_names hs (Table.lookup_eq_some.mpr hmem) hn⟩

/-- The tables after a notification, on the inputs its handler meets. -/
def deliver (cfg : Config) (s : DB) (w : WebhookType × (ℕ → Input)) : DB :=
  ((handleWebhook cfg w.1).exec w.2 s).2

lemma run_deliver (ws : List (WebhookType × (ℕ → Input))) :
    Machine.run (deliver cfg) s ws = receiveAll cfg s (ws.map Prod.fst) := by
  induction ws generalizing s with
  | nil => rfl
  | cons w ws ih =>
    rw [Machine.run_cons, ih, deliver, handleWebhook_exec]
    rfl

lemma foldl_markPaid_of_not {p : Payment} {q : WebhookType → Prop} [DecidablePred q]
    (h : ∀ w ∈ ws, ¬ q w) : ws.foldl (fun p w => if q w then markPaid w p else p) p = p := by
  induction ws with
  | nil => rfl
  | cons w ws ih =>
    rw [List.foldl_cons, if_neg (h w (by simp))]
    exact ih fun v hv => h v (by simp [hv])

/-- A payment is marked by the one notification that names it. -/
lemma lookup_payment_named (hs : PaymentKeys s) (hd : (ws.map (·.orderCode)).Nodup) {id : Id}
    {p : Payment} (hp : s.payments.lookup id = some p) {w : WebhookType} (hw : w ∈ ws)
    (hn : Names cfg w p) : (receiveAll cfg s ws).payments.lookup id = some (markPaid w p) := by
  rw [lookup_payments_receiveAll, hp, Option.map_some, Option.some.injEq]
  obtain ⟨l₁, l₂, rfl⟩ := List.append_of_mem hw
  have hother : ∀ v ∈ l₁ ++ l₂, ¬ Marks cfg s id v := by
    intro v hv hm
    have hcode : v.orderCode = w.orderCode :=
      Int.repr_injective ((((marks_iff hs hp).mp hm).2.2.symm).trans hn.2.2)
    rw [List.map_append, List.map_cons, List.nodup_middle, List.nodup_cons, ← List.map_append] at hd
    exact hd.1 (hcode ▸ List.mem_map_of_mem hv)
  have h₁ : l₁.foldl (fun p w => if Marks cfg s id w then markPaid w p else p) p = p :=
    foldl_markPaid_of_not fun v hv => hother v (by simp [hv])
  have h₂ : l₂.foldl (fun p w => if Marks cfg s id w then markPaid w p else p) (markPaid w p) =
      markPaid w p := foldl_markPaid_of_not fun v hv => hother v (by simp [hv])
  rw [List.foldl_append, h₁, List.foldl_cons, if_pos ((marks_iff hs hp).mpr hn), h₂]

/-- Marking a payment again undoes what other notifications wrote in between. -/
lemma markPaid_absorb (a b : WebhookType) (p : Payment) :
    markPaid a (markPaid b (markPaid a p)) = markPaid a (markPaid b p) := by
  rcases a with ⟨_, _, x, y, z, _⟩
  cases x <;> cases y <;> cases z <;> rfl

lemma markPaid_idem (a : WebhookType) (p : Payment) : markPaid a (markPaid a p) = markPaid a p := by
  rcases a with ⟨_, _, x, y, z, _⟩
  cases x <;> cases y <;> cases z <;> rfl

/-- A later delivery of a notification absorbs an earlier one. -/
lemma foldl_markPaid_absorb {q : WebhookType → Prop} [DecidablePred q] {a : WebhookType} (hq : q a)
    (ha : a ∈ ws) {p p' : Payment} (h : markPaid a p = markPaid a p') :
    ws.foldl (fun p w => if q w then markPaid w p else p) p =
      ws.foldl (fun p w => if q w then markPaid w p else p) p' := by
  induction ws generalizing p p' with
  | nil => simp at ha
  | cons b ws ih =>
    rw [List.foldl_cons, List.foldl_cons]
    rcases List.mem_cons.mp ha with rfl | ha
    · rw [if_pos hq, if_pos hq, h]
    · refine ih ha ?_
      split
      · calc markPaid a (markPaid b p)
            = markPaid a (markPaid b (markPaid a p)) := (markPaid_absorb a b p).symm
          _ = markPaid a (markPaid b (markPaid a p')) := by rw [h]
          _ = markPaid a (markPaid b p') := markPaid_absorb a b p'
      · exact h

/-- Only the last delivery of each notification counts for a payment. -/
lemma foldl_markPaid_dedup (q : WebhookType → Prop) [DecidablePred q] (p : Payment) :
    ws.foldl (fun p w => if q w then markPaid w p else p) p =
      ws.dedup.foldl (fun p w => if q w then markPaid w p else p) p := by
  induction ws generalizing p with
  | nil => rfl
  | cons a ws ih =>
    by_cases ha : a ∈ ws
    · rw [List.dedup_cons_of_mem ha, ← ih, List.foldl_cons]
      split
      · next hq => exact foldl_markPaid_absorb hq ha (markPaid_idem a p)
      · rfl
    · rw [List.dedup_cons_of_notMem ha, List.foldl_cons, List.foldl_cons, ih]

lemma dedup_append_surplus (ws : List WebhookType) : (ws.dedup ++ ws.diff ws.dedup).Perm ws := by
  refine List.subperm_append_diff_self_of_count_le fun w hw => ?_
  rw [List.count_dedup, if_pos (List.mem_dedup.mp hw)]
  exact List.count_pos_iff.mpr (List.mem_dedup.mp hw)

/-- The deliveries of a list beyond one for each notification. -/
def surplus (ws : List WebhookType) : List WebhookType := ws.diff ws.dedup

/-- What the surplus deliveries take from an order. -/
def overcharge (cfg : Config) (s : DB) (ws : List WebhookType) (id : Id) : Money :=
  (((surplus ws).filter (Pays cfg s id)).map (·.amount)).sum

variable (cfg s ws) in
lemma sum_dedup (id : Id) : ((ws.filter (Pays cfg s id)).map (·.amount)).sum =
    ((ws.dedup.filter (Pays cfg s id)).map (·.amount)).sum + overcharge cfg s ws id := by
  have hperm := ((dedup_append_surplus ws).filter (Pays cfg s id)).map (·.amount)
  rw [← hperm.sum_eq, List.filter_append, List.map_append, List.sum_append]
  rfl

lemma receiveAll_dedup_payments :
    (receiveAll cfg s ws).payments = (receiveAll cfg s ws.dedup).payments := by
  obtain ⟨_, _, h, _, hk⟩ := receiveAll_frame cfg s ws
  obtain ⟨_, _, h', _, hk'⟩ := receiveAll_frame cfg s ws.dedup
  refine Table.ext_lookup (by rw [h, h', hk, hk']) fun id => ?_
  rw [lookup_payments_receiveAll, lookup_payments_receiveAll]
  congr 1
  funext p
  exact foldl_markPaid_dedup _ p

/-- The orders come out right just when no order is overcharged. -/
lemma receiveAll_dedup_orders : (receiveAll cfg s ws).orders = (receiveAll cfg s ws.dedup).orders ↔
    ∀ e ∈ s.orders.entries, overcharge cfg s ws e.1 = 0 := by
  have hnil : ∀ id, ws.dedup.filter (Pays cfg s id) = [] ↔ ws.filter (Pays cfg s id) = [] := by
    intro id
    simp [List.filter_eq_nil_iff]
  constructor
  · rintro h ⟨id, o⟩ he
    have hid := congrArg (fun t : Table Id Order => t.lookup id) h
    simp only [lookup_orders_receiveAll, Table.lookup_eq_some.mpr he, Option.map_some,
      Option.some.injEq, foldl_debit, hnil] at hid
    have hsum := sum_dedup cfg s ws id
    split at hid
    · next hws =>
      rw [(hnil id).mpr hws, hws] at hsum
      simpa using hsum.symm
    · have hrem := congrArg Order.remainingAmount hid
      simp only [debit, payOrder, newRemainingAmount, Option.some.injEq] at hrem
      linarith
  · intro h
    obtain ⟨_, _, hf, hk, _⟩ := receiveAll_frame cfg s ws
    obtain ⟨_, _, hf', hk', _⟩ := receiveAll_frame cfg s ws.dedup
    refine Table.ext_lookup (by rw [hf, hf', hk, hk']) fun id => ?_
    rw [lookup_orders_receiveAll, lookup_orders_receiveAll]
    refine Option.map_congr fun o ho => ?_
    rw [foldl_debit, foldl_debit]
    simp only [hnil]
    rw [sum_dedup, h ⟨id, o⟩ (Table.lookup_eq_some.mp ho), add_zero]

lemma overcharge_eq_zero_iff (hpos : ∀ w ∈ ws, 0 < w.amount) :
    (∀ e ∈ s.orders.entries, overcharge cfg s ws e.1 = 0) ↔
      ∀ w ∈ surplus ws, target cfg s w = none := by
  constructor
  · intro h w hw
    rcases ht : target cfg s w with _ | ⟨paymentId, orderId⟩
    · rfl
    obtain ⟨_, _, _, _, _, _, hmem⟩ := code_of_target ht
    obtain ⟨o, ho⟩ := Table.mem_iff_lookup.mp hmem
    have hsum : 0 < overcharge cfg s ws orderId := by
      refine List.sum_pos _ (fun x hx => ?_) ?_
      · obtain ⟨v, hv, rfl⟩ := List.mem_map.mp hx
        exact hpos v (List.diff_subset _ _ (List.mem_filter.mp hv).1)
      · have hpays : w ∈ (surplus ws).filter (Pays cfg s orderId) :=
          List.mem_filter.mpr ⟨hw, by simpa using ⟨paymentId, ht⟩⟩
        simpa using List.ne_nil_of_mem hpays
    exact absurd (h ⟨orderId, o⟩ (Table.lookup_eq_some.mp ho)) hsum.ne'
  · intro h e _
    have hnil : (surplus ws).filter (Pays cfg s e.1) = [] := by
      rw [List.filter_eq_nil_iff]
      intro w hw hpays
      obtain ⟨_, ht⟩ := of_decide_eq_true hpays
      rw [h w hw] at ht
      cases ht
    rw [overcharge, hnil]
    rfl

/-- **When redelivery is harmless**: the orders and payments are those of one delivery of
each notification just when the surplus deliveries take nothing from any order in sum;
when all amounts are positive, just when none of them is processed for a payment. -/
theorem redelivery_harmless_iff (cfg : Config) (s : DB) (ws us : List (WebhookType × (ℕ → Input)))
    (hus : us.map Prod.fst = (ws.map Prod.fst).dedup) :
    let t := Machine.run (deliver cfg) s ws
    let t' := Machine.run (deliver cfg) s us
    (t.orders = t'.orders ∧ t.payments = t'.payments ↔
      ∀ e ∈ s.orders.entries, overcharge cfg s (ws.map Prod.fst) e.1 = 0) ∧
    ((∀ w ∈ ws.map Prod.fst, 0 < w.amount) →
      (t.orders = t'.orders ∧ t.payments = t'.payments ↔
        ∀ w ∈ surplus (ws.map Prod.fst), target cfg s w = none)) := by
  intro t t'
  have hiff : t.orders = t'.orders ∧ t.payments = t'.payments ↔
      ∀ e ∈ s.orders.entries, overcharge cfg s (ws.map Prod.fst) e.1 = 0 := by
    simp only [t, t', run_deliver, hus]
    rw [← receiveAll_dedup_payments, ← receiveAll_dedup_orders]
    simp
  exact ⟨hiff, fun hpos => hiff.trans (overcharge_eq_zero_iff hpos)⟩

/-- A forged notification is harmless however often it comes. -/
theorem redelivery_harmless_iff_forged :
    (Machine.run (deliver Sample.config) Sample.dbWithPayments
      [({ Sample.webhook 7 5000 with signature := "" }, Sample.inputs 0),
       ({ Sample.webhook 7 5000 with signature := "" }, Sample.inputs 0)]).orders =
    (Machine.run (deliver Sample.config) Sample.dbWithPayments
      [({ Sample.webhook 7 5000 with signature := "" }, Sample.inputs 0)]).orders :=
  ((redelivery_harmless_iff Sample.config Sample.dbWithPayments
    [({ Sample.webhook 7 5000 with signature := "" }, Sample.inputs 0),
     ({ Sample.webhook 7 5000 with signature := "" }, Sample.inputs 0)]
    [({ Sample.webhook 7 5000 with signature := "" }, Sample.inputs 0)] (by decide)).1.mpr
    (by decide)).1

/-- A payment of 5000 that is notified twice takes 10000 from the balance of 12000. -/
theorem redelivered_webhook_debits_again :
    let once := Machine.run (deliver Sample.config) Sample.dbWithPayments
      [(Sample.webhook 7 5000, Sample.inputs 0)]
    let twice := Machine.run (deliver Sample.config) Sample.dbWithPayments
      [(Sample.webhook 7 5000, Sample.inputs 0), (Sample.webhook 7 5000, Sample.inputs 0)]
    (once.orders.lookup 10).bind (·.remainingAmount) = some 7000 ∧
      (twice.orders.lookup 10).bind (·.remainingAmount) = some 2000 ∧
      twice.orders ≠ once.orders := by
  intro once twice
  have h₁ : (once.orders.lookup 10).bind (·.remainingAmount) = some 7000 := by decide +kernel
  have h₂ : (twice.orders.lookup 10).bind (·.remainingAmount) = some 2000 := by decide +kernel
  refine ⟨h₁, h₂, fun h => ?_⟩
  rw [h, h₁] at h₂
  exact absurd h₂ (by decide +kernel)

end TsaBackend.Webhooks
