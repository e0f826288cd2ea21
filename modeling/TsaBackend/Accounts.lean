import TsaBackend.OrderWrites
import TsaBackend.ShippingFees
import TsaBackend.Webhooks

/-!
What orders cost, what of it is left to pay, and whether they count as paid, over runs of
creations, payment links, notifications and status changes.

Creation and notifications keep the balance and the flag in step. A cash payment sets the
flag alone and a claim the balance alone, and a later notification follows the balance.
-/

namespace TsaBackend.Accounts

open Call OrderEffects OrderWrites ShippingFees Webhooks

variable {cfg : Config} {dto : CreateOrderDto} {user : GetUserType} {s t u : DB} {id j : Id}
  {o row : Order}

structure Account where
  studentId : Option Id
  shippingFee : Option Money
  remainingAmount : Option Money
  isPaid : Bool
  deriving DecidableEq, Repr

def account (o : Order) : Account := ⟨o.studentId, o.shippingFee, o.remainingAmount, o.isPaid⟩

/-- The account of an order, when it exists. -/
def accountOf (s : DB) (id : Id) : Option Account := (s.orders.lookup id).map account

lemma accountOf_some (h : s.orders.lookup id = some o) : accountOf s id = some (account o) := by
  rw [accountOf, h, Option.map_some]

/-- The orders have the same accounts. -/
def Same (s t : DB) : Prop := ∀ id, accountOf t id = accountOf s id

/-- Every account satisfies `I`. -/
def All (I : Account → Prop) (s : DB) : Prop := ∀ id a, accountOf s id = some a → I a

variable {I : Account → Prop}

lemma all_same (h : Same s t) : All I t ↔ All I s := by
  simp only [All, h _]

lemma same_logs (h : Logs id s t) : Same s t := by
  intro j
  induction h with
  | refl => rfl
  | log i status reason canceledImage finishedImage receivedImage _ ih =>
    rw [← ih]
    simp only [accountOf, lookup_logged]
    split
    · rw [Option.map_map]
      rfl
    · rfl

lemma all_iff : All I s ↔ Every (fun o => I (account o)) s := by
  refine forall_congr' fun id => ⟨fun h o ho => h _ (accountOf_some ho), fun h a ha => ?_⟩
  obtain ⟨o, ho, rfl⟩ := Option.map_eq_some_iff.mp ha
  exact h o ho

lemma all_modify {f : Order → Order} (h : All I s) :
    All I { s with orders := s.orders.modify id f } ↔
      ∀ o, s.orders.lookup id = some o → I (account (f o)) :=
  all_iff.trans (every_modify (all_iff.mp h))

lemma all_inserted (h : All I s) : All I (inserted id row s) ↔ I (account row) :=
  all_iff.trans (every_insert (all_iff.mp h))

/-- Staff hands over an order that is on its way and is paid in cash. -/
def HandsOver (o : Order) (dto : UpdateStatusDto) (user : GetUserType) : Prop :=
  paysCash o dto.status user ∧ dto.finishedImage.truthy = true ∧ o.latestStatus = some .inTransport

variable {dto : UpdateStatusDto}

lemma passed_of_handsOver (h : HandsOver o dto user) : Passed cfg o dto user s s := by
  obtain ⟨⟨_, hst, _⟩, himage, hlatest⟩ := h
  have hcharges : ¬ charges dto := fun hc => by cases hst.symm.trans hc.1
  refine ⟨by simp [hst], fun _ => himage, by simp [hst], by simp [hst], by simp [hst],
    by rw [if_neg hcharges], ?_⟩
  rw [hlatest, hst]
  rfl

lemma handsOver_of_passed (h : Passed cfg o dto user s t) (hcash : paysCash o dto.status user) :
    HandsOver o dto user ∧ t = s := by
  have hst := hcash.2.1
  have hcharges : ¬ charges dto := fun hc => by cases hst.symm.trans hc.1
  refine ⟨⟨hcash, h.finishedImage hst, ?_⟩, by simpa [hcharges] using h.charge⟩
  have hvalid := h.valid
  rw [hst] at hvalid
  rcases hl : o.latestStatus with _ | st
  · simp [hl, isValidTransition] at hvalid
  · cases st <;> simp_all [isValidTransition, validTransitions]

/-- The tables after a cash payment. -/
def handedOver (id : Id) (s : DB) : DB := { s with orders := s.orders.modify id payCash }

/-- **A status change touches an account only by a handover in cash.** -/
theorem updateStatus_accounts : Ends (updateStatus cfg id dto user) s fun t =>
    (∃ o, s.orders.lookup id = some o ∧ HandsOver o dto user) ∧ Same (handedOver id s) t ∨
      (¬ ∃ o, s.orders.lookup id = some o ∧ HandsOver o dto user) ∧ Same s t := by
  refine ends_of_wp ?_
  rcases ho : s.orders.lookup id with _ | o
  · refine wp_mono (updateStatus_wp_none ho) (fun _ _ h => h.elim) fun _ t ht => .inr ⟨?_, ?_⟩
    · rintro ⟨_, h, _⟩
      cases h
    · rw [ht]
      exact fun _ => rfl
  have hpaid : ∀ s₁, Passed cfg o dto user s s₁ →
      (∃ o', some o = some o' ∧ HandsOver o' dto user) ∧
          Same (handedOver id s) (paid id o dto user s₁) ∨
        (¬ ∃ o', some o = some o' ∧ HandsOver o' dto user) ∧ Same s (paid id o dto user s₁) := by
    intro s₁ hs₁
    by_cases hcash : paysCash o dto.status user
    · obtain ⟨hover, rfl⟩ := handsOver_of_passed hs₁ hcash
      refine .inl ⟨⟨o, rfl, hover⟩, fun j => ?_⟩
      rw [paid, if_pos hcash]
      rfl
    · refine .inr ⟨?_, fun j => ?_⟩
      · rintro ⟨_, ⟨⟩, hover⟩
        exact hcash hover.1
      · rw [paid, if_neg hcash, accountOf, (passed_orders hs₁).1]
        rfl
  have htrans : ∀ {a b : DB}, Same a b → ∀ {c}, Same c a → Same c b := fun hab _ hca j =>
    (hab j).trans (hca j)
  refine wp_mono (updateStatus_wp ho) (fun _ t ht => ?_) fun _ t ht => ?_
  · obtain ⟨s₁, i, hs₁, _, _, rfl⟩ := ht
    have hlog : Same (paid id o dto user s₁) (recorded i id dto (paid id o dto user s₁)) :=
      same_logs (.log _ _ _ _ _ _ .refl)
    exact (hpaid s₁ hs₁).imp (.imp_right fun h => htrans hlog h) (.imp_right fun h => htrans hlog h)
  · rcases ht with ⟨rfl, hno⟩ | ⟨s₁, hs₁, _, rfl⟩
    · refine .inr ⟨?_, fun _ => rfl⟩
      rintro ⟨_, ⟨⟩, hover⟩
      exact hno _ (passed_of_handsOver hover)
    · exact hpaid s₁ hs₁

/-! ### Requests and paid orders -/

/-- The requests that create orders, ask for payments and move orders. -/
def Ordering : Request → Prop
  | .createOrder _ _ | .createPayOSPayment _ | .handleWebhook _ | .updateStatus _ _ _ => True
  | _ => False

/-- The body has no columns but those of `CreateStudentOrderDto`. -/
structure Documented (dto : CreateOrderDto) : Prop where
  studentId : dto.studentId = .undefined
  shippingFee : dto.shippingFee = .undefined
  phone : dto.phone = .undefined
  shipperId : dto.shipperId = .undefined
  isPaid : dto.isPaid = .undefined
  latestStatus : dto.latestStatus = .undefined
  remainingAmount : dto.remainingAmount = .undefined
  finishedImage : dto.finishedImage = .undefined
  receivedImage : dto.receivedImage = .undefined

lemma ends_handleWebhook {body : WebhookType} {Q : DB → Prop} :
    Ends (handleWebhook cfg body) s Q ↔ Q (receive cfg s body) := by
  simp only [Ends, handleWebhook_exec, forall_const]

lemma getShippingFee_pos (room building : Arg String) (dormitory : Arg Dormitory)
    (weight : Arg ℚ) : 0 < getShippingFee room building dormitory weight := by
  have hleast := (getShippingFeeOfName_bounds room building (nameOf dormitory) weight).1
  rw [getShippingFee_eq]
  omega

def Paid (s : DB) (id : Id) : Prop := ∃ a, accountOf s id = some a ∧ a.isPaid = true

instance (s : DB) (id : Id) : Decidable (Paid s id) :=
  decidable_of_iff ((accountOf s id).any (·.isPaid) = true) (by
    unfold Paid
    cases accountOf s id <;> simp)

/-- No paid order becomes unpaid. -/
def KeepsPaid (s t : DB) : Prop := ∀ id, Paid s id → Paid t id

/-- The notification leaves something to pay of a paid order. -/
def Reopens (cfg : Config) (s : DB) (body : WebhookType) : Prop :=
  ∃ id o, s.orders.lookup id = some o ∧ Pays cfg s id body ∧ o.isPaid = true ∧
    body.amount < o.remainingAmount.getD 0

lemma keepsPaid_same (h : Same s t) : KeepsPaid s t := by
  rintro id ⟨a, ha, hpaid⟩
  exact ⟨a, (h id).trans ha, hpaid⟩

lemma KeepsPaid.trans (h : KeepsPaid s t) (h' : KeepsPaid t u) : KeepsPaid s u :=
  fun id hid => h' id (h id hid)

lemma keepsPaid_modify {f : Order → Order} (hf : ∀ o, o.isPaid = true → (f o).isPaid = true) :
    KeepsPaid s { s with orders := s.orders.modify id f } := by
  rintro j ⟨a, ha, hpaid⟩
  obtain ⟨o, ho, rfl⟩ := Option.map_eq_some_iff.mp ha
  by_cases hj : j = id
  · subst hj
    exact ⟨account (f o), by simp [accountOf, ho], hf o hpaid⟩
  · exact ⟨account o, by simp [accountOf, hj, ho], hpaid⟩

lemma keepsPaid_created {dto : CreateOrderDto} (h : Created cfg dto user s t) : KeepsPaid s t := by
  cases h with
  | refused => exact fun _ h => h
  | @claimed id _ _ _ ht =>
    have hclaim : KeepsPaid s (claimed cfg dto user id s) := keepsPaid_modify fun _ h => h
    exact hclaim.trans (keepsPaid_same (same_logs ht))
  | @inserted id row _ _ hid ht =>
    refine KeepsPaid.trans ?_ (keepsPaid_same (same_logs ht))
    rintro j ⟨a, ha, hpaid⟩
    have hj : j ≠ id := by
      rintro rfl
      obtain ⟨o, ho, -⟩ := Option.map_eq_some_iff.mp ha
      exact hid (Table.mem_iff_lookup.mpr ⟨o, ho⟩)
    exact ⟨a, by simpa [accountOf, inserted, hj] using ha, hpaid⟩
  | confirmed _ ht => exact keepsPaid_same (same_logs ht)

lemma keepsPaid_receive {body : WebhookType} :
    KeepsPaid s (receive cfg s body) ↔ ¬ Reopens cfg s body := by
  constructor
  · rintro h ⟨id, o, ho, hpays, hpaid, hlt⟩
    obtain ⟨a, ha, hpaid'⟩ := h id ⟨account o, accountOf_some ho, hpaid⟩
    rw [accountOf, lookup_orders_receive, ho] at ha
    obtain rfl : account (debit body.amount o) = a := by simpa [hpays] using ha
    have hle : newRemainingAmount o body.amount ≤ 0 := of_decide_eq_true hpaid'
    rw [newRemainingAmount] at hle
    linarith
  · rintro h id ⟨a, ha, hpaid⟩
    obtain ⟨o, ho, rfl⟩ := Option.map_eq_some_iff.mp ha
    by_cases hpays : Pays cfg s id body
    · refine ⟨account (debit body.amount o), ?_, ?_⟩
      · simp [accountOf, lookup_orders_receive, ho, hpays]
      · have hle : o.remainingAmount.getD 0 ≤ body.amount :=
          not_lt.mp fun hlt => h ⟨id, o, ho, hpays, hpaid, hlt⟩
        simpa [account, debit, payOrder, newRemainingAmount] using hle
    · exact ⟨account o, by simp [accountOf, lookup_orders_receive, ho, hpays], hpaid⟩

/-- **Only a notification can make an order unpaid.** -/
lemma keepsPaid_serve {r : Request} (hr : Ordering r) (ω : ℕ → Input) :
    KeepsPaid s (serve cfg s (r, ω)) ↔ ∀ body, r = .handleWebhook body → ¬ Reopens cfg s body := by
  have hends : (∀ body, r ≠ .handleWebhook body) → Ends (r.call cfg) s (KeepsPaid s) := by
    intro hno
    cases r with
    | createOrder dto user => exact ends_drop.mpr (createOrder_ends.mono fun t => keepsPaid_created)
    | updateStatus id dto user =>
      refine ends_drop.mpr (updateStatus_accounts.mono fun t ht => ?_)
      rcases ht with ⟨_, ht⟩ | ⟨_, ht⟩
      · exact (keepsPaid_modify fun _ _ => rfl).trans (keepsPaid_same ht)
      · exact keepsPaid_same ht
    | createPayOSPayment dto =>
      refine createPayOSPayment_ends.mono fun t ht => ?_
      rcases ht with rfl | ⟨_, _, rfl⟩ <;> exact fun _ h => h
    | handleWebhook body => exact absurd rfl (hno body)
    | _ => exact hr.elim
  by_cases hw : ∃ body, r = .handleWebhook body
  · obtain ⟨body, rfl⟩ := hw
    have hserve : serve cfg s (.handleWebhook body, ω) = receive cfg s body := handleWebhook_exec ω
    simp only [hserve, keepsPaid_receive, Request.handleWebhook.injEq, forall_eq']
  · have hno : ∀ body, r ≠ .handleWebhook body := by simpa using hw
    exact ⟨fun _ body hbody => absurd hbody (hno body), fun _ => hends hno ω⟩

/-- **When paid orders stay paid**: in a run of these requests no step makes a paid order
unpaid just when no notification leaves something to pay of a paid order. -/
theorem paid_stays_paid_iff (cfg : Config) (s : DB) (ls : List (Request × (ℕ → Input)))
    (hls : ∀ l ∈ ls, Ordering l.1) :
    Machine.Along (serve cfg) (fun s l => KeepsPaid s (serve cfg s l)) s ls ↔
      Machine.Along (serve cfg) (fun s l => ∀ body, l.1 = .handleWebhook body →
        ¬ Reopens cfg s body) s ls :=
  Machine.along_congr (fun _ => True) (fun _ _ _ _ => trivial)
    (fun _ l hl _ => keepsPaid_serve (hls l hl) l.2) trivial

/-- A student's order paid in cash at the door, and a payment of 5000 that is notified late. -/
def lateNotification : List (Request × (ℕ → Input)) :=
  [(.createOrder { Sample.body with paymentMethod := .val .cash } Sample.student, Sample.inputs 10),
   (.createPayOSPayment ⟨5000, .val 10⟩, Sample.inputs 30),
   (.updateStatus 10 (.only .accepted) Sample.admin, Sample.inputs 0),
   (.updateStatus 10 { UpdateStatusDto.only .receivedExternal with receivedImage := .val "r.png" }
      Sample.staff, Sample.inputs 0),
   (.updateStatus 10 (.only .inTransport) Sample.staff, Sample.inputs 0),
   (.updateStatus 10 { UpdateStatusDto.only .delivered with finishedImage := .val "f.png" }
      Sample.staff, Sample.inputs 0),
   (.handleWebhook (Sample.webhook 1000 5000), Sample.inputs 0)]

theorem paid_stays_paid_iff_cash :
    let t := Machine.run (serve Sample.config) Sample.db (lateNotification.take 6)
    Paid t 10 ∧ Machine.Along (serve Sample.config)
      (fun s l => KeepsPaid s (serve Sample.config s l)) Sample.db (lateNotification.take 6) := by
  refine ⟨by decide +kernel, (paid_stays_paid_iff Sample.config Sample.db _ ?_).mpr ?_⟩
  · simp [lateNotification, Ordering]
  · simp [lateNotification, Machine.Along]

/-- The order was paid in cash; after the notification 7000 is left to pay. -/
theorem late_notification_makes_unpaid :
    (∀ l ∈ lateNotification, Ordering l.1) ∧
      Paid (Machine.run (serve Sample.config) Sample.db (lateNotification.take 6)) 10 ∧
      ¬ Paid (Machine.run (serve Sample.config) Sample.db lateNotification) 10 := by
  refine ⟨by simp [lateNotification, Ordering], by decide +kernel, by decide +kernel⟩

/-! ### Balances and flags -/

/-- An order of a student has a balance, and counts as paid when nothing is left of it. -/
def Agree (a : Account) : Prop :=
  a.studentId.isSome → ∃ r, a.remainingAmount = some r ∧ (a.isPaid = true ↔ r ≤ 0)

/-- The request claims no order that counts as paid, and takes no cash for a student's order
while its balance says that something is left. -/
def Balanced (cfg : Config) (s : DB) : Request → Prop
  | .createOrder dto user => ∀ id o, Claims cfg s dto user id o → o.isPaid = false
  | .updateStatus id dto user => ∀ o, s.orders.lookup id = some o → HandsOver o dto user →
      o.studentId.isSome → ∀ r, o.remainingAmount = some r → r ≤ 0
  | _ => True

/-- The fee of a body. -/
def feeOf (dto : CreateOrderDto) : Money := dto.amount

lemma feeOf_pos (dto : CreateOrderDto) : 0 < feeOf dto := by
  exact Nat.cast_pos.mpr (getShippingFee_pos _ _ _ _)

lemma account_claim (dto : CreateOrderDto) (o : Order) : account (claim cfg dto user o) =
    ⟨some user.id, some (feeOf dto), some (feeOf dto), o.isPaid⟩ := rfl

lemma account_studentRow {dto : CreateOrderDto} (h : studentRow cfg dto user = .ok row) :
    account row =
      ⟨some user.id, some (feeOf dto), some (feeOf dto), dto.isPaid.patchReq false⟩ := by
  obtain ⟨_, _, _, rfl⟩ := CreateOrderDto.create_ok h
  rfl

lemma studentId_adminRow {dto : CreateOrderDto} (h : adminRow dto = .ok row) :
    row.studentId = dto.studentId.patch none := by
  obtain ⟨_, _, _, rfl⟩ := CreateOrderDto.create_ok h
  rfl

lemma agree_claim {dto : CreateOrderDto} :
    Agree (account (claim cfg dto user o)) ↔ o.isPaid = false := by
  have hfee : ¬ feeOf dto ≤ 0 := not_le.mpr (feeOf_pos dto)
  simp [Agree, account_claim, hfee]

lemma agree_created {dto : CreateOrderDto} (hdoc : Documented dto) (hs : All Agree s)
    (hb : ∀ id o, Claims cfg s dto user id o → o.isPaid = false) (h : Created cfg dto user s t) :
    All Agree t := by
  cases h with
  | refused => exact hs
  | claimed hclaim ht =>
    rw [all_same (same_logs ht), claimed, all_modify hs]
    intro o ho
    obtain rfl := Option.some.inj (hclaim.lookup.symm.trans ho)
    exact agree_claim.mpr (hb _ _ hclaim)
  | inserted hrow _ ht =>
    rw [all_same (same_logs ht), all_inserted hs]
    rcases hrow with hrow | ⟨_, hrow⟩
    · have hfee := feeOf_pos dto
      rw [account_studentRow hrow.made, hdoc.isPaid]
      simp [Agree, Field.patchReq, Field.patch, hfee]
    · have hnone := studentId_adminRow hrow
      rw [hdoc.studentId] at hnone
      simp [Agree, account, hnone, Field.patch]
  | confirmed _ ht => exact (all_same (same_logs ht)).mpr hs

/-- **When a request keeps balances and flags in step.** -/
lemma agree_iff {r : Request} (hr : Ordering r) (hdoc : ∀ dto user, r = .createOrder dto user →
    Documented dto) (hs : All Agree s) : Ends (r.call cfg) s (All Agree) ↔ Balanced cfg s r := by
  cases r with
  | createOrder dto user =>
    refine ends_drop.trans ⟨fun h id o hclaim => ?_, fun hb => ?_⟩
    · obtain ⟨t, ht, hall⟩ := hclaim.reached h
      rw [all_same (same_logs ht), claimed, all_modify hs] at hall
      exact agree_claim.mp (hall o hclaim.lookup)
    · exact createOrder_ends.mono fun t ht => agree_created (hdoc _ _ rfl) hs hb ht
  | updateStatus id dto user =>
    have hpay : ∀ t, Same (handedOver id s) t → (All Agree t ↔
        ∀ o, s.orders.lookup id = some o → Agree (account (payCash o))) := fun t ht => by
      rw [all_same ht, handedOver, all_modify hs]
    refine ends_drop.trans ⟨fun h o ho hover hst r hr => ?_, fun hb => ?_⟩
    · obtain ⟨t, ht, hall⟩ := updateStatus_accounts.meet h
      rcases ht with ⟨_, ht⟩ | ⟨hno, _⟩
      · obtain ⟨r', hr', hiff⟩ := (hpay t ht).mp hall o ho hst
        obtain rfl := Option.some.inj (hr.symm.trans hr')
        exact hiff.mp rfl
      · exact absurd ⟨o, ho, hover⟩ hno
    · refine updateStatus_accounts.mono fun t ht => ?_
      rcases ht with ⟨⟨o, ho, hover⟩, ht⟩ | ⟨_, ht⟩
      · refine (hpay t ht).mpr fun o' ho' hst => ?_
        obtain rfl := Option.some.inj (ho.symm.trans ho')
        obtain ⟨r, hr, _⟩ := hs id _ (accountOf_some ho) hst
        exact ⟨r, hr, fun _ => hb o ho hover hst r hr, fun _ => rfl⟩
      · exact (all_same ht).mpr hs
  | createPayOSPayment dto =>
    simp only [Balanced, iff_true, Request.call]
    refine createPayOSPayment_ends.mono fun t ht => ?_
    rcases ht with rfl | ⟨_, _, rfl⟩ <;> exact hs
  | handleWebhook body =>
    simp only [Balanced, iff_true, Request.call, ends_handleWebhook]
    intro id a ha
    obtain ⟨o', ho', rfl⟩ := Option.map_eq_some_iff.mp ha
    rw [lookup_orders_receive] at ho'
    obtain ⟨o, ho, rfl⟩ := Option.map_eq_some_iff.mp ho'
    split
    · exact fun _ => ⟨_, rfl, decide_eq_true_iff⟩
    · exact hs id _ (accountOf_some ho)
  | _ => exact hr.elim

/-- **When balance and flag agree**: in a run of these requests with documented bodies, from
tables where they agree, they agree in every state whose steps were all balanced, and a step
that is not balanced can end where they do not. -/
theorem accounts_agree (cfg : Config) (s : DB) (hs : All Agree s)
    (ls : List (Request × (ℕ → Input))) (hls : ∀ l ∈ ls, Ordering l.1)
    (hdoc : ∀ l ∈ ls, ∀ dto user, l.1 = .createOrder dto user → Documented dto) :
    (Machine.Along (serve cfg) (fun s l => Balanced cfg s l.1) s ls →
      All Agree (Machine.run (serve cfg) s ls)) ∧
    (Machine.Along (serve cfg) (fun s l => Ends (l.1.call cfg) s (All Agree)) s ls ↔
      Machine.Along (serve cfg) (fun s l => Balanced cfg s l.1) s ls) :=
  Machine.inv_along_iff (All Agree) (fun _ l hends => hends l.2)
    (fun _ l hl hs => agree_iff (hls l hl) (hdoc l hl) hs) hs

lemma agree_of_no_orders (h : s.orders = ∅) : All Agree s := by
  intro id a ha
  simp [accountOf, h] at ha

/-- An order of a student, paid in full by one notification. -/
def paidOnline : List (Request × (ℕ → Input)) :=
  [(.createOrder Sample.body Sample.student, Sample.inputs 10),
   (.createPayOSPayment ⟨12000, .val 10⟩, Sample.inputs 30),
   (.updateStatus 10 (.only .accepted) Sample.admin, Sample.inputs 0),
   (.handleWebhook (Sample.webhook 1000 12000), Sample.inputs 0)]

theorem accounts_agree_paidOnline :
    let t := Machine.run (serve Sample.config) Sample.db paidOnline
    accountOf t 10 = some ⟨some 1, some 12000, some 0, true⟩ ∧ All Agree t := by
  refine ⟨by decide +kernel, (accounts_agree Sample.config Sample.db
    (agree_of_no_orders rfl) paidOnline ?_ ?_).1 ?_⟩
  · simp [paidOnline, Ordering]
  · intro l hl dto user hcreate
    simp only [paidOnline, List.mem_cons, List.not_mem_nil, or_false] at hl
    rcases hl with rfl | rfl | rfl | rfl <;> cases hcreate
    exact ⟨rfl, rfl, rfl, rfl, rfl, rfl, rfl, rfl, rfl⟩
  · refine ⟨fun id o h => ?_, trivial, fun o _ hover => ?_, trivial, trivial⟩
    · cases h.lookup
    · cases hover.1.1

/-- The order is paid in cash and its balance of 12000 stays. -/
theorem cash_leaves_balance :
    All Agree Sample.db ∧ (∀ l ∈ lateNotification.take 6, Ordering l.1) ∧
      (∀ l ∈ lateNotification.take 6, ∀ dto user, l.1 = .createOrder dto user → Documented dto) ∧
      accountOf (Machine.run (serve Sample.config) Sample.db (lateNotification.take 6)) 10 =
        some ⟨some 1, some 12000, some 12000, true⟩ ∧
      ¬ All Agree (Machine.run (serve Sample.config) Sample.db (lateNotification.take 6)) := by
  have hten : accountOf (Machine.run (serve Sample.config) Sample.db (lateNotification.take 6)) 10 =
      some ⟨some 1, some 12000, some 12000, true⟩ := by decide +kernel
  refine ⟨agree_of_no_orders rfl, by simp [lateNotification, Ordering], ?_, hten, fun h => ?_⟩
  · intro l hl dto user hcreate
    simp only [lateNotification, List.take, List.mem_cons, List.not_mem_nil, or_false] at hl
    rcases hl with rfl | rfl | rfl | rfl | rfl | rfl <;> cases hcreate
    exact ⟨rfl, rfl, rfl, rfl, rfl, rfl, rfl, rfl, rfl⟩
  · obtain ⟨r, hr, hiff⟩ := h 10 _ hten rfl
    obtain rfl := Option.some.inj hr
    exact absurd (hiff.mp rfl) (by decide +kernel)

end TsaBackend.Accounts
