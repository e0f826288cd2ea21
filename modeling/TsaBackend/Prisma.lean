import TsaBackend.Concurrent
import TsaBackend.Schema

/-!
Statements of the database client. A statement maps the tables to new tables or to the
error the client throws; a call runs it, or a whole transaction of them, as one step.

A write that sets a foreign key fails when the key points nowhere, and one that sets a text when it is
longer than its column; deleting a row takes the rows of cascading relations with it and fails on
restricting ones.
-/

namespace TsaBackend

/-- A call of the backend on its database. -/
abbrev Async (α : Type) : Type := Call DB Input Exn α

/-- A text that a write sets is at most `n` characters long. -/
def Fits (n : ℕ) (old new : Option String) : Prop := new = old ∨ ∀ x ∈ new, x.length ≤ n

instance (n : ℕ) (old new : Option String) : Decidable (Fits n old new) := by
  unfold Fits; infer_instance

/-- The texts of an order that a write sets fit their columns. -/
def OrderTexts (old : Option Order) (new : Order) : Prop :=
  Fits 255 (old.map (·.checkCode)) (some new.checkCode) ∧
    Fits 255 (old.bind (·.building)) new.building ∧ Fits 15 (old.bind (·.phone)) new.phone ∧
    Fits 255 (old.bind (·.product)) new.product ∧ Fits 255 (old.bind (·.room)) new.room ∧
    Fits 255 (old.bind (·.brand)) new.brand ∧
    Fits 255 (old.bind (·.finishedImage)) new.finishedImage

instance (old : Option Order) (new : Order) : Decidable (OrderTexts old new) := by
  unfold OrderTexts; infer_instance

lemma OrderTexts.kept {o : Order} : OrderTexts (some o) o :=
  ⟨.inl rfl, .inl rfl, .inl rfl, .inl rfl, .inl rfl, .inl rfl, .inl rfl⟩

namespace DB

/-- Foreign keys of an order that a write sets point to rows. -/
def OrderKeys (s : DB) (old new : Order) : Prop :=
  (new.studentId = old.studentId ∨ ∀ u ∈ new.studentId, u ∈ s.students) ∧
    (new.shipperId = old.shipperId ∨ ∀ u ∈ new.shipperId, u ∈ s.staffs)

instance (s : DB) (old new : Order) : Decidable (s.OrderKeys old new) := by
  unfold OrderKeys; infer_instance

def updateOrder (s : DB) (id : Id) (f : Order → Order) : Except Exn DB :=
  match s.orders.lookup id with
  | none => .error (.prisma .recordNotFound)
  | some o =>
    if ¬ OrderTexts (some o) (f o) then .error (.prisma .valueTooLong)
    else if s.OrderKeys o (f o) then .ok { s with orders := s.orders.modify id f }
    else .error (.prisma .foreignKeyConstraint)

/-- A new row; its foreign keys are all set by the write. -/
def createOrder (s : DB) (id : Id) (o : Order) : Except Exn DB :=
  if id ∈ s.orders then .error (.prisma .uniqueConstraint)
  else if ¬ OrderTexts none o then .error (.prisma .valueTooLong)
  else if s.OrderKeys { o with studentId := none, shipperId := none } o then
    .ok { s with orders := s.orders.insert id o }
  else .error (.prisma .foreignKeyConstraint)

/-- Payments and history rows cascade, join rows restrict. -/
def deleteOrder (s : DB) (id : Id) : Except Exn DB :=
  if id ∉ s.orders then .error (.prisma .recordNotFound)
  else if s.ordersOnDeliveries.keys.any (·.2 = id) then .error (.prisma .foreignKeyConstraint)
  else .ok { s with
    orders := s.orders.erase id
    orderStatusHistory := s.orderStatusHistory.filter fun h => h.orderId ≠ id
    payments := s.payments.filter fun _ p => p.orderId ≠ id }

def createOrderStatusRow (s : DB) (h : OrderStatusHistory) : Except Exn DB :=
  if ¬ Fits 255 none h.canceledImage then .error (.prisma .valueTooLong)
  else if h.orderId ∈ s.orders then .ok { s with orderStatusHistory := s.orderStatusHistory ++ [h] }
  else .error (.prisma .foreignKeyConstraint)

def updateStudent (s : DB) (id : Id) (f : Student → Student) : Except Exn DB :=
  if id ∈ s.students then .ok { s with students := s.students.modify id f }
  else .error (.prisma .recordNotFound)

def updateUser (s : DB) (id : Id) (f : User → User) : Except Exn DB :=
  if id ∈ s.users then .ok { s with users := s.users.modify id f }
  else .error (.prisma .recordNotFound)

def DeliveryKeys (s : DB) (old new : Delivery) : Prop :=
  new.staffId = old.staffId ∨ ∀ u ∈ new.staffId, u ∈ s.staffs

instance (s : DB) (old new : Delivery) : Decidable (s.DeliveryKeys old new) := by
  unfold DeliveryKeys; infer_instance

def updateDelivery (s : DB) (id : Id) (f : Delivery → Delivery) : Except Exn DB :=
  match s.deliveries.lookup id with
  | none => .error (.prisma .recordNotFound)
  | some d =>
    if s.DeliveryKeys d (f d) then .ok { s with deliveries := s.deliveries.modify id f }
    else .error (.prisma .foreignKeyConstraint)

def createDelivery (s : DB) (id : Id) (d : Delivery) : Except Exn DB :=
  if id ∈ s.deliveries ∨ s.deliveries.entries.any (·.2.displayId = d.displayId) then
    .error (.prisma .uniqueConstraint)
  else if s.DeliveryKeys { d with staffId := none } d then
    .ok { s with deliveries := s.deliveries.insert id d }
  else .error (.prisma .foreignKeyConstraint)

/-- History rows cascade, join rows restrict. -/
def deleteDelivery (s : DB) (id : Id) : Except Exn DB :=
  if id ∉ s.deliveries then .error (.prisma .recordNotFound)
  else if s.ordersOnDeliveries.keys.any (·.1 = id) then .error (.prisma .foreignKeyConstraint)
  else .ok { s with
    deliveries := s.deliveries.erase id
    deliveryStatusHistory := s.deliveryStatusHistory.filter fun h => h.deliveryId ≠ id }

def createDeliveryStatusRow (s : DB) (h : DeliveryStatusHistory) : Except Exn DB :=
  if ¬ Fits 255 none h.canceledImage then .error (.prisma .valueTooLong)
  else if h.deliveryId ∈ s.deliveries then
    .ok { s with deliveryStatusHistory := s.deliveryStatusHistory ++ [h] }
  else .error (.prisma .foreignKeyConstraint)

/-- Join rows of a delivery for the given orders, numbered from `n`. -/
def createManyOrdersOnDelivery (s : DB) (id : Id) : ℕ → List Id → Except Exn DB
  | _, [] => .ok s
  | n, o :: os =>
    if (id, o) ∈ s.ordersOnDeliveries then .error (.prisma .uniqueConstraint)
    else if o ∉ s.orders then .error (.prisma .foreignKeyConstraint)
    else createManyOrdersOnDelivery
      { s with ordersOnDeliveries := s.ordersOnDeliveries.insert (id, o) n } id (n + 1) os

/-- The orders of a delivery, read through its join rows. -/
def ordersOf (s : DB) (id : Id) : List (Id × Order) :=
  (s.ordersOnDeliveries.entries.filter fun e => e.1.1 = id).filterMap fun e =>
    (s.orders.lookup e.1.2).map fun o => (e.1.2, o)

/-- The payment with this code; codes are unique. -/
def findPayment (s : DB) (orderCode : String) : Option (Id × Payment) :=
  s.payments.findFirst 0 fun _ p => p.orderCode = orderCode

def createPayment (s : DB) (id : Id) (p : Payment) : Except Exn DB :=
  if id ∈ s.payments ∨ (s.findPayment p.orderCode).isSome then
    .error (.prisma .uniqueConstraint)
  else if p.orderId ∈ s.orders then .ok { s with payments := s.payments.insert id p }
  else .error (.prisma .foreignKeyConstraint)

def updatePayment (s : DB) (id : Id) (f : Payment → Payment) : Except Exn DB :=
  if id ∈ s.payments then .ok { s with payments := s.payments.modify id f }
  else .error (.prisma .recordNotFound)

/-! ### What a statement changed, and steps -/

variable {s t : DB} {id : Id}

lemma updateOrder_ok {f : Order → Order} (h : s.updateOrder id f = .ok t) :
    ∃ o, s.orders.lookup id = some o ∧ OrderTexts (some o) (f o) ∧
      t = { s with orders := s.orders.modify id f } := by
  unfold updateOrder at h
  rcases ho : s.orders.lookup id with _ | o
  · rw [ho] at h
    cases h
  · simp only [ho] at h
    split at h
    · cases h
    next htexts =>
    split at h <;> cases h
    exact ⟨o, rfl, not_not.mp htexts, rfl⟩

/-- A write that sets no foreign key fails only when the row is missing or a text too long. -/
lemma updateOrder_eq {f : Order → Order} {o : Order} (h : s.orders.lookup id = some o)
    (htexts : OrderTexts (some o) (f o)) (hst : (f o).studentId = o.studentId)
    (hsh : (f o).shipperId = o.shipperId) :
    s.updateOrder id f = .ok { s with orders := s.orders.modify id f } := by
  simp [updateOrder, h, OrderKeys, htexts, hst, hsh]

lemma createOrder_ok {o : Order} (h : s.createOrder id o = .ok t) :
    id ∉ s.orders ∧ OrderTexts none o ∧ t = { s with orders := s.orders.insert id o } := by
  unfold createOrder at h
  split at h
  · cases h
  next hid =>
  split at h
  · cases h
  next htexts =>
  split at h <;> cases h
  exact ⟨hid, not_not.mp htexts, rfl⟩

lemma deleteOrder_ok (h : s.deleteOrder id = .ok t) :
    id ∈ s.orders ∧ t = { s with
      orders := s.orders.erase id
      orderStatusHistory := s.orderStatusHistory.filter fun h => h.orderId ≠ id
      payments := s.payments.filter fun _ p => p.orderId ≠ id } := by
  unfold deleteOrder at h
  split at h
  · simp at h
  · next hid =>
    split at h <;> simp at h
    exact ⟨not_not.mp hid, by rw [← h]; simp⟩

lemma deleteOrder_eq (hid : id ∈ s.orders)
    (hfree : s.ordersOnDeliveries.keys.any (·.2 = id) = false) :
    s.deleteOrder id = .ok { s with
      orders := s.orders.erase id
      orderStatusHistory := s.orderStatusHistory.filter fun h => h.orderId ≠ id
      payments := s.payments.filter fun _ p => p.orderId ≠ id } := by
  simp only [deleteOrder, hid, not_true_eq_false, if_false, hfree, Bool.false_eq_true]

lemma createOrderStatusRow_ok {r : OrderStatusHistory} (h : s.createOrderStatusRow r = .ok t) :
    Fits 255 none r.canceledImage ∧ r.orderId ∈ s.orders ∧
      t = { s with orderStatusHistory := s.orderStatusHistory ++ [r] } := by
  unfold createOrderStatusRow at h
  split at h
  · cases h
  next hfits =>
  split at h <;> cases h
  next hid => exact ⟨not_not.mp hfits, hid, rfl⟩

lemma createOrderStatusRow_eq {r : OrderStatusHistory} (hfits : Fits 255 none r.canceledImage)
    (h : r.orderId ∈ s.orders) : s.createOrderStatusRow r =
      .ok { s with orderStatusHistory := s.orderStatusHistory ++ [r] } := by
  simp [createOrderStatusRow, hfits, h]

lemma updateStudent_ok {f : Student → Student} (h : s.updateStudent id f = .ok t) :
    id ∈ s.students ∧ t = { s with students := s.students.modify id f } := by
  unfold updateStudent at h
  split at h <;> simp at h
  next hid => exact ⟨hid, h.symm⟩

lemma updateUser_ok {f : User → User} (h : s.updateUser id f = .ok t) :
    id ∈ s.users ∧ t = { s with users := s.users.modify id f } := by
  unfold updateUser at h
  split at h <;> simp at h
  next hid => exact ⟨hid, h.symm⟩

lemma updateDelivery_ok {f : Delivery → Delivery} (h : s.updateDelivery id f = .ok t) :
    ∃ d, s.deliveries.lookup id = some d ∧
      t = { s with deliveries := s.deliveries.modify id f } := by
  unfold updateDelivery at h
  rcases hd : s.deliveries.lookup id with _ | d
  · simp [hd] at h
  · simp only [hd] at h
    split at h <;> simp at h
    exact ⟨d, rfl, h.symm⟩

lemma createDelivery_ok {d : Delivery} (h : s.createDelivery id d = .ok t) :
    id ∉ s.deliveries ∧ t = { s with deliveries := s.deliveries.insert id d } := by
  unfold createDelivery at h
  split at h
  · simp at h
  · next hid =>
    split at h <;> simp at h
    exact ⟨fun hd => hid (.inl hd), h.symm⟩

lemma deleteDelivery_ok (h : s.deleteDelivery id = .ok t) :
    id ∈ s.deliveries ∧ t = { s with
      deliveries := s.deliveries.erase id
      deliveryStatusHistory := s.deliveryStatusHistory.filter fun h => h.deliveryId ≠ id } := by
  unfold deleteDelivery at h
  split at h
  · simp at h
  · next hid =>
    split at h <;> simp at h
    exact ⟨not_not.mp hid, by rw [← h]; simp⟩

lemma createDeliveryStatusRow_ok {r : DeliveryStatusHistory}
    (h : s.createDeliveryStatusRow r = .ok t) : Fits 255 none r.canceledImage ∧
      r.deliveryId ∈ s.deliveries ∧
      t = { s with deliveryStatusHistory := s.deliveryStatusHistory ++ [r] } := by
  unfold createDeliveryStatusRow at h
  split at h
  · cases h
  next hfits =>
  split at h <;> cases h
  next hid => exact ⟨not_not.mp hfits, hid, rfl⟩

lemma createManyOrdersOnDelivery_ok {n : ℕ} {os : List Id}
    (h : s.createManyOrdersOnDelivery id n os = .ok t) :
    ∃ joins, t = { s with ordersOnDeliveries := joins } := by
  induction os generalizing s n with
  | nil =>
    simp only [createManyOrdersOnDelivery, Except.ok.injEq] at h
    exact ⟨s.ordersOnDeliveries, h.symm⟩
  | cons o os ih =>
    unfold createManyOrdersOnDelivery at h
    split at h
    · simp at h
    · split at h
      · simp at h
      · obtain ⟨joins, rfl⟩ := ih h
        exact ⟨joins, rfl⟩

lemma createPayment_ok {p : Payment} (h : s.createPayment id p = .ok t) :
    id ∉ s.payments ∧ (s.findPayment p.orderCode).isNone ∧ p.orderId ∈ s.orders ∧
      t = { s with payments := s.payments.insert id p } := by
  unfold createPayment at h
  split at h
  · simp at h
  · next hid =>
    split at h <;> simp at h
    next ho =>
      rw [not_or] at hid
      exact ⟨hid.1, by simpa using hid.2, ho, h.symm⟩

lemma updatePayment_ok {f : Payment → Payment} (h : s.updatePayment id f = .ok t) :
    id ∈ s.payments ∧ t = { s with payments := s.payments.modify id f } := by
  unfold updatePayment at h
  split at h <;> simp at h
  next hid => exact ⟨hid, h.symm⟩

lemma updatePayment_eq {f : Payment → Payment} (h : id ∈ s.payments) :
    s.updatePayment id f = .ok { s with payments := s.payments.modify id f } := by
  simp [updatePayment, h]

end DB

/-- A statement or a transaction without a result, as one step. -/
def execute (f : Input → DB → Except Exn DB) : Async Unit :=
  .atomic fun i s => (f i s).map fun t => ((), t)

/-- A statement or a transaction that returns a row of the tables it leaves. -/
def executeReturning {α : Type} (row : DB → Option α) (f : Input → DB → Except Exn DB) : Async α :=
  .atomic fun i s =>
    match f i s with
    | .error e => .error e
    | .ok t =>
      match row t with
      | none => .error (.prisma .recordNotFound)
      | some a => .ok (a, t)

/-- What the step reads from outside. -/
def input : Async Input := .read fun i _ => i

def findOrder (id : Id) : Async (Option Order) := .read fun _ s => s.orders.lookup id

/-- A request to a service outside the database. -/
def service : Async Unit :=
  .atomic fun i s => if i.ok then .ok ((), s) else .error .rejected

/-- The notification row requires a user. -/
def sendFullNotification (userId : Option Id) : Async Unit :=
  match userId with
  | none => throw (.prisma .validation)
  | some _ => service

/-- The branches of a `Promise.all`. -/
def promiseAll (cs : List (Async Unit)) : Async Unit :=
  Call.all (fun k i => i.branch = k) cs

section Rules

open Call

variable {E : Input → Prop} {G : DB → DB → Prop} {X : Exn → DB → Prop} {I : DB → Prop} {s : DB}
  {α : Type}

lemma exec_execute (f : Input → DB → Except Exn DB) (ω : ℕ → Input) :
    ((execute f).exec ω s).2 = match f (ω 0) s with
      | .ok t => t
      | .error _ => s := by
  rcases h : f (ω 0) s with e | t <;> simp [execute, atomic, exec, h, Except.map]

@[simp] lemma wp_execute (f : Input → DB → Except Exn DB) {Q : Unit → DB → Prop} :
    wp E G (execute f) Q X s ↔ ∀ i, E i → match f i s with
      | .ok t => G s t ∧ Q () t
      | .error e => G s s ∧ X e s := by
  unfold execute
  rw [wp_atomic]
  refine forall_congr' fun i => imp_congr_right fun _ => ?_
  rcases f i s with e | t <;> rfl

lemma wp_execute_of_ok {f : Input → DB → Except Exn DB} {Q : Unit → DB → Prop}
    (h : ∀ i, E i → ∃ t, f i s = .ok t ∧ G s t ∧ Q () t) : wp E G (execute f) Q X s := by
  rw [wp_execute]
  intro i hi
  obtain ⟨t, ht, hG, hQ⟩ := h i hi
  rw [ht]
  exact ⟨hG, hQ⟩

@[simp] lemma wp_input {Q : Input → DB → Prop} :
    wp E G input Q X s ↔ ∀ i, E i → G s s ∧ Q i s := Iff.rfl

@[simp] lemma wp_findOrder (id : Id) {Q : Option Order → DB → Prop} :
    wp E G (findOrder id) Q X s ↔ ∀ i, E i → G s s ∧ Q (s.orders.lookup id) s := Iff.rfl

@[simp] lemma wp_service {Q : Unit → DB → Prop} :
    wp E G service Q X s ↔ ∀ i, E i → G s s ∧ if i.ok then Q () s else X .rejected s := by
  unfold service
  rw [wp_atomic]
  refine forall_congr' fun i => imp_congr_right fun _ => ?_
  cases i.ok <;> rfl

/-- The result of a statement inside `execute`. -/
lemma of_map_ok {σ : Type} {x : Except Exn σ} {a : Unit} {t : σ}
    (h : (x.map fun t => ((), t)) = .ok (a, t)) : x = .ok t := by
  cases x with
  | error e => cases h
  | ok t' =>
    cases h
    rfl

lemma starts_execute {f : Input → DB → Except Exn DB} {i : Input} {t : DB} (h : f i s = .ok t) :
    (execute f).Starts i s t :=
  starts_atomic (a := ()) (by rw [h]; rfl)

lemma guar_execute {R : DB → DB → Prop} {f : Input → DB → Except Exn DB}
    (hok : ∀ t, Relation.ReflTransGen R s t → ∀ i u, f i t = .ok u → G t u)
    (herr : ∀ t, G t t) : (execute f).Guar R G s :=
  Guar.atomic (fun t ht i _ u h => hok t ht i u (of_map_ok h)) herr

/-- A transaction with a result, when a failure is always acceptable. -/
lemma wp_executeReturning {row : DB → Option α} {f : Input → DB → Except Exn DB}
    {Q : α → DB → Prop} (hok : ∀ i t a, E i → f i s = .ok t → row t = some a → G s t ∧ Q a t)
    (herr : G s s ∧ ∀ e, X e s) : wp E G (executeReturning row f) Q X s := by
  unfold executeReturning
  rw [wp_atomic]
  intro i hi
  rcases hfs : f i s with e | t
  · exact ⟨herr.1, herr.2 e⟩
  · rcases hrow : row t with _ | a
    · simpa only [hrow] using ⟨herr.1, herr.2 _⟩
    · simpa only [hrow] using hok i t a hi hfs hrow

/-- A transaction with a result that is known to succeed. -/
lemma wp_executeReturning_of_ok {row : DB → Option α} {f : Input → DB → Except Exn DB}
    {Q : α → DB → Prop} (h : ∀ i, E i → ∃ t a, f i s = .ok t ∧ row t = some a ∧ G s t ∧ Q a t) :
    wp E G (executeReturning row f) Q X s := by
  unfold executeReturning
  rw [wp_atomic]
  intro i hi
  obtain ⟨t, a, ht, hrow, hG, hQ⟩ := h i hi
  simp only [ht, hrow]
  exact ⟨hG, hQ⟩

end Rules

end TsaBackend
