import TsaBackend.ReadCommitted
import TsaBackend.ReadModifyWrite
import TsaBackend.Webhooks

/-!
The transactions of `handleWebhook` interleaved at READ COMMITTED.

A transaction reads the balance, subtracts outside the database and writes the result, so a
commit of another one between its read and its write is lost. It is lost for good: the
balances come out right just when every write finds the balance that was read.
-/

namespace TsaBackend.LostUpdate

open ReadCommitted Webhooks

/-- A row lock: of an order on the left, of a payment on the right. -/
abbrev Row : Type := Id ⊕ Id

/-- The balance and the flag computed from the order that was read. -/
def setBalance (body : WebhookType) (orderId : Id) (order : Order) (s : DB) : DB :=
  { s with orders := s.orders.modify orderId (payOrder (newRemainingAmount order body.amount)) }

def setPaid (body : WebhookType) (paymentId : Id) (s : DB) : DB :=
  { s with payments := s.payments.modify paymentId (markPaid body) }

/-- From `tx.payment.update` on. -/
def markTx (body : WebhookType) (paymentId : Id) : Tx DB Row :=
  .update (.inr paymentId) (setPaid body paymentId) .commit

/-- From `tx.order.update` on. -/
def balanceTx (body : WebhookType) (paymentId orderId : Id) (order : Order) : Tx DB Row :=
  .update (.inl orderId) (setBalance body orderId order) (markTx body paymentId)

/-- From `tx.order.findUnique` on. -/
def orderTx (body : WebhookType) (paymentId orderId : Id) : Tx DB Row :=
  .query fun s =>
    match s.orders.lookup orderId with
    | none => .rollback
    | some order => balanceTx body paymentId orderId order

/-- The whole transaction, from `tx.payment.findFirst` on. -/
def webhookTx (body : WebhookType) : Tx DB Row :=
  .query fun s =>
    match s.findPayment (toString body.orderCode) with
    | none => .rollback
    | some (paymentId, payment) => orderTx body paymentId payment.orderId

/-- **Alone the transaction is the atomic one.** -/
theorem alone_webhookTx (body : WebhookType) (s : DB) :
    (webhookTx body).alone s id =
      match webhookTransaction body s with
      | .ok (_, t) => t
      | .error _ => s := by
  unfold webhookTransaction
  simp only [webhookTx, Tx.alone, id]
  rcases hp : s.findPayment (toString body.orderCode) with _ | ⟨paymentId, payment⟩
  · rfl
  simp only [orderTx, Tx.alone, id]
  rcases ho : s.orders.lookup payment.orderId with _ | order
  · rfl
  have hpay : paymentId ∈ s.payments :=
    Table.mem_iff_lookup.mpr ⟨payment, (Table.findFirst_some hp).1⟩
  have hu := DB.updateOrder_eq (f := payOrder (newRemainingAmount order body.amount)) ho .kept rfl rfl
  have hpu : ∀ orders, DB.updatePayment { s with orders := orders } paymentId (markPaid body) = _ :=
    fun orders => DB.updatePayment_eq (s := { s with orders := orders }) hpay
  simp only [hu, hpu, Bind.bind, Except.bind]
  rfl

inductive Stage
  | start
  | found
  | read (order : Order)
  | wrote (order : Order)
  | marked (order : Order)
  | done

namespace Stage

def session (body : WebhookType) (paymentId orderId : Id) : Stage → Session DB Row
  | .start => .start (webhookTx body)
  | .found => ⟨[], id, some (orderTx body paymentId orderId)⟩
  | .read o => ⟨[], id, some (balanceTx body paymentId orderId o)⟩
  | .wrote o => ⟨[.inl orderId], setBalance body orderId o ∘ id, some (markTx body paymentId)⟩
  | .marked o => ⟨[.inr paymentId, .inl orderId],
      setPaid body paymentId ∘ setBalance body orderId o ∘ id, some .commit⟩
  | .done => .ended

/-- What the stage is for the balance of the order. -/
def abstract : Stage → ReadModifyWrite.Stage Money
  | .start | .found => .idle
  | .read o => .read (o.remainingAmount.getD 0)
  | .wrote o | .marked o => .wrote (o.remainingAmount.getD 0)
  | .done => .done

end Stage

/-- The balance of an order, `null` counting as `0`. -/
def balance (s : DB) (id : Id) : Money := ((s.orders.lookup id).bind (·.remainingAmount)).getD 0

variable {I : Type}

/-- All calls have begun and none has taken a step. -/
def init (s : DB) (bodies : I → WebhookType) : State DB Row I :=
  ⟨s, fun i => .start (webhookTx (bodies i))⟩

def abstract (st : State DB Row I) (stage : I → Stage) : ReadModifyWrite.State Id I Money :=
  ⟨balance st.db, fun i => (stage i).abstract⟩

variable {cfg : Config} {s₀ : DB} {bodies : I → WebhookType} {pay ord : I → Id}
  {st : State DB Row I} {stage : I → Stage} {i : I}

/-- A transaction for the order has committed. -/
def Committed (ord : I → Id) (stage : I → Stage) (id : Id) : Prop :=
  ∃ i, stage i = .done ∧ ord i = id

variable (s₀ bodies pay ord) in
/-- The sessions are at these stages, payments belong to the orders they belonged to, and
only orders with a committed payment have changed. -/
structure Inv (st : State DB Row I) (stage : I → Stage) : Prop where
  sessions : ∀ i, st.sessions i = (stage i).session (bodies i) (pay i) (ord i)
  payments : ∀ code, (st.db.findPayment code).map (fun e => (e.1, e.2.orderId)) =
    (s₀.findPayment code).map fun e => (e.1, e.2.orderId)
  untouched : ∀ id, ¬ Committed ord stage id → st.db.orders.lookup id = s₀.orders.lookup id
  touched : ∀ id, Committed ord stage id →
    ∃ x, st.db.orders.lookup id = (s₀.orders.lookup id).map (payOrder x)

variable (bodies pay ord) in
/-- If the step writes a balance, the committed balance is the one that was read. -/
def Fresh (st : State DB Row I) (i : I) : Prop :=
  ∀ order, (st.sessions i).todo = some (balanceTx (bodies i) (pay i) (ord i) order) →
    ¬ Blocked st i (.inl (ord i)) → balance st.db (ord i) = order.remainingAmount.getD 0

lemma inv_init : Inv s₀ bodies pay ord (init s₀ bodies) fun _ => .start where
  sessions _ := rfl
  payments _ := rfl
  untouched _ _ := rfl
  touched id h := by
    obtain ⟨i, hi, -⟩ := h
    cases hi

lemma Inv.mem (h : Inv s₀ bodies pay ord st stage) {id : Id} :
    id ∈ st.db.orders ↔ id ∈ s₀.orders := by
  by_cases hid : Committed ord stage id
  · obtain ⟨x, hx⟩ := h.touched id hid
    simp [Table.mem_iff_lookup, hx]
  · simp [Table.mem_iff_lookup, h.untouched id hid]

variable [DecidableEq I]

lemma sessions_update (h : ∀ i, st.sessions i = (stage i).session (bodies i) (pay i) (ord i))
    (g : Stage) (j : I) :
    Function.update st.sessions i (g.session (bodies i) (pay i) (ord i)) j =
      (Function.update stage i g j).session (bodies j) (pay j) (ord j) := by
  rcases eq_or_ne j i with rfl | hj
  · simp
  · simp [hj, h j]

lemma committed_update {g : Stage} (hg : g = .done ↔ stage i = .done) {id : Id} :
    Committed ord (Function.update stage i g) id ↔ Committed ord stage id := by
  refine exists_congr fun j => and_congr_left fun _ => ?_
  rcases eq_or_ne j i with rfl | hj
  · simpa using hg
  · simp [hj]

lemma committed_done {id : Id} : Committed ord (Function.update stage i .done) id ↔
    Committed ord stage id ∨ id = ord i := by
  constructor
  · rintro ⟨j, hj, rfl⟩
    rcases eq_or_ne j i with rfl | hji
    · exact .inr rfl
    · exact .inl ⟨j, by simpa [hji] using hj, rfl⟩
  · rintro (⟨j, hj, rfl⟩ | rfl)
    · refine ⟨j, ?_, rfl⟩
      rcases eq_or_ne j i with rfl | hji
      · simp
      · simpa [hji] using hj
    · exact ⟨i, by simp, rfl⟩

lemma Inv.advance (h : Inv s₀ bodies pay ord st stage) {g : Stage}
    (hg : g = .done ↔ stage i = .done) :
    Inv s₀ bodies pay ord
      ⟨st.db, Function.update st.sessions i (g.session (bodies i) (pay i) (ord i))⟩
      (Function.update stage i g) where
  sessions := sessions_update h.sessions g
  payments := h.payments
  untouched id hid := h.untouched id (mt (committed_update hg).mpr hid)
  touched id hid := h.touched id ((committed_update hg).mp hid)

lemma findPayment_commit (body : WebhookType) (paymentId orderId : Id) (o : Order) (s : DB)
    (code : String) :
    ((setPaid body paymentId (setBalance body orderId o s)).findPayment code).map
        (fun e => (e.1, e.2.orderId)) =
      (s.findPayment code).map fun e => (e.1, e.2.orderId) := by
  simp only [DB.findPayment, setPaid, setBalance]
  rw [Table.findFirst_modify (f := markPaid body) fun _ _ => rfl, Option.map_map]
  congr 1
  funext e
  dsimp only [Function.comp]
  split <;> rfl

lemma lookup_commit (body : WebhookType) (paymentId orderId : Id) (o : Order) (s : DB) (id : Id) :
    (setPaid body paymentId (setBalance body orderId o s)).orders.lookup id =
      if id = orderId then
        (s.orders.lookup orderId).map (payOrder (newRemainingAmount o body.amount))
      else s.orders.lookup id := by
  simp only [setPaid, setBalance, Table.lookup_modify]

lemma balance_commit {body : WebhookType} {orderId : Id} {s : DB} (paymentId : Id) (o : Order)
    (hmem : orderId ∈ s.orders) :
    balance (setPaid body paymentId (setBalance body orderId o s)) =
      Function.update (balance s) orderId (o.remainingAmount.getD 0 - body.amount) := by
  obtain ⟨r, hr⟩ := Table.mem_iff_lookup.mp hmem
  funext id
  rcases eq_or_ne id orderId with rfl | hid
  · simp [balance, lookup_commit, hr, payOrder, newRemainingAmount]
  · simp [balance, lookup_commit, hid]

lemma Inv.commit (h : Inv s₀ bodies pay ord st stage) (o : Order) :
    Inv s₀ bodies pay ord
      ⟨setPaid (bodies i) (pay i) (setBalance (bodies i) (ord i) o st.db),
        Function.update st.sessions i .ended⟩ (Function.update stage i .done) where
  sessions := sessions_update h.sessions .done
  payments code := (findPayment_commit _ _ _ _ _ code).trans (h.payments code)
  untouched id hid := by
    rw [committed_done, not_or] at hid
    rw [lookup_commit, if_neg hid.2]
    exact h.untouched id hid.1
  touched id hid := by
    dsimp only
    rw [lookup_commit]
    by_cases hord : id = ord i
    · subst hord
      refine ⟨newRemainingAmount o (bodies i).amount, ?_⟩
      rw [if_pos rfl]
      by_cases hc : Committed ord stage (ord i)
      · obtain ⟨x, hx⟩ := h.touched _ hc
        rw [hx, Option.map_map]
        rfl
      · rw [h.untouched _ hc]
    · rw [if_neg hord]
      exact h.touched id ((committed_done.mp hid).resolve_right hord)

/-! ### Refinement -/

lemma abstract_update (db : DB) (sessions : I → Session DB Row) (g : Stage) :
    abstract ⟨db, sessions⟩ (Function.update stage i g) =
      ⟨balance db, Function.update (fun i => (stage i).abstract) i g.abstract⟩ := by
  simp only [abstract, ReadModifyWrite.State.mk.injEq, true_and]
  funext j
  exact Function.apply_update (fun _ => Stage.abstract) stage i g j

omit [DecidableEq I] in
/-- Blocked transactions are those whose balance has a result that waits to be committed. -/
lemma free_of_not_blocked (h : Inv s₀ bodies pay ord st stage) {o : Order}
    (hi : stage i = .read o) (hfree : ¬ Blocked st i (.inl (ord i))) :
    ∀ j w, (stage j).abstract = .wrote w → ord j ≠ ord i := by
  intro j w hj hord
  refine hfree ⟨j, ?_, ?_⟩
  · rintro rfl
    simp [hi, Stage.abstract] at hj
  · rw [h.sessions j, ← hord]
    rcases hg : stage j with _ | _ | _ | _ | _ | _ <;>
      simp [hg, Stage.abstract, Stage.session] at hj ⊢

lemma balanceTx_inj {body : WebhookType} {paymentId orderId : Id} {o o' : Order} {s : DB}
    (hmem : orderId ∈ s.orders)
    (h : balanceTx body paymentId orderId o = balanceTx body paymentId orderId o') :
    o.remainingAmount.getD 0 = o'.remainingAmount.getD 0 := by
  obtain ⟨r, hr⟩ := Table.mem_iff_lookup.mp hmem
  have heff : setBalance body orderId o = setBalance body orderId o' := by
    injection h
  have hrow := congrArg (fun t : DB => t.orders.lookup orderId) (congrFun heff s)
  have hrem := congrArg (Option.bind · (·.remainingAmount)) hrow
  simpa [setBalance, hr, payOrder, newRemainingAmount] using hrem

variable [Fintype I]

/-- **A transaction that is not interleaved has the effect of the handler.** -/
theorem run_serial {body : WebhookType} (hv : cfg.verifyPaymentWebhookData body = true)
    (hc : body.orderCode ≠ 123) (hi : st.sessions i = .start (webhookTx body))
    (hfree : ∀ j, j ≠ i → (st.sessions j).held = []) :
    ∃ n, Machine.run step st (List.replicate n i) =
      ⟨receive cfg st.db body, Function.update st.sessions i .ended⟩ := by
  obtain ⟨n, hn⟩ := run_alone _ hi hfree
  refine ⟨n, ?_⟩
  have htx := webhookTransaction_eq (s := st.db) hv hc
  rw [hn, alone_webhookTx]
  rcases hw : webhookTransaction body st.db with e | ⟨o, t⟩
  · rw [hw] at htx
    rw [htx]
  · rw [hw] at htx
    rw [← htx]

variable (s₀ bodies pay ord) in
/-- The step ends at stages that keep the invariant. For the balances it is a step of
read-modify-write transactions, fresh when that one is. -/
def Refines (st : State DB Row I) (stage : I → Stage) (i : I) : Prop :=
  ∃ stage', Inv s₀ bodies pay ord (step st i) stage' ∧
    ReadModifyWrite.Move ord (fun i => (bodies i).amount) i (abstract st stage)
      (abstract (step st i) stage') ∧
    (Fresh bodies pay ord st i ↔
      ReadModifyWrite.Fresh ord i (abstract st stage) (abstract (step st i) stage'))

omit [DecidableEq I] [Fintype I] in
/-- Only the balance statement is judged, and only when it is the next one. -/
lemma fresh_of_ne_read (h : Inv s₀ bodies pay ord st stage) (hi : ∀ o, stage i ≠ .read o) :
    Fresh bodies pay ord st i := by
  intro order hv _
  rw [h.sessions i] at hv
  rcases hg : stage i with _ | _ | o | _ | _ | _ <;>
    simp only [hg, Stage.session, Session.start, Session.ended, webhookTx, orderTx, balanceTx,
      markTx, Option.some.injEq, reduceCtorEq, Tx.update.injEq, false_and] at hv
  exact absurd hg (hi o)

omit [DecidableEq I] [Fintype I] in
lemma abstract_fresh_of_ne_read (hi : ∀ o, stage i ≠ .read o)
    (a : ReadModifyWrite.State Id I Money) :
    ReadModifyWrite.Fresh ord i (abstract st stage) a := by
  intro v hv _
  rcases hg : stage i with _ | _ | o | _ | _ | _ <;>
    simp only [abstract, hg, Stage.abstract, reduceCtorEq] at hv
  exact absurd hg (hi o)

lemma Inv.stay (h : Inv s₀ bodies pay ord st stage) {g : Stage}
    (hg : g.abstract = (stage i).abstract) (hdone : g = .done ↔ stage i = .done)
    (hstep : step st i =
      ⟨st.db, Function.update st.sessions i (g.session (bodies i) (pay i) (ord i))⟩) :
    Inv s₀ bodies pay ord (step st i) (Function.update stage i g) ∧
      abstract (step st i) (Function.update stage i g) = abstract st stage := by
  rw [hstep]
  refine ⟨h.advance hdone, ?_⟩
  rw [abstract_update, hg]
  simp only [abstract, Function.update_eq_self]

lemma refines_stay (h : Inv s₀ bodies pay ord st stage) {g : Stage}
    (hg : g.abstract = (stage i).abstract) (hdone : g = .done ↔ stage i = .done)
    (hi : ∀ o, stage i ≠ .read o)
    (hstep : step st i =
      ⟨st.db, Function.update st.sessions i (g.session (bodies i) (pay i) (ord i))⟩) :
    Refines s₀ bodies pay ord st stage i := by
  obtain ⟨hinv, habs⟩ := h.stay hg hdone hstep
  refine ⟨_, hinv, ?_, iff_of_true (fresh_of_ne_read h hi) (abstract_fresh_of_ne_read hi _)⟩
  rw [habs]
  exact .stay

lemma step_same (h : Inv s₀ bodies pay ord st stage) (hstep : step st i = st) :
    step st i =
      ⟨st.db, Function.update st.sessions i ((stage i).session (bodies i) (pay i) (ord i))⟩ := by
  rw [hstep, ← h.sessions i, Function.update_eq_self]

lemma refines_start (ht : target cfg s₀ (bodies i) = some (pay i, ord i))
    (h : Inv s₀ bodies pay ord st stage) (hg : stage i = .start) :
    Refines s₀ bodies pay ord st stage i := by
  have hs := h.sessions i
  rw [hg] at hs
  obtain ⟨⟨p, payment⟩, he, hx⟩ := Option.map_eq_some_iff.mp
    ((h.payments _).trans (findPayment_of_target ht))
  have hp : p = pay i := congrArg Prod.fst hx
  have hord : payment.orderId = ord i := congrArg Prod.snd hx
  have hstep : step st i = ⟨st.db, Function.update st.sessions i
      (Stage.found.session (bodies i) (pay i) (ord i))⟩ := by
    rw [step_query hs]
    simp only [id, he, hp, hord, Stage.session]
  exact refines_stay h (by simp [hg, Stage.abstract]) (by simp [hg]) (by simp [hg]) hstep

lemma refines_found (hmem : ord i ∈ st.db.orders) (h : Inv s₀ bodies pay ord st stage)
    (hg : stage i = .found) : Refines s₀ bodies pay ord st stage i := by
  have hs := h.sessions i
  rw [hg] at hs
  obtain ⟨o, ho⟩ := Table.mem_iff_lookup.mp hmem
  have hstep : step st i = ⟨st.db, Function.update st.sessions i
      ((Stage.read o).session (bodies i) (pay i) (ord i))⟩ := by
    rw [step_query hs]
    simp only [id, ho, Stage.session]
  have hbal : (Stage.read o).abstract = .read (balance st.db (ord i)) := by
    simp [Stage.abstract, balance, ho]
  have hi : ∀ o, stage i ≠ .read o := by simp [hg]
  refine ⟨Function.update stage i (.read o), ?_, ?_,
    iff_of_true (fresh_of_ne_read h hi) (abstract_fresh_of_ne_read hi _)⟩
  · rw [hstep]
    exact h.advance (by simp [hg])
  · rw [hstep, abstract_update, hbal]
    exact .read (by simp [abstract, hg, Stage.abstract])

lemma refines_read (hmem : ord i ∈ st.db.orders) (h : Inv s₀ bodies pay ord st stage) {o : Order}
    (hg : stage i = .read o) : Refines s₀ bodies pay ord st stage i := by
  have hs := h.sessions i
  rw [hg] at hs
  by_cases hb : Blocked st i (.inl (ord i))
  · obtain ⟨hinv, habs⟩ := h.stay rfl Iff.rfl (step_same h (step_blocked hs hb))
    refine ⟨_, hinv, by rw [habs]; exact .stay, ?_⟩
    rw [habs]
    refine ⟨fun _ v hv hv' => ?_, fun _ order _ hfree => absurd hb hfree⟩
    rw [hv] at hv'
    cases hv'
  · have hstep : step st i = ⟨st.db, Function.update st.sessions i
        ((Stage.wrote o).session (bodies i) (pay i) (ord i))⟩ := step_update hs hb
    refine ⟨Function.update stage i (.wrote o), ?_, ?_, ?_⟩
    · rw [hstep]
      exact h.advance (by simp [hg])
    · rw [hstep, abstract_update]
      exact .write (by simp [abstract, hg, Stage.abstract]) (free_of_not_blocked h hg hb)
    · rw [hstep, abstract_update]
      constructor
      · rintro hf v hv -
        obtain rfl : o.remainingAmount.getD 0 = v := by
          simpa [abstract, hg, Stage.abstract] using hv
        exact hf o (by rw [hs]; rfl) hb
      · intro hf order hv _
        rw [hs] at hv
        rw [← balanceTx_inj hmem (Option.some.inj hv)]
        exact hf _ (by simp [abstract, hg, Stage.abstract]) (by simp [Stage.abstract])

lemma refines_wrote (h : Inv s₀ bodies pay ord st stage) {o : Order} (hg : stage i = .wrote o) :
    Refines s₀ bodies pay ord st stage i := by
  have hs := h.sessions i
  rw [hg] at hs
  by_cases hb : Blocked st i (.inr (pay i))
  · exact refines_stay h rfl Iff.rfl (by simp [hg]) (step_same h (step_blocked hs hb))
  · have hstep : step st i = ⟨st.db, Function.update st.sessions i
        ((Stage.marked o).session (bodies i) (pay i) (ord i))⟩ := step_update hs hb
    exact refines_stay h (by simp [hg, Stage.abstract]) (by simp [hg]) (by simp [hg]) hstep

lemma refines_marked (hmem : ord i ∈ st.db.orders) (h : Inv s₀ bodies pay ord st stage) {o : Order}
    (hg : stage i = .marked o) : Refines s₀ bodies pay ord st stage i := by
  have hs := h.sessions i
  rw [hg] at hs
  have hstep := step_commit hs
  have hi : ∀ o, stage i ≠ .read o := by simp [hg]
  refine ⟨Function.update stage i .done, ?_, ?_,
    iff_of_true (fresh_of_ne_read h hi) (abstract_fresh_of_ne_read hi _)⟩
  · rw [hstep]
    exact h.commit o
  · rw [hstep, abstract_update]
    simp only [Function.comp, id]
    rw [balance_commit _ _ hmem]
    exact .commit (by simp [abstract, hg, Stage.abstract])

/-- **The transactions are read-modify-write transactions on the balances.** -/
theorem refines (ht : ∀ i, target cfg s₀ (bodies i) = some (pay i, ord i))
    (h : Inv s₀ bodies pay ord st stage) (i : I) : Refines s₀ bodies pay ord st stage i := by
  have hmem : ord i ∈ st.db.orders := by
    obtain ⟨_, _, _, _, _, _, hmem⟩ := code_of_target (ht i)
    exact h.mem.mpr hmem
  rcases hg : stage i with _ | _ | o | o | o | _
  case start => exact refines_start (ht i) h hg
  case found => exact refines_found hmem h hg
  case read => exact refines_read hmem h hg
  case wrote => exact refines_wrote h hg
  case marked => exact refines_marked hmem h hg
  case done =>
    have hs := h.sessions i
    have hnone : (st.sessions i).todo = none := by
      rw [hs, hg]
      rfl
    exact refines_stay h rfl Iff.rfl (by simp [hg]) (step_same h (step_none hnone))

/-! ### Runs -/

variable (s₀ bodies ord) in
/-- Each order has lost the amounts of its payments, and its flag says whether it is paid. -/
def Settled (t : DB) : Prop :=
  ∀ id o₀, s₀.orders.lookup id = some o₀ → ∃ o, t.orders.lookup id = some o ∧
    o.remainingAmount.getD 0 = o₀.remainingAmount.getD 0 - ∑ i with ord i = id, (bodies i).amount ∧
    ((∃ i, ord i = id) → (o.isPaid = true ↔ o.remainingAmount.getD 0 ≤ 0)) ∧
    ((∀ i, ord i ≠ id) → o = o₀)

omit [DecidableEq I] in
lemma abstract_init : ReadModifyWrite.Exact ord (fun i => (bodies i).amount) (balance s₀)
      (abstract (init s₀ bodies) fun _ => .start) ∧
    ReadModifyWrite.Bounded ord (fun i => (bodies i).amount) (balance s₀)
      (abstract (init s₀ bodies) fun _ => .start) :=
  ⟨ReadModifyWrite.exact_start (a := abstract (init s₀ bodies) fun _ => .start) fun _ => rfl,
    ReadModifyWrite.bounded_start (a := abstract (init s₀ bodies) fun _ => .start) fun _ => rfl⟩

omit [DecidableEq I] [Fintype I] in
lemma done_of_ended (h : Inv s₀ bodies pay ord st stage)
    (hend : ∀ i, (st.sessions i).todo = none) (i : I) : stage i = .done := by
  have hi := hend i
  rw [h.sessions i] at hi
  rcases hg : stage i with _ | _ | _ | _ | _ | _ <;>
    simp [hg, Stage.session, Session.start] at hi ⊢

omit [DecidableEq I] in
lemma settled_iff (h : Inv s₀ bodies pay ord st stage) (hdone : ∀ i, stage i = .done)
    (hord : ∀ i, ord i ∈ s₀.orders) : Settled s₀ bodies ord st.db ↔
      ∀ id, balance st.db id = balance s₀ id - ∑ i with ord i = id, (bodies i).amount := by
  have hcommitted : ∀ id, Committed ord stage id ↔ ∃ i, ord i = id := by
    intro id
    simp [Committed, hdone]
  constructor
  · intro hs id
    rcases ho : s₀.orders.lookup id with _ | o₀
    · have hno : ∀ i, ord i ≠ id := by
        rintro i rfl
        obtain ⟨_, hr⟩ := Table.mem_iff_lookup.mp (hord i)
        cases ho.symm.trans hr
      have hun := h.untouched id (mt (hcommitted id).mp (by simpa using hno))
      simp [balance, hun, ho, Finset.filter_false_of_mem fun i _ => hno i]
    · obtain ⟨o, ht, hrem, -⟩ := hs id o₀ ho
      simpa [balance, ht, ho] using hrem
  · intro hbal id o₀ ho
    have hb := hbal id
    by_cases hc : ∃ i, ord i = id
    · obtain ⟨x, hx⟩ := h.touched id ((hcommitted id).mpr hc)
      rw [ho] at hx
      refine ⟨_, hx, by simpa [balance, hx, ho] using hb, fun _ => by simp [payOrder], ?_⟩
      exact fun hno => absurd hc (by simpa using hno)
    · have hun := h.untouched id (mt (hcommitted id).mp hc)
      rw [ho] at hun
      exact ⟨o₀, hun, by simpa [balance, hun, ho] using hb, fun h => absurd h hc, fun _ => rfl⟩

variable {sched : List I}

lemma run_exact (ht : ∀ i, target cfg s₀ (bodies i) = some (pay i, ord i))
    (h : Machine.Along step (Fresh bodies pay ord) (init s₀ bodies) sched) :
    ∃ stage, Inv s₀ bodies pay ord (Machine.run step (init s₀ bodies) sched) stage ∧
      ReadModifyWrite.Exact ord (fun i => (bodies i).amount) (balance s₀)
        (abstract (Machine.run step (init s₀ bodies) sched) stage) := by
  refine Machine.run_inv (fun st => ∃ stage, Inv s₀ bodies pay ord st stage ∧
    ReadModifyWrite.Exact ord (fun i => (bodies i).amount) (balance s₀) (abstract st stage))
    ?_ ⟨_, inv_init, abstract_init.1⟩ h
  rintro st i ⟨stage, hinv, hexact⟩ hi
  obtain ⟨stage', hinv', hmove, hfresh⟩ := refines ht hinv i
  exact ⟨stage', hinv', hexact.move hmove (hfresh.mp hi)⟩

/-- A stale write leaves a balance too high, and it stays so until the end. -/
lemma run_lost (ht : ∀ i, target cfg s₀ (bodies i) = some (pay i, ord i))
    (hpos : ∀ i, 0 < (bodies i).amount) (hinv : Inv s₀ bodies pay ord st stage)
    (hb : ReadModifyWrite.Bounded ord (fun i => (bodies i).amount) (balance s₀)
      (abstract st stage))
    (h : ¬ Machine.Along step (Fresh bodies pay ord) st sched ∨
      ReadModifyWrite.Lost ord (fun i => (bodies i).amount) (balance s₀) (abstract st stage)) :
    ∃ stage', Inv s₀ bodies pay ord (Machine.run step st sched) stage' ∧
      ReadModifyWrite.Lost ord (fun i => (bodies i).amount) (balance s₀)
        (abstract (Machine.run step st sched) stage') := by
  induction sched generalizing st stage with
  | nil => exact ⟨stage, hinv, h.resolve_left (by simp [Machine.Along])⟩
  | cons i ls ih =>
    obtain ⟨stage', hinv', hmove, hfresh⟩ := refines ht hinv i
    refine ih hinv' (hb.move hpos hmove) ?_
    rcases h with h | h
    · by_cases hi : Fresh bodies pay ord st i
      · exact .inl fun hls => h ⟨hi, hls⟩
      · exact .inr (ReadModifyWrite.lost_of_stale hb hmove (mt hfresh.mpr hi))
    · exact .inr (h.move hpos hb hmove)

/-- **Payments that are not lost**: whatever the schedule, when all transactions have ended
and each balance was written while it was the one read, every order has lost exactly the
amounts of its payments. With positive amounts a single other write leaves a balance that is
too high. -/
theorem payments_settle (cfg : Config) (s₀ : DB) (bodies : I → WebhookType) (pay ord : I → Id)
    (ht : ∀ i, target cfg s₀ (bodies i) = some (pay i, ord i)) (sched : List I)
    (hend : ∀ i, ((Machine.run step (init s₀ bodies) sched).sessions i).todo = none) :
    let t := (Machine.run step (init s₀ bodies) sched).db
    let fresh := Machine.Along step (Fresh bodies pay ord) (init s₀ bodies) sched
    (fresh → Settled s₀ bodies ord t) ∧
      ((∀ i, 0 < (bodies i).amount) → (Settled s₀ bodies ord t ↔ fresh)) := by
  intro t fresh
  have hord : ∀ i, ord i ∈ s₀.orders := by
    intro i
    obtain ⟨_, _, _, _, _, _, hmem⟩ := code_of_target (ht i)
    exact hmem
  have hsettled : fresh → Settled s₀ bodies ord t := by
    intro hfresh
    obtain ⟨stage, hinv, hexact⟩ := run_exact ht hfresh
    have hdone := done_of_ended hinv hend
    refine (settled_iff hinv hdone hord).mpr fun id => ?_
    have hbal := hexact.balance id
    rwa [ReadModifyWrite.ideal_end fun i => by simp [abstract, hdone, Stage.abstract]] at hbal
  refine ⟨hsettled, fun hpos => ⟨fun hs => ?_, hsettled⟩⟩
  by_contra hstale
  obtain ⟨stage, hinv, hlost⟩ := run_lost ht hpos inv_init abstract_init.2 (.inl hstale)
  have hdone := done_of_ended hinv hend
  obtain ⟨id, hlt⟩ := hlost.balance fun i => by simp [abstract, hdone, Stage.abstract]
  have heq := (settled_iff hinv hdone hord).mp hs id
  exact hlt.ne heq.symm

/-- The order's balance is 12000, and its payments are of 5000 and 7000. -/
def twoBodies : Fin 2 → WebhookType := ![Sample.webhook 7 5000, Sample.webhook 8 7000]

def twoPays : Fin 2 → Id := ![30, 31]

/-- One transaction after the other settles the order, so all its writes are fresh. -/
theorem payments_settle_serial : Machine.Along step (Fresh twoBodies twoPays fun _ => 10)
    (init Sample.dbWithPayments twoBodies) [0, 0, 0, 0, 0, 1, 1, 1, 1, 1] := by
  have hend : ∀ i, ((Machine.run step (init Sample.dbWithPayments twoBodies)
      [0, 0, 0, 0, 0, 1, 1, 1, 1, 1]).sessions i).todo = none := by
    intro i
    fin_cases i <;> rfl
  refine ((payments_settle Sample.config Sample.dbWithPayments twoBodies twoPays (fun _ => 10)
    (by decide) [0, 0, 0, 0, 0, 1, 1, 1, 1, 1] hend).2 (by decide +kernel)).mp ?_
  intro id o₀ ho
  have hid : id = 10 := by
    by_contra hne
    rw [show Sample.dbWithPayments.orders = AList.insert 10 Sample.order ∅ from rfl,
      AList.lookup_insert_ne hne] at ho
    cases ho
  subst hid
  obtain rfl : Sample.order = o₀ := Option.some.inj ho
  refine ⟨payOrder 0 Sample.order, by decide +kernel, ?_, ?_, ?_⟩
  · decide +kernel
  · simp [payOrder]
  · simp

/-- Both read the balance of 12000; the second commit writes 5000 over the first one's 7000. -/
theorem second_commit_overwrites_first :
    let st := Machine.run step (init Sample.dbWithPayments twoBodies) [0, 0, 1, 1, 0, 0, 0, 1, 1, 1]
    (∀ i, target Sample.config Sample.dbWithPayments (twoBodies i) = some (twoPays i, 10)) ∧
      Function.Injective twoPays ∧ (∀ i, (st.sessions i).todo = none) ∧
      balance st.db 10 = 5000 ∧ ¬ Settled Sample.dbWithPayments twoBodies (fun _ => 10) st.db := by
  intro st
  have hbal : balance st.db 10 = 5000 := by decide +kernel
  refine ⟨by decide, by decide, fun i => by fin_cases i <;> rfl, hbal, fun h => ?_⟩
  obtain ⟨o, ho, hrem, -⟩ := h 10 Sample.order rfl
  have hzero : Sample.order.remainingAmount.getD 0 -
      ∑ i : Fin 2 with (fun _ => 10) i = 10, (twoBodies i).amount = 0 := by
    decide +kernel
  rw [hzero] at hrem
  rw [balance, ho] at hbal
  exact absurd (hbal.symm.trans hrem) (by decide +kernel)

end TsaBackend.LostUpdate
