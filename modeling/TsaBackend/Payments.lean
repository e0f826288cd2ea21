import TsaBackend.Orders

/-!
`payment/payment.service.impl.ts`: payment links and the notifications of the gateway.
-/

namespace TsaBackend

open Call (throwIf when)

structure PayOsRequestDto where
  amount : Money
  orderId : Arg Id
  deriving DecidableEq, Repr

/-- The answer of the gateway and its link are not kept. -/
def createPayOSPayment (dto : PayOsRequestDto) : Async Unit := do
  let .val orderId := dto.orderId | throw (.prisma .validation)
  let some _ ← findOrder orderId | throw (.error "Order not found")
  let now ← input
  let orderCode := now.now + now.random % 1000
  service
  execute fun i s => s.createPayment i.fresh {
    orderId
    amount := dto.amount
    isPaid := false
    orderCode := toString orderCode
    counterAccountBankName := none
    counterAccountName := none
    counterAccountNumber := none }

/-- `order.remainingAmount - amount`, where `null` counts as `0`. -/
def newRemainingAmount (o : Order) (amount : Money) : Money := o.remainingAmount.getD 0 - amount

def payOrder (newRemaining : Money) (o : Order) : Order :=
  { o with remainingAmount := some newRemaining, isPaid := newRemaining ≤ 0 }

def markPaid (body : WebhookType) (p : Payment) : Payment :=
  { p with
    isPaid := true
    counterAccountName := body.counterAccountName.patch p.counterAccountName
    counterAccountNumber := body.counterAccountNumber.patch p.counterAccountNumber
    counterAccountBankName := body.counterAccountBankName.patch p.counterAccountBankName }

/-- The interactive transaction, taken as one step. -/
def webhookTransaction (body : WebhookType) (s : DB) : Except Exn (Order × DB) :=
  match s.findPayment (toString body.orderCode) with
  | none => .error (.error "Payment not found")
  | some (paymentId, payment) =>
    match s.orders.lookup payment.orderId with
    | none => .error (.error "Order not found")
    | some order => do
      let newRemaining := newRemainingAmount order body.amount
      let s ← s.updateOrder payment.orderId (payOrder newRemaining)
      let s ← s.updatePayment paymentId (markPaid body)
      return (payOrder newRemaining order, s)

/-- The body of the handler's `try`; the code `123` is the gateway's test. -/
def processWebhook (cfg : Config) (body : WebhookType) : Async Unit := do
  throwIf (¬ cfg.verifyPaymentWebhookData body) (.error "Invalid signature")
  when (body.orderCode ≠ 123) do
    let updatedOrder ← (.atomic fun _ s => webhookTransaction body s : Async _)
    sendFullNotification updatedOrder.studentId

/-- Every exception is caught and logged. -/
def handleWebhook (cfg : Config) (body : WebhookType) : Async Unit :=
  tryCatch (processWebhook cfg body) fun _ => pure ()

end TsaBackend
