import Mathlib.Logic.Basic

/-!
Publish and subscribe: what a program that uses a server of topics relies on.

The server is known by the operations it has been asked for. `Lawful` says which clients it takes
for connected, which it takes for subscribed to a topic, and what it has sent to each of them.
-/

namespace TsaBackend

/-- What a server is asked for; a message can come from a client or from none. -/
inductive BrokerOp (κ τ μ : Type)
  | connect (c : κ)
  | disconnect (c : κ)
  | join (t : τ) (c : κ)
  | leave (t : τ) (c : κ)
  | emit (t : τ) (sender : Option κ) (m : μ)
  deriving DecidableEq, Repr

/-- A server, after the operations so far, the last first. -/
structure Broker (κ τ μ : Type) where
  connected : List (BrokerOp κ τ μ) → κ → Bool
  subscribed : List (BrokerOp κ τ μ) → τ → κ → Bool
  received : List (BrokerOp κ τ μ) → κ → List μ
  /-- The topic that each client is subscribed to from the start. -/
  ownTopic : κ → τ

namespace Broker

variable {κ τ μ : Type}

/-- The operation connects no client and disconnects none. -/
def KeepsClients : BrokerOp κ τ μ → Prop
  | .connect _ | .disconnect _ => False
  | _ => True

def Sends : BrokerOp κ τ μ → Prop
  | .emit .. => True
  | _ => False

/-- The server does what it is asked for: a client that is not connected joins nothing, one that
disconnects leaves everything, and a message goes once to each who is subscribed to its topic,
except the client it comes from. -/
structure Lawful (io : Broker κ τ μ) : Prop where
  connected_nil : ∀ c, ¬ io.connected [] c
  connected_connect : ∀ ops c c', io.connected (.connect c' :: ops) c ↔ c = c' ∨ io.connected ops c
  connected_disconnect : ∀ ops c c',
    io.connected (.disconnect c' :: ops) c ↔ c ≠ c' ∧ io.connected ops c
  connected_other : ∀ op ops c, KeepsClients op →
    (io.connected (op :: ops) c ↔ io.connected ops c)
  subscribed_nil : ∀ t c, ¬ io.subscribed [] t c
  subscribed_connect : ∀ ops t c c', io.subscribed (.connect c' :: ops) t c ↔
    c = c' ∧ t = io.ownTopic c ∨ io.subscribed ops t c
  subscribed_disconnect : ∀ ops t c c',
    io.subscribed (.disconnect c' :: ops) t c ↔ c ≠ c' ∧ io.subscribed ops t c
  subscribed_join : ∀ ops t t' c c', io.subscribed (.join t' c' :: ops) t c ↔
    (t = t' ∧ c = c') ∧ io.connected ops c ∨ io.subscribed ops t c
  subscribed_leave : ∀ ops t t' c c', io.subscribed (.leave t' c' :: ops) t c ↔
    ¬ (t = t' ∧ c = c') ∧ io.subscribed ops t c
  subscribed_emit : ∀ ops t t' c sender m,
    io.subscribed (.emit t' sender m :: ops) t c ↔ io.subscribed ops t c
  received_nil : ∀ c, io.received [] c = []
  received_to : ∀ ops t c sender m, io.subscribed ops t c → sender ≠ some c →
    io.received (.emit t sender m :: ops) c = io.received ops c ++ [m]
  received_past : ∀ ops t c sender m, ¬ (io.subscribed ops t c ∧ sender ≠ some c) →
    io.received (.emit t sender m :: ops) c = io.received ops c
  received_other : ∀ op ops c, ¬ Sends op → io.received (op :: ops) c = io.received ops c

/-! The laws can be met by reading the operations. -/

section Log

variable [DecidableEq κ] [DecidableEq τ]

def connectedIn : List (BrokerOp κ τ μ) → κ → Bool
  | [], _ => false
  | .connect c' :: ops, c => c = c' || connectedIn ops c
  | .disconnect c' :: ops, c => c ≠ c' && connectedIn ops c
  | _ :: ops, c => connectedIn ops c

def subscribedIn (ownTopic : κ → τ) : List (BrokerOp κ τ μ) → τ → κ → Bool
  | [], _, _ => false
  | .connect c' :: ops, t, c => (c = c' ∧ t = ownTopic c) || subscribedIn ownTopic ops t c
  | .disconnect c' :: ops, t, c => c ≠ c' && subscribedIn ownTopic ops t c
  | .join t' c' :: ops, t, c =>
    (decide (t = t' ∧ c = c') && connectedIn ops c) || subscribedIn ownTopic ops t c
  | .leave t' c' :: ops, t, c => ¬ (t = t' ∧ c = c') && subscribedIn ownTopic ops t c
  | .emit _ _ _ :: ops, t, c => subscribedIn ownTopic ops t c

def receivedIn (ownTopic : κ → τ) : List (BrokerOp κ τ μ) → κ → List μ
  | [], _ => []
  | .emit t sender m :: ops, c =>
    if subscribedIn ownTopic ops t c ∧ sender ≠ some c then receivedIn ownTopic ops c ++ [m]
    else receivedIn ownTopic ops c
  | _ :: ops, c => receivedIn ownTopic ops c

def ofLog (ownTopic : κ → τ) : Broker κ τ μ where
  connected := connectedIn
  subscribed := subscribedIn ownTopic
  received := receivedIn ownTopic
  ownTopic := ownTopic

lemma ofLog_lawful (ownTopic : κ → τ) : (ofLog ownTopic : Broker κ τ μ).Lawful where
  connected_nil c := Bool.false_ne_true
  connected_connect ops c c' := by simp [ofLog, connectedIn]
  connected_disconnect ops c c' := by simp [ofLog, connectedIn]
  connected_other op ops c hop := by
    cases op with
    | connect c' => exact hop.elim
    | disconnect c' => exact hop.elim
    | _ => rfl
  subscribed_nil t c := Bool.false_ne_true
  subscribed_connect ops t c c' := by simp [ofLog, subscribedIn]
  subscribed_disconnect ops t c c' := by simp [ofLog, subscribedIn]
  subscribed_join ops t t' c c' := by simp [ofLog, subscribedIn]
  subscribed_leave ops t t' c c' := by simp [ofLog, subscribedIn, imp_iff_not_or]
  subscribed_emit ops t t' c sender m := Iff.rfl
  received_nil c := rfl
  received_to ops t c sender m hs hne := if_pos ⟨hs, hne⟩
  received_past ops t c sender m h := if_neg h
  received_other op ops c hop := by
    cases op with
    | emit t sender m => exact absurd trivial hop
    | _ => rfl

end Log

end Broker

end TsaBackend
