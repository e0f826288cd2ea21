import TsaBackend.Optimistic
import TsaBackend.RequestSteps

/-!
Status changes of one order that run at the same time: each reads the status at its start and
writes at its end, whatever the status is by then.
-/

namespace TsaBackend.StatusRaces

open Call OrderEffects RequestSteps

variable {cfg : Config} {dto : UpdateStatusDto} {user : GetUserType} {s t : DB} {id : Id}

/-- How many status rows an order has. -/
def rowCount (id : Id) (s : DB) : ℕ := (s.historyOf id).length

def statusOf (id : Id) (s : DB) : Option (Option OrderStatus) :=
  (s.orders.lookup id).map (·.latestStatus)

/-- Status changes of one order. -/
def changes (cfg : Config) (id : Id) (reqs : List (UpdateStatusDto × GetUserType)) :
    List (Async String) := reqs.map fun r => updateStatus cfg id r.1 r.2

lemma quiet_of_eq (horders : t.orders = s.orders)
    (hlog : t.orderStatusHistory = s.orderStatusHistory) :
    Quiet (rowCount id) (statusOf id) s t := by
  constructor
  · rw [rowCount, rowCount, DB.historyOf, DB.historyOf, hlog]
  · rw [statusOf, statusOf, horders]

lemma quiet_payCash :
    Quiet (rowCount id) (statusOf id) s { s with orders := s.orders.modify id payCash } := by
  refine ⟨rfl, ?_⟩
  simp only [statusOf, Table.lookup_modify_self, Option.map_map]
  rfl

lemma rowCount_logged {i : Input} {status : OrderStatus} {reason : Option String}
    {canceledImage finishedImage receivedImage : Arg String} :
    rowCount id (logged i id status reason canceledImage finishedImage receivedImage s) =
      rowCount id s + 1 := by
  rw [rowCount, historyOf_logged, if_pos rfl, List.length_append]
  rfl

lemma recordStatus_commits {order : Order} :
    (recordStatus id dto order).Commits (rowCount id) (statusOf id) := by
  unfold recordStatus
  refine (Steps.when fun _ => steps_sendFullNotification quiet_refl _).commits_bind fun _ => ?_
  refine commits_atomic fun i s _ t h => ?_
  obtain ⟨-, rfl⟩ := logged_of_ok (of_map_ok h)
  rw [rowCount_logged]
  omega

/-- **A status change writes with its last step.** -/
theorem updateStatus_commits :
    (updateStatus cfg id dto user).Commits (rowCount id) (statusOf id) := by
  unfold updateStatus
  refine (steps_read _ quiet_refl).commits_bind fun order => ?_
  rcases order with _ | order
  · exact commits_throw _
  refine (steps_throwIf _ _).commits_bind fun _ => ?_
  refine (steps_throwIf _ _).commits_bind fun _ => ?_
  refine Steps.commits_bind (Steps.when fun _ => ?_) fun _ => ?_
  · unfold checkCancel
    refine (steps_throwIf _ _).bind fun _ => ?_
    refine (steps_throwIf _ _).bind fun _ => ?_
    refine (steps_throwIf _ _).bind fun _ => ?_
    refine Steps.when fun _ => steps_chargeFault quiet_refl fun s t u n ban h => ?_
    rw [chargeStudent_ok h]
    exact quiet_of_eq rfl rfl
  · unfold changeStatus
    refine (steps_throwIf _ _).commits_bind fun _ => ?_
    refine Steps.commits_bind (Steps.when fun _ => ?_) fun _ => recordStatus_commits
    refine steps_execute quiet_refl fun i s t h => ?_
    obtain ⟨_, _, _, rfl⟩ := DB.updateOrder_ok h
    exact quiet_payCash

/-- **When racing status changes have one winner**: in any interleaving of status changes of one
order, at most one of the calls that read the same status before either wrote goes through, just
when every call that goes through adds its row to the rows that were there when it read. -/
theorem racing_changes_have_one_winner (cfg : Config) (s : DB) (id : Id)
    (reqs : List (UpdateStatusDto × GetUserType)) (sched : List (ℕ × Input)) :
    OneWinner s (changes cfg id reqs) sched (statusOf id) ↔
      Undisturbed s (changes cfg id reqs) sched (rowCount id) := by
  refine one_winner_iff fun c hc => ?_
  obtain ⟨r, -, rfl⟩ := List.mem_map.mp hc
  exact updateStatus_commits

/-- An order on its way. -/
def dbInTransport : DB := { Sample.dbWithOrder with
  orders := AList.insert 10 { Sample.order with latestStatus := some .inTransport } ∅
  orderStatusHistory := [⟨10, .inTransport, none, "900", none⟩] }

/-- A shipper hands it over while an administrator cancels it. -/
def handoverAndCancel : List (UpdateStatusDto × GetUserType) :=
  [({ UpdateStatusDto.only .delivered with finishedImage := .val "f.png" }, Sample.staff),
   ({ UpdateStatusDto.only .canceled with
      reason := .val "lost"
      canceledImage := .val "c.png"
      cancelReasonType := .val .fromStaff }, Sample.admin)]

/-- Both read it in transport, and both rows are written. -/
theorem delivered_and_canceled :
    let sched := ([0, 1, 0, 0, 0, 1, 1] : List ℕ).map fun k => (k, Sample.inputs 0 0)
    ((interleave dbInTransport (changes Sample.config 10 handoverAndCancel) sched).1.historyOf
        10).map (·.status) = [.inTransport, .delivered, .canceled] ∧
      ¬ OneWinner dbInTransport (changes Sample.config 10 handoverAndCancel) sched
        (statusOf 10) := by
  intro sched
  refine ⟨by decide +kernel, fun h => ?_⟩
  have hfirst : Takes dbInTransport (changes Sample.config 10 handoverAndCancel) sched 0 0 0 :=
    ⟨⟨_, rfl⟩, rfl, _, rfl, rfl⟩
  have hsecond : Takes dbInTransport (changes Sample.config 10 handoverAndCancel) sched 1 0 1 :=
    ⟨⟨_, rfl⟩, rfl, _, rfl, rfl⟩
  have hdelivered : Finishes dbInTransport (changes Sample.config 10 handoverAndCancel) sched 0 4 :=
    ⟨⟨_, rfl⟩, by decide +kernel, by decide +kernel⟩
  have hcanceled : Finishes dbInTransport (changes Sample.config 10 handoverAndCancel) sched 1 6 :=
    ⟨⟨_, rfl⟩, by decide +kernel, by decide +kernel⟩
  exact h 0 1 0 1 4 6 (by decide) hfirst hsecond hdelivered hcanceled (by decide) (by decide) rfl

end TsaBackend.StatusRaces
