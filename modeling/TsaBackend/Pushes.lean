import TsaBackend.Ledger
import TsaBackend.NoticeSteps

/-!
The way of a push: from the devices a call finds, through the queue and its workers, to Firebase.

Whatever runs at the same time, the jobs added are those of the devices each call has found, and
Firebase confirms one message for each attempt that goes through.
-/

namespace TsaBackend.Pushes

open Call NoticeSteps NotificationsService

variable {cfg : NoticeConfig} {s t : NoticeDB} {r : NoticeRequest}
  {G : NoticeDB → NoticeDB → Prop}

/-- The queue of pushes and Firebase are the same. -/
structure SamePushes (s t : NoticeDB) : Prop where
  pushJobs : t.pushJobs = s.pushJobs
  firebase : t.firebase = s.firebase

lemma samePushes_refl (s : NoticeDB) : SamePushes s s := ⟨rfl, rfl⟩

/-- The request is an attempt of a worker. -/
def isAttempt : NoticeRequest → Bool
  | .process _ => true
  | _ => false

/-- A request that pushes nothing and is no attempt of a worker leaves both. -/
lemma step_samePushes (hpush : pushOf r = none) (hattempt : isAttempt r = false)
    (h : NoticeStep cfg SamePushes r s t) : SamePushes s t := by
  cases h with
  | none => exact samePushes_refl s
  | create hr h =>
    obtain ⟨_, _, _, rfl⟩ := createNotification_ok h
    exact ⟨rfl, rfl⟩
  | email hr => exact ⟨rfl, rfl⟩
  | read h =>
    obtain ⟨_, _, _, rfl⟩ := readNotification_ok h
    exact ⟨rfl, rfl⟩
  | readAll => exact ⟨rfl, rfl⟩
  | register h =>
    obtain ⟨_, rfl, _⟩ := upsertDevice_ok h
    exact ⟨rfl, rfl⟩
  | unregister h =>
    obtain ⟨_, rfl, _⟩ := updateDevice_ok h
    exact ⟨rfl, rfl⟩
  | push hr =>
    rw [hpush] at hr
    cases hr
  | send => cases hattempt
  | other h => exact h

lemma call_samePushes (hpush : pushOf r = none) (hattempt : isAttempt r = false)
    (hother : ∀ c, r = .other c → c.Steps SamePushes) : (r.call cfg).Steps SamePushes :=
  (call_steps hother).mono fun _ _ => step_samePushes hpush hattempt

lemma sendNotification_samePushes (dto : CreateNotificationDto) :
    (sendNotification dto).Steps SamePushes :=
  (@sendNotification_steps ⟨""⟩ (.sendNotification dto) SamePushes dto rfl).mono
    fun _ _ => step_samePushes rfl rfl

/-- The jobs that were added. -/
def added (s : NoticeDB) : Multiset PushNotificationJobData := s.pushJobs

lemma SamePushes.added (h : SamePushes s t) : Keeps added s t := by
  unfold Keeps Pushes.added
  rw [h.pushJobs]

/-- One job for each Android device of the user that takes pushes, with the message. -/
structure JobsFor (s : NoticeDB) (userId : Id) (message : PushNotificationMessage)
    (jobs : Multiset PushNotificationJobData) : Prop where
  nodup : jobs.Nodup
  mem_iff : ∀ job, job ∈ jobs ↔ job.userId = userId ∧ job.message = message ∧
    ∃ device, s.deviceTokens.lookup job.token = some device ∧ device.userId = userId ∧
      device.pushNotiType = .enabled ∧ device.platform = .android

/-- The jobs that a request asks for where it looks for devices. -/
def Asks (r : NoticeRequest) (_ : NoticeInput) (s : NoticeDB)
    (jobs : Multiset PushNotificationJobData) : Prop :=
  ∃ userId message, pushOf r = some (userId, message) ∧ JobsFor s userId message jobs

/-- A request that asks for no pushes may return without. -/
def AsksNone (r : NoticeRequest) {α : Type} (_ : α) (_ : Past NoticeDB NoticeInput) : Prop :=
  pushOf r = none

lemma mem_enabledDevices {i : NoticeInput} {userId : Id} {e : String × DeviceToken} :
    e ∈ s.enabledDevices i userId ↔ s.deviceTokens.lookup e.1 = some e.2 ∧ e.2.userId = userId ∧
      e.2.pushNotiType = .enabled ∧ e.2.platform = .android := by
  rw [NoticeDB.enabledDevices, Table.mem_ranked]
  simp only [decide_eq_true_eq, Bool.decide_and, Bool.and_eq_true]

lemma jobsFor_pushes (i : NoticeInput) (userId : Id) (message : PushNotificationMessage) :
    JobsFor s userId message (pushes (s.enabledDevices i userId) message) := by
  refine ⟨?_, fun job => ?_⟩
  · -- two devices with one token are one device
    rw [Multiset.coe_nodup, pushes]
    refine Table.ranked_nodup.map_on fun a ha b hb hab => ?_
    have htoken : a.1 = b.1 := congrArg PushNotificationJobData.token hab
    have hb' := (mem_enabledDevices.mp hb).1
    rw [← htoken, (mem_enabledDevices.mp ha).1, Option.some.injEq] at hb'
    exact Prod.ext htoken hb'
  · rw [Multiset.mem_coe, pushes, List.mem_map]
    constructor
    · rintro ⟨e, he, rfl⟩
      obtain ⟨hlookup, huser, hdevice⟩ := mem_enabledDevices.mp he
      exact ⟨huser, rfl, e.2, hlookup, huser, hdevice⟩
    · rintro ⟨huser, rfl, device, hdevice⟩
      refine ⟨(job.token, device), mem_enabledDevices.mpr hdevice, ?_⟩
      obtain ⟨-, hown, -⟩ := hdevice
      dsimp only
      rw [hown, ← huser]

lemma sendPush_asks {userId : Id} {message : PushNotificationMessage}
    {past : Past NoticeDB NoticeInput} (hpush : pushOf r = some (userId, message)) :
    (sendPushNotification (some userId) message).Deposits added (Now (Asks r)) (AsksNone r)
      past := by
  refine deposits_atomic fun i s a t h => ?_
  split at h
  · cases h
    exact ⟨_, ⟨_, _, hpush, jobsFor_pushes i _ _⟩, (Multiset.coe_add _ _).symm⟩
  · cases h

lemma process_added (n : ℕ) : (process cfg n).Steps (Keeps added) := by
  unfold process
  refine (steps_read _ keeps_refl).bind fun found => ?_
  rcases found with _ | job
  · exact steps_pure _
  refine steps_atomic (fun i s a t h => ?_) keeps_refl
  split at h
  · cases h
    rfl
  · cases h

/-- **The jobs a request adds**, whatever happens between its steps. -/
theorem call_asks (hother : ∀ c, r = .other c → c.Steps SamePushes) :
    (r.call cfg).Deposits added (Now (Asks r)) (AsksNone r) [] := by
  rcases hpush : pushOf r with _ | ⟨userId, message⟩
  · refine Steps.deposits ?_ fun _ _ => hpush
    rcases hattempt : isAttempt r with _ | _
    · exact (call_samePushes hpush hattempt hother).mono fun _ _ => SamePushes.added
    · cases r with
      | process n => exact (process_added n).bind fun _ => steps_pure _
      | _ => cases hattempt
  · cases r with
    | sendPushNotification user m =>
      obtain ⟨_, rfl, heq⟩ := Option.map_eq_some_iff.mp hpush
      cases heq
      exact (sendPush_asks hpush).bind_steps (fun _ => steps_pure _) fun _ _ h _ _ => h
    | sendFullNotification n =>
      obtain ⟨_, huser, heq⟩ := Option.map_eq_some_iff.mp hpush
      cases heq
      refine Deposits.bind_steps ?_ (fun _ => steps_pure _) fun _ _ h _ _ => h
      unfold NotificationsService.sendFullNotification
      rw [huser]
      refine Steps.par_deposits ?_ (Deposits.par (sendPush_asks hpush) (steps_pure _))
      refine Steps.bind ?_ fun _ => steps_pure _
      exact (sendNotification_samePushes _).mono fun _ _ => SamePushes.added
    | _ => cases hpush

/-! ### Messages, and any interleaving -/

/-- What Firebase has confirmed. -/
def confirmed (s : NoticeDB) : Multiset FirebaseMessage := s.firebase

/-- An attempt at a job that it has found makes one message: the token and the text of the job. -/
def Confirms (cfg : NoticeConfig) (r : NoticeRequest) (past : Past NoticeDB NoticeInput)
    (messages : Multiset FirebaseMessage) : Prop :=
  ∃ n job, r = .process n ∧ (∃ e ∈ past, e.2.pushJobs[n]? = some job) ∧
    messages = {⟨job.token, job.message, "default", cfg.expoInfo, cfg.expoInfo⟩}

/-- An attempt may return without where no job has been added as the number it was given. -/
def ConfirmsNone (r : NoticeRequest) {α : Type} (_ : α) (past : Past NoticeDB NoticeInput) : Prop :=
  ∀ n, r = .process n → ∃ e ∈ past, e.2.pushJobs[n]? = none

lemma step_confirmed (hattempt : ∀ n, r ≠ .process n) (h : NoticeStep cfg SamePushes r s t) :
    Keeps confirmed s t := by
  unfold Keeps confirmed
  cases h with
  | create hr h =>
    obtain ⟨_, _, _, rfl⟩ := createNotification_ok h
    rfl
  | read h =>
    obtain ⟨_, _, _, rfl⟩ := readNotification_ok h
    rfl
  | register h =>
    obtain ⟨_, rfl, _⟩ := upsertDevice_ok h
    rfl
  | unregister h =>
    obtain ⟨_, rfl, _⟩ := updateDevice_ok h
    rfl
  | send => exact absurd rfl (hattempt _)
  | other h => rw [h.firebase]
  | _ => rfl

lemma process_confirms (n : ℕ) : (NoticeRequest.call cfg (.process n)).Deposits confirmed
    (Confirms cfg (.process n)) (ConfirmsNone (.process n)) [] := by
  change (process cfg n >>= _).Deposits _ _ _ _
  rw [process, bind_assoc]
  refine deposits_read_bind fun i s => ?_
  rcases hfound : s.pushJobs[n]? with _ | job
  · rintro m hm
    cases hm
    exact ⟨_, List.mem_singleton_self _, hfound⟩
  refine Deposits.bind_steps (Q := fun _ _ => False) (deposits_atomic fun j u a t h => ?_)
    (fun _ => steps_pure _) fun _ _ h => h.elim
  split at h
  · cases h
    exact ⟨_, ⟨n, job, rfl, ⟨(i, s), by simp, hfound⟩, rfl⟩, (Multiset.coe_add _ _).symm⟩
  · cases h

/-- **The messages of a request**, whatever happens between its steps. -/
theorem call_confirms (hother : ∀ c, r = .other c → c.Steps SamePushes) :
    (r.call cfg).Deposits confirmed (Confirms cfg r) (ConfirmsNone r) [] := by
  by_cases hattempt : ∃ n, r = .process n
  · obtain ⟨n, rfl⟩ := hattempt
    exact process_confirms n
  · refine Steps.deposits ?_ fun _ _ n hn => absurd ⟨n, hn⟩ hattempt
    exact (call_steps hother).mono fun _ _ => step_confirmed fun n hn => hattempt ⟨n, hn⟩

/-- What the calls have added to the queue, and what the workers have made of it. -/
structure Pushed (cfg : NoticeConfig) (requests : List NoticeRequest) (s : NoticeDB)
    (sched : List (ℕ × NoticeInput)) (asked : ℕ → Multiset PushNotificationJobData)
    (sent : ℕ → Multiset FirebaseMessage) (t : NoticeDB) : Prop where
  added : (t.pushJobs : Multiset _) = (s.pushJobs : Multiset _) +
    ∑ k ∈ Finset.range requests.length, asked k
  /-- A call has asked for the devices it found, or for none yet. -/
  asked : ∀ k r, requests[k]? = some r →
    Accounted s (noticeCalls cfg requests) sched (Now (Asks r)) (AsksNone r) k (asked k)
  confirmed : (t.firebase : Multiset _) = (s.firebase : Multiset _) +
    ∑ k ∈ Finset.range requests.length, sent k
  /-- An attempt has sent the message of its job, or none. -/
  sent : ∀ k r, requests[k]? = some r →
    Accounted s (noticeCalls cfg requests) sched (Confirms cfg r) (ConfirmsNone r) k (sent k)

variable {requests : List NoticeRequest}

lemma asked_run (hother : OthersKeep SamePushes requests) (sched : List (ℕ × NoticeInput)) :
    ∃ asked : ℕ → Multiset PushNotificationJobData,
      added (interleave s (noticeCalls cfg requests) sched).1 =
        added s + ∑ k ∈ Finset.range requests.length, asked k ∧
      ∀ k r, requests[k]? = some r →
        Accounted s (noticeCalls cfg requests) sched (Now (Asks r)) (AsksNone r) k (asked k) :=
  deposits_map (fun _ hr => call_asks fun c hc => hother c (hc ▸ hr)) sched

lemma sent_run (hother : OthersKeep SamePushes requests) (sched : List (ℕ × NoticeInput)) :
    ∃ sent : ℕ → Multiset FirebaseMessage,
      confirmed (interleave s (noticeCalls cfg requests) sched).1 =
        confirmed s + ∑ k ∈ Finset.range requests.length, sent k ∧
      ∀ k r, requests[k]? = some r →
        Accounted s (noticeCalls cfg requests) sched (Confirms cfg r) (ConfirmsNone r) k (sent k) :=
  deposits_map (fun _ hr => call_confirms fun c hc => hother c (hc ▸ hr)) sched

/-- **Every push is accounted for.** Whatever the calls and the workers do in between, the jobs
added are those of exactly the devices each call has found, and Firebase has confirmed one message
for each attempt that went through, that of its job. -/
theorem pushes_accounted (hother : OthersKeep SamePushes requests)
    (sched : List (ℕ × NoticeInput)) : ∃ asked sent, Pushed cfg requests s sched asked sent
      (interleave s (noticeCalls cfg requests) sched).1 := by
  obtain ⟨asked, hadded, hasked⟩ := asked_run hother sched
  obtain ⟨sent, hconfirmed, hsent⟩ := sent_run hother sched
  exact ⟨asked, sent, hadded, hasked, hconfirmed, hsent⟩

/-! A push that is sent at the second attempt. -/

def samplePool : List NoticeRequest :=
  [.sendPushNotification (some 1) ⟨"TSA", "welcome"⟩, .process 0, .process 0]

/-- Firebase does not answer the first time. -/
def sampleSched : List (ℕ × NoticeInput) :=
  [(0, true), (1, true), (1, false), (2, true), (2, true)].map fun e =>
    (e.1, Sample.noticeInput e.2 0)

lemma sample_others {G : NoticeDB → NoticeDB → Prop} : OthersKeep G samplePool := by
  intro c hc
  simp [samplePool] at hc

theorem pushes_accounted_sample :
    (∃ asked sent, Pushed Sample.noticeConfig samplePool Sample.noticeDB sampleSched asked sent
      (interleave Sample.noticeDB (noticeCalls Sample.noticeConfig samplePool) sampleSched).1) ∧
    (interleave Sample.noticeDB (noticeCalls Sample.noticeConfig samplePool)
        sampleSched).1.firebase = [⟨"on", ⟨"TSA", "welcome"⟩, "default", "@tsa/app", "@tsa/app"⟩] :=
  ⟨pushes_accounted sample_others sampleSched, by decide +kernel⟩

end TsaBackend.Pushes
