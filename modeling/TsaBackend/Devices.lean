import TsaBackend.Pushes

/-!
Whose devices are sent to: a device keeps its user for good, only requests that name both change
it, and what Firebase confirms is for a device of the user it was asked for.
-/

namespace TsaBackend.Devices

open Call NoticeSteps NotificationsService Pushes

variable {cfg : NoticeConfig} {s t u : NoticeDB} {r : NoticeRequest} {token : String}
  {requests : List NoticeRequest}

/-- The columns of a device that never change. -/
structure SameDevice (d d' : DeviceToken) : Prop where
  userId : d'.userId = d.userId
  platform : d'.platform = d.platform
  createdAt : d'.createdAt = d.createdAt

/-- The request registers this device. -/
def Registers (r : NoticeRequest) (token : String) (d : DeviceToken) : Prop :=
  ∃ dto, r = .registerPushNotification dto ∧ dto.token = token ∧ dto.userId = d.userId ∧
    parsePlatform dto.platform = some d.platform

/-- The request names the device and its user. -/
def Names (token : String) (userId : Id) : NoticeRequest → Prop
  | .registerPushNotification dto => dto.token = token ∧ dto.userId = userId
  | .unregisterPushNotification dto => dto.token = token ∧ dto.userId = userId
  | _ => False

/-- What a request leaves of the devices: all that there were, and new ones only where it registers
them. -/
structure DeviceStep (r : NoticeRequest) (s t : NoticeDB) : Prop where
  kept : ∀ token d, s.deviceTokens.lookup token = some d →
    ∃ d', t.deviceTokens.lookup token = some d' ∧ SameDevice d d' ∧
      (d'.pushNotiType = d.pushNotiType ∨ Names token d.userId r)
  new : ∀ token d', t.deviceTokens.lookup token = some d' →
    (∃ d, s.deviceTokens.lookup token = some d) ∨ Registers r token d'

/-- The devices are the same. -/
def SameDevices (s t : NoticeDB) : Prop := t.deviceTokens = s.deviceTokens

lemma sameDevice_refl (d : DeviceToken) : SameDevice d d := ⟨rfl, rfl, rfl⟩

lemma SameDevice.trans {d d' d'' : DeviceToken} (h : SameDevice d d') (h' : SameDevice d' d'') :
    SameDevice d d'' :=
  ⟨h'.userId.trans h.userId, h'.platform.trans h.platform, h'.createdAt.trans h.createdAt⟩

lemma SameDevices.step (h : SameDevices s t) : DeviceStep r s t where
  kept token d hd := ⟨d, by rw [h, hd], sameDevice_refl d, .inl rfl⟩
  new token d hd := .inl ⟨d, by rw [← h, hd]⟩

lemma deviceStep_modify {type : PushNotiType} {d₀ : DeviceToken}
    (hd₀ : s.deviceTokens.lookup token = some d₀) (hnames : Names token d₀.userId r) :
    DeviceStep r s { s with
      deviceTokens := s.deviceTokens.modify token fun device =>
        { device with pushNotiType := type } } where
  kept token' d hd := by
    rw [Table.lookup_modify]
    split
    · next heq =>
      subst heq
      rw [hd, Option.some.injEq] at hd₀
      subst hd₀
      rw [hd, Option.map_some]
      exact ⟨_, rfl, ⟨rfl, rfl, rfl⟩, .inr hnames⟩
    · exact ⟨d, hd, sameDevice_refl d, .inl rfl⟩
  new token' d' hd' := by
    rw [Table.lookup_modify] at hd'
    split at hd'
    · next heq =>
      subst heq
      exact .inl ⟨d₀, hd₀⟩
    · exact .inl ⟨d', hd'⟩

/-- **One step of a request on the devices.** -/
theorem step_devices (h : NoticeStep cfg SameDevices r s t) : DeviceStep r s t := by
  cases h with
  | none => exact SameDevices.step rfl
  | create hr h =>
    obtain ⟨_, _, _, rfl⟩ := createNotification_ok h
    exact SameDevices.step rfl
  | email hr => exact SameDevices.step rfl
  | read h =>
    obtain ⟨_, _, _, rfl⟩ := readNotification_ok h
    exact SameDevices.step rfl
  | readAll => exact SameDevices.step rfl
  | @register dto createdAt _ _ h =>
    obtain ⟨_, rfl, platform, hplatform, ⟨d₀, hd₀, huser, -, rfl⟩ | ⟨hnone, rfl⟩⟩ :=
      upsertDevice_ok h
    · exact deviceStep_modify hd₀ (show _ ∧ _ from ⟨rfl, huser.symm⟩)
    · refine ⟨fun token d hd => ?_, fun token d' hd' => ?_⟩
      · have hne : token ≠ dto.token := by
          rintro rfl
          rw [hnone] at hd
          cases hd
        exact ⟨d, by rw [AList.lookup_insert_ne hne, hd], sameDevice_refl d, .inl rfl⟩
      · by_cases heq : token = dto.token
        · subst heq
          rw [AList.lookup_insert, Option.some.injEq] at hd'
          subst hd'
          exact .inr ⟨dto, rfl, rfl, rfl, hplatform⟩
        · rw [AList.lookup_insert_ne heq] at hd'
          exact .inl ⟨d', hd'⟩
  | unregister h =>
    obtain ⟨_, rfl, type, d₀, hd₀, huser, rfl⟩ := updateDevice_ok h
    exact deviceStep_modify hd₀ (show _ ∧ _ from ⟨rfl, huser.symm⟩)
  | push hr => exact SameDevices.step rfl
  | send => exact SameDevices.step rfl
  | other h => exact h.step

/-! ### Any interleaving -/

/-- What requests leave of the devices. -/
structure DevicesRun (requests : List NoticeRequest) (s t : NoticeDB) : Prop where
  kept : ∀ token d, s.deviceTokens.lookup token = some d →
    ∃ d', t.deviceTokens.lookup token = some d' ∧ SameDevice d d' ∧
      (d'.pushNotiType = d.pushNotiType ∨ ∃ r ∈ requests, Names token d.userId r)
  new : ∀ token d', t.deviceTokens.lookup token = some d' →
    (∃ d, s.deviceTokens.lookup token = some d) ∨ ∃ r ∈ requests, Registers r token d'

lemma DeviceStep.run (h : DeviceStep r s t) (hr : r ∈ requests) : DevicesRun requests s t where
  kept token d hd := by
    obtain ⟨d', hd', hsame, hnames⟩ := h.kept token d hd
    exact ⟨d', hd', hsame, hnames.imp_right fun hnames => ⟨r, hr, hnames⟩⟩
  new token d' hd' := (h.new token d' hd').imp_right fun hreg => ⟨r, hr, hreg⟩

lemma devicesRun_refl (s : NoticeDB) : DevicesRun requests s s where
  kept _ d hd := ⟨d, hd, sameDevice_refl d, .inl rfl⟩
  new _ d hd := .inl ⟨d, hd⟩

lemma DevicesRun.trans (h : DevicesRun requests s t) (h' : DevicesRun requests t u) :
    DevicesRun requests s u where
  kept token d hd := by
    obtain ⟨d', hd', hsame, hpush⟩ := h.kept token d hd
    obtain ⟨d'', hd'', hsame', hpush'⟩ := h'.kept token d' hd'
    refine ⟨d'', hd'', hsame.trans hsame', ?_⟩
    rw [hsame.userId] at hpush'
    rcases hpush' with hpush' | hnames
    · rw [hpush']
      exact hpush
    · exact .inr hnames
  new token d'' hd'' := by
    rcases h'.new token d'' hd'' with ⟨d', hd'⟩ | hreg
    · rcases h.new token d' hd' with hold | ⟨r, hr, dto, heq, htoken, huser, hplatform⟩
      · exact .inl hold
      · obtain ⟨e, he, hsame, -⟩ := h'.kept token d' hd'
        rw [hd'', Option.some.injEq] at he
        subst he
        exact .inr ⟨r, hr, dto, heq, htoken, huser.trans hsame.userId.symm,
          hplatform.trans (congrArg some hsame.platform.symm)⟩
    · exact .inr hreg

lemma calls_devices (hother : OthersKeep SameDevices requests) :
    ∀ c ∈ noticeCalls cfg requests, c.Steps (DevicesRun requests) := by
  intro c hc
  obtain ⟨r, hr, rfl⟩ := List.mem_map.mp hc
  refine (call_steps fun c hc => hother c (hc ▸ hr)).mono fun _ _ h => ?_
  exact (step_devices h).run hr

/-- **A device keeps its user.** Whatever runs in between, no device is lost or passes to another
user or platform, only requests that name the device and its user switch it on or off, and only
registrations add one. -/
theorem devices_owned (hother : OthersKeep SameDevices requests)
    (sched : List (ℕ × NoticeInput)) :
    DevicesRun requests s (interleave s (noticeCalls cfg requests) sched).1 :=
  steps_between devicesRun_refl (fun _ _ _ => DevicesRun.trans) (calls_devices hother) sched 0

theorem devices_owned_sample : DevicesRun samplePool Sample.noticeDB
    (interleave Sample.noticeDB (noticeCalls Sample.noticeConfig samplePool) sampleSched).1 :=
  devices_owned sample_others sampleSched

/-- Whom the message of a push is for: an Android device of this user, which was there from the start
or has been registered by a request that names the user. -/
structure Addressed (requests : List NoticeRequest) (s t : NoticeDB) (userId : Id)
    (token : String) : Prop where
  owner : ∃ d, t.deviceTokens.lookup token = some d ∧ d.userId = userId ∧ d.platform = .android
  source : (∃ d, s.deviceTokens.lookup token = some d ∧ d.userId = userId ∧
      d.platform = .android) ∨
    ∃ r ∈ requests, ∃ dto, r = .registerPushNotification dto ∧ dto.token = token ∧
      dto.userId = userId ∧ parsePlatform dto.platform = some .android

variable {sched : List (ℕ × NoticeInput)} {job : PushNotificationJobData}

/-- A job was added before, or at a turn at which a call had found its device. -/
lemma added_before (hother : OthersKeep SamePushes requests) {j : ℕ}
    (hjob : job ∈ (before s (noticeCalls cfg requests) sched j).1.pushJobs) :
    job ∈ s.pushJobs ∨ ∃ n, ∃ r ∈ requests, pushOf r = some (job.userId, job.message) ∧
      ∃ device, (before s (noticeCalls cfg requests) sched n).1.deviceTokens.lookup job.token =
        some device ∧ device.userId = job.userId ∧ device.platform = .android := by
  obtain ⟨asked, hadded, hasked⟩ := @asked_run cfg s requests hother (sched.take j)
  have hmem : job ∈ added (interleave s (noticeCalls cfg requests) (sched.take j)).1 :=
    Multiset.mem_coe.mpr hjob
  rw [hadded] at hmem
  rcases Multiset.mem_add.mp hmem with hold | hnew
  · exact .inl (Multiset.mem_coe.mp hold)
  obtain ⟨k, hk, hjob⟩ := Multiset.mem_sum.mp hnew
  obtain ⟨r, hr⟩ : ∃ r, requests[k]? = some r :=
    ⟨_, List.getElem?_eq_getElem (Finset.mem_range.mp hk)⟩
  rcases hasked k _ hr with ⟨hzero, -⟩ | ⟨n, i, hn, userId, message, hpush, hjobs⟩
  · rw [hzero] at hjob
    cases Multiset.notMem_zero _ hjob
  obtain ⟨rfl, rfl, device, hlookup, huser, -, hplatform⟩ := (hjobs.mem_iff job).mp hjob
  have hlt : n < j := by
    have := (List.getElem?_eq_some_iff.mp hn).1
    rw [List.length_take] at this
    omega
  rw [before_take hlt.le] at hlookup
  exact .inr ⟨n, r, List.mem_of_getElem? hr, hpush, device, hlookup, huser, hplatform⟩

lemma addressed_of_device (hother : OthersKeep SameDevices requests) {n : ℕ} {d : DeviceToken}
    (hd : (before s (noticeCalls cfg requests) sched n).1.deviceTokens.lookup token = some d)
    (hplatform : d.platform = .android) :
    Addressed requests s (interleave s (noticeCalls cfg requests) sched).1 d.userId token := by
  have hcalls : ∀ c ∈ noticeCalls cfg requests, c.Steps (DevicesRun requests) :=
    calls_devices hother
  have hbefore : DevicesRun requests s (before s (noticeCalls cfg requests) sched n).1 :=
    steps_between devicesRun_refl (fun _ _ _ => DevicesRun.trans) hcalls (sched.take n) 0
  have hafter := steps_between devicesRun_refl (fun _ _ _ => DevicesRun.trans) hcalls sched n
    (s := s)
  constructor
  · obtain ⟨d', hd', hsame, -⟩ := hafter.kept token d hd
    exact ⟨d', hd', hsame.userId, hsame.platform.trans hplatform⟩
  · rcases hbefore.new token d hd with ⟨d₀, hd₀⟩ | ⟨r, hr, dto, rfl, htoken, hdto, hparse⟩
    · obtain ⟨d', hd', hsame, -⟩ := hbefore.kept token d₀ hd₀
      rw [hd, Option.some.injEq] at hd'
      subst hd'
      exact .inl ⟨d₀, hd₀, hsame.userId.symm, hsame.platform.symm.trans hplatform⟩
    · exact .inr ⟨_, hr, dto, rfl, htoken, hdto, hparse.trans (congrArg some hplatform)⟩

/-- **Pushes reach only the user they are for.** Whatever runs in between, each message Firebase
has confirmed was confirmed or queued before, or some request has asked for it on behalf of a user
whose Android device, then and now, it goes to. -/
theorem firebase_addressed (hpushes : OthersKeep SamePushes requests)
    (hdevices : OthersKeep SameDevices requests) (sched : List (ℕ × NoticeInput)) :
    ∀ m ∈ (interleave s (noticeCalls cfg requests) sched).1.firebase,
      m ∈ s.firebase ∨ (∃ job ∈ s.pushJobs, m.token = job.token ∧ m.message = job.message) ∨
        ∃ r ∈ requests, ∃ userId, pushOf r = some (userId, m.message) ∧
          Addressed requests s (interleave s (noticeCalls cfg requests) sched).1 userId
            m.token := by
  intro m hm
  obtain ⟨sent, hconfirmed, hsent⟩ := @sent_run cfg s requests hpushes sched
  have hmem : m ∈ confirmed (interleave s (noticeCalls cfg requests) sched).1 :=
    Multiset.mem_coe.mpr hm
  rw [hconfirmed] at hmem
  rcases Multiset.mem_add.mp hmem with hold | hnew
  · exact .inl (Multiset.mem_coe.mp hold)
  obtain ⟨k, hk, hm⟩ := Multiset.mem_sum.mp hnew
  obtain ⟨r, hr⟩ : ∃ r, requests[k]? = some r :=
    ⟨_, List.getElem?_eq_getElem (Finset.mem_range.mp hk)⟩
  rcases hsent k _ hr with ⟨hzero, -⟩ | ⟨n, i, hn, l, job, -, ⟨e, he, hjob⟩, hmessage⟩
  · rw [hzero] at hm
    cases Multiset.notMem_zero _ hm
  rw [hmessage, Multiset.mem_singleton] at hm
  subst hm
  -- the job was there at some turn of the attempt
  obtain ⟨j, hj⟩ : ∃ j, job ∈ (before s (noticeCalls cfg requests) sched j).1.pushJobs := by
    rcases List.mem_cons.mp he with rfl | he
    · exact ⟨n, List.mem_of_getElem? hjob⟩
    · obtain ⟨j, -, -, heq⟩ := mem_pastOf he
      exact ⟨j, heq ▸ List.mem_of_getElem? hjob⟩
  rcases added_before hpushes hj with hold | ⟨j', r', hr', hpush, d, hd, huser, hplatform⟩
  · exact .inr (.inl ⟨job, hold, rfl, rfl⟩)
  · exact .inr (.inr ⟨r', hr', job.userId, hpush, huser ▸ addressed_of_device hdevices hd hplatform⟩)

def sampleMessage : FirebaseMessage :=
  ⟨"on", ⟨"TSA", "welcome"⟩, "default", "@tsa/app", "@tsa/app"⟩

theorem firebase_addressed_sample :
    sampleMessage ∈ Sample.noticeDB.firebase ∨
      (∃ job ∈ Sample.noticeDB.pushJobs, sampleMessage.token = job.token ∧
        sampleMessage.message = job.message) ∨
      ∃ r ∈ samplePool, ∃ userId, pushOf r = some (userId, sampleMessage.message) ∧
        Addressed samplePool Sample.noticeDB (interleave Sample.noticeDB
          (noticeCalls Sample.noticeConfig samplePool) sampleSched).1 userId sampleMessage.token :=
  firebase_addressed sample_others sample_others sampleSched sampleMessage (by decide +kernel)

end TsaBackend.Devices
