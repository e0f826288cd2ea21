import TsaBackend.OrderFlow

/-!
The images of an order along runs of `updateStatus`.

The received image is asked for when the parcel is received and written by every later call that
brings one, so that a handover may come with an empty one.
-/

namespace TsaBackend.DeliveryProof

open Call OrderEffects OrderFlow

variable {E : Input → Prop} {cfg : Config} {user : GetUserType} {s t : DB} {id j : Id}
  {o o' : Order} {dto : UpdateStatusDto}

/-- The order passes the checks of this change. -/
structure Changes (o : Order) (dto : UpdateStatusDto) : Prop where
  valid : isValidTransition o.latestStatus dto.status = true
  receivedImage : dto.status = .receivedExternal → dto.receivedImage.truthy = true
  finishedImage : dto.status = .delivered → dto.finishedImage.truthy = true
  fits : ImagesFit o dto.canceledImage dto.finishedImage

/-- Status and images are the same. -/
structure SameImages (o o' : Order) : Prop where
  status : o'.latestStatus = o.latestStatus
  finishedImage : o'.finishedImage = o.finishedImage
  receivedImage : o'.receivedImage = o.receivedImage

/-- Status and images are those of the change. -/
structure Changed (o : Order) (dto : UpdateStatusDto) (o' : Order) : Prop where
  status : o'.latestStatus = some dto.status
  finishedImage : o'.finishedImage = dto.finishedImage.patch o.finishedImage
  receivedImage : o'.receivedImage = dto.receivedImage.patch o.receivedImage

lemma SameImages.refl (o : Order) : SameImages o o := ⟨rfl, rfl, rfl⟩

lemma paid_same {s₁ : DB} (j : Id) (p : Order) (dto : UpdateStatusDto) (user : GetUserType)
    (hs₁ : s₁.orders = s.orders)
    (ho : s.orders.lookup id = some o) :
    ∃ o₁, (paid j p dto user s₁).orders.lookup id = some o₁ ∧ SameImages o o₁ := by
  rw [lookup_paid, hs₁, ho]
  split
  · exact ⟨payCash o, rfl, rfl, rfl, rfl⟩
  · exact ⟨o, rfl, .refl o⟩

lemma recorded_changed {s₁ : DB} {i : Input} (ho : s.orders.lookup id = some o)
    (hs₁ : Passed cfg o dto user s s₁) :
    ∃ o', (recorded i id dto (paid id o dto user s₁)).orders.lookup id = some o' ∧
      Changed o dto o' := by
  obtain ⟨o₁, ho₁, hsame⟩ := paid_same id o dto user
    (passed_orders hs₁).1 ho
  rw [recorded, lookup_logged, if_pos rfl, ho₁]
  refine ⟨_, rfl, rfl, ?_, ?_⟩
  · rw [← hsame.finishedImage]
    rfl
  · rw [← hsame.receivedImage]
    rfl

/-- **What a call of `updateStatus` does to an order**: when it returns it has changed the order it
is about, when it throws none. -/
theorem updateStatus_images (ho : s.orders.lookup id = some o) :
    (updateStatus cfg j dto user).wp E Any
      (fun _ t => ∃ o', t.orders.lookup id = some o' ∧
        if j = id then Changes o dto ∧ Changed o dto o' else SameImages o o')
      (fun _ t => ∃ o', t.orders.lookup id = some o' ∧ SameImages o o') s := by
  rcases hj : s.orders.lookup j with _ | p
  · refine wp_mono (updateStatus_wp_none hj) (fun _ _ h => h.elim) fun _ t ht => ?_
    rw [ht]
    exact ⟨o, ho, .refl o⟩
  refine wp_mono (updateStatus_wp hj) (fun _ t ht => ?_) fun _ t ht => ?_
  · obtain ⟨s₁, i, hs₁, -, hfit, rfl⟩ := ht
    by_cases hid : j = id
    · subst hid
      obtain rfl := Option.some.inj (hj.symm.trans ho)
      obtain ⟨o', ho', hchanged⟩ := recorded_changed (i := i) hj hs₁
      refine ⟨o', ho', ?_⟩
      rw [if_pos rfl]
      exact ⟨⟨hs₁.valid, hs₁.receivedImage, hs₁.finishedImage, hfit⟩, hchanged⟩
    · obtain ⟨o₁, ho₁, hsame⟩ := paid_same j p dto user
        (passed_orders hs₁).1 ho
      refine ⟨o₁, ?_, by rwa [if_neg hid]⟩
      rw [recorded, lookup_logged, if_neg (Ne.symm hid), ho₁]
  · rcases ht with ⟨rfl, _⟩ | ⟨s₁, hs₁, _, rfl⟩
    · exact ⟨o, ho, .refl o⟩
    · exact paid_same j p dto user (passed_orders hs₁).1 ho

/-- An order that is delivered has both images. -/
def Proved (o : Order) : Prop :=
  o.latestStatus = some .delivered → truthy o.finishedImage = true ∧ truthy o.receivedImage = true

/-- The order is there, and has them if it is delivered. -/
def OrderProved (id : Id) (s : DB) : Prop := ∃ o, s.orders.lookup id = some o ∧ Proved o

instance (o : Order) : Decidable (Proved o) := inferInstanceAs (Decidable (_ → _))

/-- The call can hand over the order, with its received image empty or missing. -/
structure BlankHandover (id : Id) (s : DB) (j : Id) (dto : UpdateStatusDto) : Prop where
  order : j = id
  status : dto.status = .delivered
  finishedImage : dto.finishedImage.truthy = true
  blank : ∃ o, s.orders.lookup id = some o ∧ o.latestStatus = some .inTransport ∧
    ImagesFit o dto.canceledImage dto.finishedImage ∧
    truthy (dto.receivedImage.patch o.receivedImage) = false

lemma truthy_patch {a : Arg String} (h : a.truthy = true) (x : Option String) :
    truthy (a.patch x) = true := by
  rcases a with _ | _ | v
  · cases h
  · cases h
  · exact h

lemma SameImages.proved (h : SameImages o o') (hp : Proved o) : Proved o' := by
  intro hst
  rw [h.finishedImage, h.receivedImage]
  exact hp (h.status ▸ hst)

lemma Changes.from_only {st src : OrderStatus} (h : Changes o dto) (hst : dto.status = st)
    (honly : ∀ x, st ∈ validTransitions x → x = src) : o.latestStatus = some src := by
  have hvalid := h.valid
  rw [hst] at hvalid
  rcases hl : o.latestStatus with _ | x
  · simp [hl, isValidTransition] at hvalid
  · rw [hl, isValidTransition, decide_eq_true_iff] at hvalid
    rw [honly x hvalid]

lemma Changes.in_transport (h : Changes o dto) (hst : dto.status = .delivered) :
    o.latestStatus = some .inTransport :=
  h.from_only hst fun x => by cases x <;> decide

lemma Changed.proved (h : Changed o dto o') (hchanges : Changes o dto)
    (hreceived : dto.status = .delivered →
      truthy (dto.receivedImage.patch o.receivedImage) = true) :
    Proved o' := by
  intro hst
  have hd : dto.status = .delivered := Option.some.inj (h.status.symm.trans hst)
  rw [h.finishedImage, h.receivedImage]
  exact ⟨truthy_patch (hchanges.finishedImage hd) _, hreceived hd⟩

lemma BlankHandover.reached (h : BlankHandover id s j dto) :
    ¬ Ends (updateStatus cfg j dto user) s (OrderProved id) := by
  intro hends
  obtain ⟨o, ho, hst, hfit, hblank⟩ := h.blank
  obtain rfl := h.order
  have hcharges : ¬ charges dto := by simp [charges, h.status]
  have hpassed : Passed cfg o dto user s s := by
    refine ⟨by simp [h.status], fun _ => h.finishedImage, by simp [h.status], by simp [h.status],
      by simp [h.status], by rw [if_neg hcharges], ?_⟩
    rw [hst, h.status]
    rfl
  have hrecord : (updateStatus cfg j dto user).wp (fun i => i.ok = true) Any
      (fun _ t => ∃ o', t.orders.lookup j = some o' ∧ Changed o dto o')
      (fun _ _ => False) s := by
    refine wp_mono (updateStatus_wp ho) (fun _ t ht => ?_) fun _ t ht => ?_
    · obtain ⟨s₁, i, hs₁, -, -, rfl⟩ := ht
      exact recorded_changed ho hs₁
    · rcases ht with ⟨-, hno⟩ | ⟨_, _, ⟨i, hi, hstop, -⟩ | ⟨-, hlong⟩, _⟩
      · exact hno s hpassed
      · rw [hi] at hstop
        cases hstop
      · exact hlong hfit
  rcases wp_meet (ends_iff.mp hends) hrecord ⟨{ (default : Input) with ok := true }, trivial, rfl⟩
    with ⟨_, t, ⟨o₁, ho₁, hproved⟩, o', ho', hchanged⟩ | ⟨_, _, _, hno⟩
  · obtain rfl := Option.some.inj (ho₁.symm.trans ho')
    have himages := hproved (by rw [hchanged.status, h.status])
    rw [hchanged.receivedImage, hblank] at himages
    cases himages.2
  · exact hno

/-- The step: a call keeps the proof of an order exactly when it is no blank handover. -/
lemma ends_proved_iff (hs : OrderProved id s) :
    Ends (updateStatus cfg j dto user) s (OrderProved id) ↔ ¬ BlankHandover id s j dto := by
  obtain ⟨o, ho, hp⟩ := hs
  refine ⟨fun h hblank => hblank.reached h, fun hno => ends_of_wp ?_⟩
  refine wp_mono (updateStatus_images ho) (fun _ t ht => ?_) fun _ t ht => ?_
  · obtain ⟨o', ho', h⟩ := ht
    refine ⟨o', ho', ?_⟩
    split at h
    · next hid =>
      refine h.2.proved h.1 fun hd => ?_
      by_contra hblank
      exact hno ⟨hid, hd, h.1.finishedImage hd, o, ho, h.1.in_transport hd, h.1.fits,
        by simpa using hblank⟩
    · exact h.proved hp
  · obtain ⟨o', ho', h⟩ := ht
    exact ⟨o', ho', h.proved hp⟩

/-! ### Runs -/

/-- A call of `updateStatus` on some order. -/
def change (cfg : Config) (s : DB) (e : Id × StatusCall) : DB := callStatus cfg e.1 s e.2

/-- Received parcels on their way have their received image, delivered ones both. -/
structure Kept (o : Order) : Prop where
  proved : Proved o
  received : o.latestStatus = some .receivedExternal ∨ o.latestStatus = some .inTransport →
    truthy o.receivedImage = true

/-- The order is there, and its images are kept. -/
def OrderKept (id : Id) (s : DB) : Prop := ∃ o, s.orders.lookup id = some o ∧ Kept o

/-- A received image that is sent, but empty or `null`. -/
def Blank (a : Arg String) : Prop := a = .null ∨ a = .val ""

/-- The call is no change to `IN_TRANSPORT` or `DELIVERED` that blanks the received image. -/
def Harmless (id : Id) (e : Id × StatusCall) : Prop :=
  e.1 = id → e.2.dto.status = .inTransport ∨ e.2.dto.status = .delivered →
    ¬ Blank e.2.dto.receivedImage

lemma truthy_patch_of_not_blank {a : Arg String} {x : Option String} (ha : ¬ Blank a)
    (hx : truthy x = true) : truthy (a.patch x) = true := by
  rcases a with _ | _ | v
  · exact hx
  · exact absurd (.inl rfl) ha
  · have hv : v ≠ "" := by
      rintro rfl
      exact ha (.inr rfl)
    simpa [Arg.patch, truthy] using hv

lemma SameImages.kept (h : SameImages o o') (hk : Kept o) : Kept o' where
  proved := h.proved hk.proved
  received hst := by
    rw [h.receivedImage]
    exact hk.received (by rwa [h.status] at hst)

lemma Changes.received (h : Changes o dto) (hst : dto.status = .inTransport) :
    o.latestStatus = some .receivedExternal :=
  h.from_only hst fun x => by cases x <;> decide

lemma Changed.kept (h : Changed o dto o') (hchanges : Changes o dto) (hk : Kept o)
    (hblank : dto.status = .inTransport ∨ dto.status = .delivered → ¬ Blank dto.receivedImage) :
    Kept o' where
  proved := h.proved hchanges fun hd =>
    truthy_patch_of_not_blank (hblank (.inr hd)) (hk.received (.inr (hchanges.in_transport hd)))
  received hst := by
    rw [h.status, Option.some.injEq, Option.some.injEq] at hst
    rw [h.receivedImage]
    rcases hst with hst | hst
    · exact truthy_patch (hchanges.receivedImage hst) _
    · exact truthy_patch_of_not_blank (hblank (.inl hst))
        (hk.received (.inl (hchanges.received hst)))

lemma change_kept {e : Id × StatusCall} (hk : OrderKept id s) (he : Harmless id e) :
    OrderKept id (change cfg s e) := by
  obtain ⟨o, ho, hk⟩ := hk
  have hends : Ends (updateStatus cfg e.1 e.2.dto e.2.user) s (OrderKept id) := by
    refine ends_of_wp ?_
    refine wp_mono (updateStatus_images ho) (fun _ t ht => ?_) fun _ t ht => ?_
    · obtain ⟨o', ho', h⟩ := ht
      refine ⟨o', ho', ?_⟩
      split at h
      · next hid => exact h.2.kept h.1 hk (he hid)
      · exact h.kept hk
    · obtain ⟨o', ho', h⟩ := ht
      exact ⟨o', ho', h.kept hk⟩
  exact hends e.2.inputs

/-- **The proof of a delivery**: along the calls of any users on any orders, a new order keeps
having both images when it is delivered exactly as long as no call hands it over without its
received image; and it has them if no call that takes it on its way or hands it over blanks that
image. -/
theorem delivery_proved_iff (cfg : Config) (id : Id) (s : DB) (o : Order)
    (ho : s.orders.lookup id = some o) (hst : o.latestStatus = some .pending)
    (es : List (Id × StatusCall)) :
    ((Machine.Along (change cfg) (fun s e => ¬ BlankHandover id s e.1 e.2.dto) s es →
        OrderProved id (Machine.run (change cfg) s es)) ∧
      (Machine.Along (change cfg) (fun s e =>
          Ends (updateStatus cfg e.1 e.2.dto e.2.user) s (OrderProved id)) s es ↔
        Machine.Along (change cfg) (fun s e => ¬ BlankHandover id s e.1 e.2.dto) s es)) ∧
    ((∀ e ∈ es, Harmless id e) → OrderProved id (Machine.run (change cfg) s es)) := by
  have hproved : Proved o := fun h => by simp [hst] at h
  refine ⟨Machine.inv_along_iff (OrderProved id) (fun s e h => h e.2.inputs)
    (fun s e _ hs => ends_proved_iff hs) ⟨o, ho, hproved⟩, fun hharmless => ?_⟩
  have hkept : OrderKept id s := ⟨o, ho, hproved, fun h => by simp [hst] at h⟩
  have hrun : OrderKept id (Machine.run (change cfg) s es) :=
    Machine.run_inv (OrderKept id) (fun s e hk he => change_kept hk he) hkept
      (Machine.along_of_forall (P := fun _ e => Harmless id e) fun e he _ => hharmless e he)
  obtain ⟨o', ho', hk⟩ := hrun
  exact ⟨o', ho', hk.proved⟩

/-- The way of a parcel to its handover, which brings a picture and `receivedImage`. -/
def handover (receivedImage : Arg String) : List (Id × StatusCall) :=
  [(10, ⟨.only .accepted, Sample.admin, Sample.inputs 0⟩),
   (10, ⟨{ UpdateStatusDto.only .receivedExternal with receivedImage := .val "r.png" },
    Sample.staff, Sample.inputs 0⟩),
   (10, ⟨.only .inTransport, Sample.staff, Sample.inputs 0⟩),
   (10, ⟨{ UpdateStatusDto.only .delivered with finishedImage := .val "f.png", receivedImage },
    Sample.staff, Sample.inputs 0⟩)]

theorem delivery_proved_handover :
    OrderProved 10 (Machine.run (change Sample.config) Sample.dbWithOrder (handover .undefined)) :=
  (delivery_proved_iff Sample.config 10 Sample.dbWithOrder Sample.order (by decide) (by decide)
    (handover .undefined)).2 (by
      intro e he _ _
      simp only [handover, List.mem_cons, List.not_mem_nil, or_false] at he
      rcases he with rfl | rfl | rfl | rfl <;> simp_all [Blank, UpdateStatusDto.only])

/-- An empty text at the handover takes the received image away. -/
theorem delivery_unproved : ¬ OrderProved 10
    (Machine.run (change Sample.config) Sample.dbWithOrder (handover (.val ""))) := by
  have hrow : ∀ o, (Machine.run (change Sample.config) Sample.dbWithOrder
      (handover (.val ""))).orders.lookup 10 = some o →
      o.latestStatus = some .delivered ∧ o.receivedImage = some "" := by
    decide +kernel
  rintro ⟨o, ho, hp⟩
  obtain ⟨hst, himage⟩ := hrow o ho
  have himages := hp hst
  rw [himage] at himages
  cases himages.2

end TsaBackend.DeliveryProof
