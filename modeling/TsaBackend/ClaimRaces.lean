import TsaBackend.ParcelRaces

/-!
Students that claim one order at the same time: the order is written over by whoever comes
last, and only the acceptance that follows looks at its status.
-/

namespace TsaBackend.ClaimRaces

open Call OrderEffects OrderWrites RequestSteps ParcelRaces

variable {cfg : Config} {dto : CreateOrderDto} {user : GetUserType} {s t : DB} {id : Id}
  {o o₀ : Order} {p q : Bool}

/-- The lookup of a creation finds the order `id` and no other. -/
structure Finds (dto : CreateOrderDto) (id : Id) (s : DB) : Prop where
  mem : id ∈ s.orders
  only : ∀ j o, s.orders.lookup j = some o →
    (existingOrder dto.checkCode dto.brand j o = true ↔ j = id)

lemma existingOrder_congr {j : Id} (h : (o.checkCode, o.brand) = (o₀.checkCode, o₀.brand)) :
    existingOrder dto.checkCode dto.brand j o = existingOrder dto.checkCode dto.brand j o₀ := by
  rw [Prod.mk.injEq] at h
  simp only [existingOrder, h.1, h.2]

lemma Finds.same (h : Finds dto id s) (hst : SameParcels s t) : Finds dto id t := by
  have hlookup : ∀ j o, t.orders.lookup j = some o → ∃ o', s.orders.lookup j = some o' ∧
      (o'.checkCode, o'.brand) = (o.checkCode, o.brand) := by
    intro j o ho
    have hj := hst j
    rw [parcelOf, ho, Option.map_some] at hj
    exact Option.map_eq_some_iff.mp hj.symm
  constructor
  · have hid := hst id
    obtain ⟨o, ho⟩ := Table.mem_iff_lookup.mp h.mem
    rw [parcelOf, parcelOf, ho, Option.map_some] at hid
    obtain ⟨o', ho', -⟩ := Option.map_eq_some_iff.mp hid
    exact Table.mem_iff_lookup.mpr ⟨o', ho'⟩
  · intro j o ho
    obtain ⟨o', ho', heq⟩ := hlookup j o ho
    rw [← existingOrder_congr heq]
    exact h.only j o' ho'

/-- What a claim decides about an order. -/
def terms (o : Order) : Option Id × Option Money × Option Money × Option String ×
    Option String × Option String × Option Dormitory :=
  (o.studentId, o.shippingFee, o.remainingAmount, o.deliveryDate, o.room, o.building, o.dormitory)

/-- A step of a creation that finds the order, before and after it has claimed it. -/
inductive ClaimStep (cfg : Config) (dto : CreateOrderDto) (user : GetUserType) (id : Id) :
    Bool → DB → DB → Bool → Prop
  | keep {p : Bool} {s : DB} : ClaimStep cfg dto user id p s s p
  | claim {s : DB} : ClaimStep cfg dto user id false s (claimed cfg dto user id s) true
  | log {s : DB} (i : Input) : ClaimStep cfg dto user id true s
      (logged i id .accepted none .undefined .undefined .undefined s) true

lemma ClaimStep.same (h : ClaimStep cfg dto user id p s t q) : SameParcels s t := by
  cases h with
  | keep => exact fun _ => rfl
  | claim => exact sameParcels_modify fun _ => ⟨rfl, rfl⟩
  | log => exact sameParcels_modify fun _ => ⟨rfl, rfl⟩

/-- After its claim a creation only accepts the order. -/
lemma claimOrder_follows {X : Bool → Exn → Prop} (hX : ∀ p e, X p e) :
    (claimOrder cfg dto user id o).Follows (fun _ _ s => Finds dto id s)
      (ClaimStep cfg dto user id) (fun p _ => p = true) X false := by
  have hkeep : ∀ s, ClaimStep cfg dto user id true s s true := fun _ => .keep
  have haccept : (updateStatus cfg id (.only .accepted) user).Steps
      fun s t => ClaimStep cfg dto user id true s t true :=
    steps_updateStatus hkeep (fun h => by cases h.1) (fun h => by cases h) fun i _ _ => .log i
  have hlog : (createOrderStatusHistory id .accepted none .undefined .undefined .undefined).Steps
      fun s t => ClaimStep cfg dto user id true s t true :=
    steps_createOrderStatusHistory hkeep fun i _ _ => .log i
  unfold claimOrder
  refine Follows.bind (follows_atomic (fun i s _ t _ h => ?_) fun _ _ e _ _ =>
    ⟨false, .keep, hX _ e⟩)
  obtain ⟨_, _, _, rfl⟩ := DB.updateOrderData_ok (of_map_ok h)
  refine ⟨true, .claim, haccept.follows_bind (hX _) fun _ => ?_⟩
  refine hlog.follows_bind (hX _) fun _ => ?_
  refine (steps_read _ hkeep).follows_bind (hX _) fun _ => ?_
  refine (steps_read _ hkeep).follows_bind (hX _) fun _ => ?_
  exact rfl

/-- **A creation of a student that finds an order returns only after a claim.** -/
lemma createOrder_follows (hrole : user.role = .student) :
    (createOrder cfg dto user).Follows (fun _ _ s => Finds dto id s)
      (ClaimStep cfg dto user id) (fun p _ => p = true) (fun _ _ => True) false := by
  have hkeep : ∀ s, ClaimStep cfg dto user id false s s false := fun _ => .keep
  rw [createOrder, if_pos hrole]
  unfold createOrderByStudent
  have hvalid : (validateUserForOrder user dto .student).Steps
      fun s t => ClaimStep cfg dto user id false s t false :=
    Steps.ite (fun _ => steps_throw _) fun _ => steps_pure _
  refine hvalid.follows_bind (fun _ => trivial) fun _ => ?_
  refine (steps_read _ hkeep).follows_bind (fun _ => trivial) fun fullUser => ?_
  rcases fullUser with _ | fullUser
  · exact trivial
  refine (steps_throwIf _ _).follows_bind (fun _ => trivial) fun _ => ?_
  refine (steps_read _ hkeep).follows_bind (fun _ => trivial) fun now => ?_
  refine (steps_throwIf _ _).follows_bind (fun _ => trivial) fun _ => ?_
  unfold placeOrder
  unfold findExistingOrder
  split
  · exact trivial
  refine follows_read fun i s hs => ⟨false, .keep, ?_⟩
  rcases hfound : s.orders.findFirst i.pick (existingOrder dto.checkCode dto.brand) with
    _ | ⟨j, existing⟩
  · -- the lookup cannot miss the order
    obtain ⟨o, ho⟩ := Table.mem_iff_lookup.mp hs.mem
    have hmiss := Table.findFirst_none.mp hfound id o ho
    rw [(hs.only id o ho).mpr rfl] at hmiss
    cases hmiss
  · obtain ⟨ho, hmatch⟩ := Table.findFirst_some hfound
    obtain rfl := (hs.only j existing ho).mp hmatch
    dsimp only
    split
    · exact claimOrder_follows fun _ _ => trivial
    · split <;> exact trivial

/-! ### Claims that race -/

variable {reqs : List (CreateOrderDto × GetUserType)} {ph : ℕ → Bool}

/-- A step that changes the student of the order finds it without one. -/
def Unowned (id : Id) (x : DB × List (Async CreateOrderResponse)) (e : ℕ × Input) : Prop :=
  ((poolStep x e).1.orders.lookup id).map (·.studentId) ≠
    (x.1.orders.lookup id).map (·.studentId) →
  ∀ o ∈ x.1.orders.lookup id, o.studentId = none

instance (id : Id) (x : DB × List (Async CreateOrderResponse)) (e : ℕ × Input) :
    Decidable (Unowned id x e) := by
  unfold Unowned; infer_instance

/-- The creations of a pool are before or after their claims. -/
abbrev Claiming (cfg : Config) (reqs : List (CreateOrderDto × GetUserType)) (id : Id)
    (cs : List (Async CreateOrderResponse)) (ph : ℕ → Bool) : Prop :=
  Phases (fun _ _ s => ∀ r ∈ reqs, Finds r.1 id s)
    (fun k p s t q => ∃ r, reqs[k]? = some r ∧ ClaimStep cfg r.1 r.2 id p s t q)
    (fun _ p _ => p = true) (fun _ _ _ => True) cs ph

lemma claiming_init (hroles : ∀ r ∈ reqs, r.2.role = .student) :
    Claiming cfg reqs id (creations cfg reqs) fun _ => false := by
  intro k c hc
  rw [creations, List.getElem?_map] at hc
  obtain ⟨r, hr, rfl⟩ := Option.map_eq_some_iff.mp hc
  have hmem : r ∈ reqs := List.mem_of_getElem? hr
  exact (createOrder_follows (hroles r hmem)).mono (fun _ _ s hs => hs r hmem)
    (fun p s t q h => ⟨r, hr, h⟩) (fun _ _ h => h) fun _ _ h => h

/-- Nobody has claimed the order, or one call has and the order is as it asked. -/
def Held (cfg : Config) (reqs : List (CreateOrderDto × GetUserType)) (id : Id) (o₀ : Order)
    (ph : ℕ → Bool) (s : DB) : Prop :=
  ∃ o, s.orders.lookup id = some o ∧ ((∀ k, ph k = false) ∧ terms o = terms o₀ ∨
    ∃ k r, reqs[k]? = some r ∧ (∀ j, ph j = true ↔ j = k) ∧
      terms o = terms (claim cfg r.1 r.2 o₀))

lemma terms_claim (h : terms o = terms o₀) :
    terms (claim cfg dto user o) = terms (claim cfg dto user o₀) := by
  simp only [terms, Prod.mk.injEq] at h
  obtain ⟨-, -, -, -, hroom, hbuilding, hdormitory⟩ := h
  simp only [terms, claim, hroom, hbuilding, hdormitory]

lemma Held.claim {k : ℕ} {r : CreateOrderDto × GetUserType} (h : Held cfg reqs id o₀ ph s)
    (hr : reqs[k]? = some r) (hids : (reqs.map (·.2.id)).Nodup) (hk : ph k = false)
    (hfree : ((claimed cfg r.1 r.2 id s).orders.lookup id).map (·.studentId) ≠
      (s.orders.lookup id).map (·.studentId) → ∀ o ∈ s.orders.lookup id, o.studentId = none) :
    Held cfg reqs id o₀ (Function.update ph k true) (claimed cfg r.1 r.2 id s) := by
  obtain ⟨o, ho, hnone | ⟨j, r', hr', hj, hterms⟩⟩ := h
  · refine ⟨TsaBackend.claim cfg r.1 r.2 o, by simp [claimed, ho], .inr ⟨k, r, hr, ?_, ?_⟩⟩
    · intro j
      by_cases hjk : j = k
      · simp [hjk]
      · simp [hnone.1 j, hjk]
    · exact terms_claim hnone.2
  · -- the order has the student of the call that claimed it
    have hst : o.studentId = some r'.2.id := congrArg Prod.fst hterms
    have hne : r.2.id ≠ r'.2.id := by
      intro heq
      have hkj : k = j := position_unique hids hr hr' heq
      rw [(hj k).mpr hkj] at hk
      cases hk
    have hnew : (claimed cfg r.1 r.2 id s).orders.lookup id =
        some (TsaBackend.claim cfg r.1 r.2 o) := by simp [claimed, ho]
    have hchanged : ((claimed cfg r.1 r.2 id s).orders.lookup id).map (·.studentId) ≠
        (s.orders.lookup id).map (·.studentId) := by
      rw [hnew, ho]
      simp [TsaBackend.claim, hst, hne]
    have hno := hfree hchanged o (by simp [ho])
    rw [hst] at hno
    cases hno

lemma Held.log {i : Input} (h : Held cfg reqs id o₀ ph s) : Held cfg reqs id o₀ ph
    (logged i id .accepted none .undefined .undefined .undefined s) := by
  obtain ⟨o, ho, hown⟩ := h
  refine ⟨setStatus .accepted .undefined .undefined o, ?_, hown⟩
  rw [lookup_logged, if_pos rfl, ho]
  rfl

/-- The calls of a pool and the order they want to claim. -/
def ClaimInv (cfg : Config) (reqs : List (CreateOrderDto × GetUserType)) (id : Id) (o₀ : Order)
    (x : DB × List (Async CreateOrderResponse)) : Prop :=
  ∃ ph, (∀ r ∈ reqs, Finds r.1 id x.1) ∧ Claiming cfg reqs id x.2 ph ∧ Held cfg reqs id o₀ ph x.1

lemma ClaimInv.step {x : DB × List (Async CreateOrderResponse)} {e : ℕ × Input}
    (hids : (reqs.map (·.2.id)).Nodup) (h : ClaimInv cfg reqs id o₀ x) (he : Unowned id x e) :
    ClaimInv cfg reqs id o₀ (poolStep x e) := by
  obtain ⟨ph, hfinds, hphases, hheld⟩ := h
  rcases hphases.step fun _ => hfinds with ⟨-, hstay⟩ | ⟨-, q, ⟨r, hr, hstep⟩, hphases'⟩
  · rw [hstay]
    exact ⟨ph, hfinds, hphases, hheld⟩
  refine ⟨_, fun r' hr' => (hfinds r' hr').same hstep.same, hphases', ?_⟩
  rw [Unowned] at he
  generalize hp : ph e.1 = p at hstep
  generalize (poolStep x e).1 = t at hstep he
  cases hstep with
  | keep =>
    rw [← hp, Function.update_eq_self]
    exact hheld
  | claim => exact hheld.claim hr hids hp he
  | log i =>
    rw [← hp, Function.update_eq_self]
    exact hheld.log

/-- **When a claim has one winner**: in any interleaving of the creations of different students
that find one unclaimed order, in which no claim overwrites another one, at most one call
returns, and the order is then as its caller asked. -/
theorem claim_has_one_winner (cfg : Config) (s : DB) (id : Id) (o₀ : Order)
    (ho : s.orders.lookup id = some o₀) (reqs : List (CreateOrderDto × GetUserType))
    (hroles : ∀ r ∈ reqs, r.2.role = .student) (hids : (reqs.map (·.2.id)).Nodup)
    (hfinds : ∀ r ∈ reqs, Finds r.1 id s) (sched : List (ℕ × Input))
    (h : Machine.Along poolStep (Unowned id) (s, creations cfg reqs) sched) :
    let x := interleave s (creations cfg reqs) sched
    (∀ j k, Returned x j → Returned x k → j = k) ∧
      ∀ k r, Returned x k → reqs[k]? = some r →
        ∃ o, x.1.orders.lookup id = some o ∧ terms o = terms (claim cfg r.1 r.2 o₀) := by
  intro x
  have hinit : ClaimInv cfg reqs id o₀ (s, creations cfg reqs) :=
    ⟨fun _ => false, hfinds, claiming_init hroles, o₀, ho, .inl ⟨fun _ => rfl, rfl⟩⟩
  obtain ⟨ph, -, hphases, o, ho', hown⟩ : ClaimInv cfg reqs id o₀ x :=
    Machine.run_inv _ (fun x e => ClaimInv.step hids) hinit h
  have hclaimed : ∀ k, Returned x k → ph k = true := by
    intro k hk
    obtain ⟨a, ha⟩ := returned_iff.mp hk
    exact hphases k _ ha
  rcases hown with ⟨hnone, -⟩ | ⟨k₀, r₀, hr₀, hk₀, hterms⟩
  · have hfalse : ∀ k, ¬ Returned x k := by
      intro k hk
      have hph := hclaimed k hk
      rw [hnone k] at hph
      cases hph
    exact ⟨fun j _ hj => absurd hj (hfalse j), fun k _ hk => absurd hk (hfalse k)⟩
  · constructor
    · intro j k hj hk
      rw [(hk₀ j).mp (hclaimed j hj), (hk₀ k).mp (hclaimed k hk)]
    · intro k r hk hr
      obtain rfl := (hk₀ k).mp (hclaimed k hk)
      obtain rfl : r₀ = r := Option.some.inj (hr₀.symm.trans hr)
      exact ⟨o, ho', hterms⟩

/-- An order as an administrator registers it. -/
def registeredOrder : Order := { Sample.order with
  studentId := none
  checkCode := "SPX1"
  shippingFee := none
  remainingAmount := none
  paymentMethod := none }

def registeredDb : DB := { Sample.dbWithOrder with orders := AList.insert 10 registeredOrder ∅ }

def twoClaims : List (CreateOrderDto × GetUserType) :=
  [({ Sample.body with room := .val "101" }, Sample.student),
   ({ Sample.body with room := .val "709" }, Sample.otherStudent)]

lemma twoClaims_students : ∀ r ∈ twoClaims, r.2.role = .student := by decide

lemma twoClaims_differ : (twoClaims.map (·.2.id)).Nodup := by decide

lemma twoClaims_find : ∀ r ∈ twoClaims, Finds r.1 10 registeredDb := by
  intro r hr
  refine ⟨by decide, fun j o ho => ?_⟩
  have hrow : j = 10 ∧ registeredOrder = o := by
    by_cases hj : j = 10
    · subst hj
      exact ⟨rfl, Option.some.inj ho⟩
    · rw [show registeredDb.orders = AList.insert 10 registeredOrder ∅ from rfl,
        AList.lookup_insert_ne hj] at ho
      cases ho
  obtain ⟨rfl, rfl⟩ := hrow
  refine iff_of_true ?_ rfl
  simp only [twoClaims, List.mem_cons, List.not_mem_nil, or_false] at hr
  rcases hr with rfl | rfl <;> rfl

/-- One claim after the other. -/
theorem claim_has_one_winner_serial :
    let x := interleave registeredDb (creations Sample.config twoClaims)
      (turns 0 10 0 ++ turns 1 10 0)
    Returned x 0 ∧ ∀ k, Returned x k → k = 0 := by
  intro x
  have hwin := (claim_has_one_winner Sample.config registeredDb 10 registeredOrder rfl twoClaims
    twoClaims_students twoClaims_differ twoClaims_find (turns 0 10 0 ++ turns 1 10 0)
    (by decide +kernel)).1
  have hzero : Returned x 0 := by decide +kernel
  exact ⟨hzero, fun k hk => hwin k 0 hk hzero⟩

/-- Both see the order unclaimed and read it pending. Both are told that it is theirs, and it is
the second one's. -/
theorem two_claims_return : registeredOrder.unclaimed = true ∧
    registeredOrder.latestStatus = some .pending ∧
    registeredDb.orders.lookup 10 = some registeredOrder ∧
    (∀ r ∈ twoClaims, r.2.role = .student ∧ Finds r.1 10 registeredDb) ∧
    (twoClaims.map (·.2.id)).Nodup ∧
    let x := interleave registeredDb (creations Sample.config twoClaims)
      (turns 0 3 0 ++ turns 1 3 0 ++ turns 0 2 0 ++ turns 1 2 0 ++ turns 0 5 0 ++ turns 1 5 0)
    Returned x 0 ∧ Returned x 1 ∧
      (x.1.orders.lookup 10).map (·.studentId) = some (some Sample.otherStudent.id) :=
  ⟨rfl, rfl, rfl, fun r hr => ⟨twoClaims_students r hr, twoClaims_find r hr⟩, twoClaims_differ,
    by decide +kernel, by decide +kernel, by decide +kernel⟩

end TsaBackend.ClaimRaces
