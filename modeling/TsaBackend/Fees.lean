import TsaBackend.Registration

/-!
The fee an order was given and the fee of the columns it stores, over runs of creations,
edits, status changes and delays.

A creation computes the fee of the body, and an edit changes the columns without the fee.
-/

namespace TsaBackend.Fees

open Call OrderEffects OrderWrites ShippingFees Accounts Registration

variable {cfg : Config} {dto : CreateOrderDto} {user : GetUserType} {s t : DB} {id : Id}
  {o row : Order} {Q : DB → Prop}

/-- A column as the code reads it back. -/
def ofColumn {α : Type} : Option α → Arg α
  | none => .null
  | some a => .val a

/-- The fee of the columns of an order. -/
def storedFee (o : Order) : ℕ :=
  getShippingFee (ofColumn o.room) (ofColumn o.building) (ofColumn o.dormitory) (ofColumn o.weight)

lemma getShippingFee_weight {room building : Arg String} {dormitory : Arg Dormitory}
    {weight weight' : Arg ℚ} :
    getShippingFee room building dormitory weight = getShippingFee room building dormitory weight' ↔
      weightFee weight = weightFee weight' := by
  have hfloor := floorFee_le room
  have hbuilding := surcharge_le building (nameOf dormitory)
  have hw := weightFee_mem weight
  have hw' := weightFee_mem weight'
  simp only [shippingFeeList.weight, List.mem_cons, List.not_mem_nil, or_false] at hw hw'
  unfold getShippingFee
  rw [buildingFee_eq]
  dsimp only
  constructor
  · intro h
    split at h <;> split at h <;> omega
  · intro h
    rw [h]

lemma floorFee_patch {room : Arg String} {old : Option String} (h : truthy old = false) :
    floorFee (ofColumn (room.patch old)) = floorFee room := by
  rcases room with _ | _ | room
  · rcases old with _ | old
    · rfl
    · obtain rfl : old = "" := by simpa [truthy] using h
      rfl
  · rfl
  · rfl

lemma buildingFees_patch (dormitory : Arg Dormitory) :
    buildingFees (ofColumn (dormitory.patch none)) = buildingFees dormitory := by
  rcases dormitory with _ | _ | _ <;> rfl

lemma not_mem_buildingFees (dormitory : Arg Dormitory) :
    ∀ e ∈ buildingFees dormitory, "" ∉ e.1 := by
  unfold buildingFees
  split <;> decide

lemma buildingFee_eq_zero {building : Arg String} {dormitory : Arg Dormitory}
    (h : ∀ b, building = .val b → b = "") : buildingFee building dormitory = 0 := by
  have hnone : (buildingFees dormitory).filter (fun e => e.1.any fun b => building = .val b) =
      [] := by
    refine List.filter_eq_nil_iff.mpr fun e he => ?_
    simp only [List.any_eq_true, decide_eq_true_eq]
    rintro ⟨b, hb, hval⟩
    rw [h b hval] at hb
    exact not_mem_buildingFees dormitory e he hb
  rw [buildingFee, hnone, List.foldl_nil]

lemma buildingFee_patch {building : Arg String} {old : Option String} {dormitory : Arg Dormitory}
    (h : truthy old = false) :
    buildingFee (ofColumn (building.patch old)) (ofColumn (dormitory.patch none)) =
      buildingFee building dormitory := by
  have hdorm : buildingFee (ofColumn (building.patch old)) (ofColumn (dormitory.patch none)) =
      buildingFee (ofColumn (building.patch old)) dormitory := by
    unfold buildingFee
    rw [buildingFees_patch]
  rw [hdorm]
  rcases building with _ | _ | building
  · have hold : ∀ b, ofColumn old = .val b → b = "" := by
      rcases old with _ | old
      · simp [ofColumn]
      · simpa [ofColumn, truthy] using h
    exact (buildingFee_eq_zero hold).trans (buildingFee_eq_zero (by simp)).symm
  · exact (buildingFee_eq_zero (by simp [Arg.patch, ofColumn])).trans
      (buildingFee_eq_zero (by simp)).symm
  · rfl

/-- The address of the body has no objects that the client would read as operations. -/
structure PlainAddress (dto : CreateOrderDto) : Prop where
  room : dto.room.creates true = true
  building : dto.building.creates true = true
  dormitory : dto.dormitory.creates true = true

lemma patch_arg {α : Type} {x : Field α} (h : x.creates true = true) (old : Option α) :
    x.patch old = x.arg.patch old := by
  cases x with
  | undefined | null | val => rfl
  | op | filter | other => cases h

/-- The fee of the columns that an address leaves over an older one. -/
def leftFee (dto : CreateOrderDto) (room building : Option String) (weight : Option ℚ) : ℕ :=
  getShippingFee (ofColumn (dto.room.patch room)) (ofColumn (dto.building.patch building))
    (ofColumn (dto.dormitory.patch none)) (ofColumn weight)

/-- The fee of a row whose address comes from the body, over no address. -/
lemma amount_eq_iff {room building : Option String} {weight : Option ℚ} (hplain : PlainAddress dto)
    (hroom : truthy room = false) (hbuilding : truthy building = false) :
    dto.amount = leftFee dto room building weight ↔
      weightFee dto.weight.number = weightFee (ofColumn weight) := by
  have hfee : leftFee dto room building weight =
      getShippingFee dto.room.arg dto.building.arg dto.dormitory.arg (ofColumn weight) := by
    unfold leftFee getShippingFee
    rw [patch_arg hplain.room, patch_arg hplain.building, patch_arg hplain.dormitory,
      floorFee_patch hroom, buildingFee_patch hbuilding]
  rw [hfee, CreateOrderDto.amount, getShippingFee_weight]

/-! ### Orders whose fee is the one of their columns -/

/-- An order of a student has the fee of its columns. -/
def Matches (o : Order) : Prop := o.studentId.isSome → o.shippingFee = some (storedFee o : Money)

instance (o : Order) : Decidable (Matches o) := by unfold Matches; infer_instance

/-- The fee of the body is the one of what a claim leaves: with a plain address the weights have one
price. -/
def ClaimFee (dto : CreateOrderDto) (o : Order) : Prop :=
  (PlainAddress dto → weightFee dto.weight.number = weightFee (ofColumn o.weight)) ∧
    (¬ PlainAddress dto → dto.amount = leftFee dto o.room o.building o.weight)

lemma matches_claim (hun : o.unclaimed = true) : Matches (claim cfg dto user o) ↔ ClaimFee dto o := by
  simp only [Order.unclaimed, Bool.and_eq_true, Option.isNone_iff_eq_none, Bool.not_eq_true'] at hun
  obtain ⟨⟨⟨_, hroom⟩, hbuilding⟩, hdorm⟩ := hun
  have hfee : (claim cfg dto user o).shippingFee = some (dto.amount : Money) := rfl
  have hstored : storedFee (claim cfg dto user o) = leftFee dto o.room o.building o.weight := by
    rw [leftFee, ← hdorm]
    rfl
  have hmatches : Matches (claim cfg dto user o) ↔
      dto.amount = leftFee dto o.room o.building o.weight := by
    rw [Matches, hfee, hstored, Option.some.injEq, Nat.cast_inj]
    exact ⟨fun h => h rfl, fun h _ => h⟩
  rw [hmatches, ClaimFee]
  by_cases hplain : PlainAddress dto
  · simp [hplain, amount_eq_iff hplain hroom hbuilding]
  · simp [hplain]

/-- A student's row leaves out an absent weight, which the fee counts as the heaviest. -/
lemma matches_studentRow (h : studentRow cfg dto user = .ok row) :
    Matches row ↔ dto.weight ≠ .undefined := by
  obtain ⟨hcreates, _, _, rfl⟩ := CreateOrderDto.create_ok h
  simp only [CreateOrderDto.creates, Bool.and_eq_true] at hcreates
  have hplain : PlainAddress dto := ⟨by tauto, by tauto, by tauto⟩
  have hcreates : dto.weight.creates true = true := by tauto
  have hweight : weightFee dto.weight.number = weightFee (ofColumn (dto.weight.patch none)) ↔
      dto.weight ≠ .undefined := by
    cases hw : dto.weight with
    | undefined => exact ⟨fun h => absurd h (by decide), fun h => absurd rfl h⟩
    | null | val => exact iff_of_true rfl (by simp)
    | op | filter | other =>
      rw [hw] at hcreates
      cases hcreates
  have hfees : dto.amount = leftFee dto none none (dto.weight.patch none) ↔ _ :=
    amount_eq_iff hplain rfl rfl
  rw [← hweight, ← hfees, Matches]
  change (_ → some (dto.amount : Money) = some (leftFee dto none none _ : Money)) ↔ _
  rw [Option.some.injEq, Nat.cast_inj]
  exact ⟨fun h => h rfl, fun h _ => h⟩

lemma matches_setStatus (o : Order) (status : OrderStatus) (finishedImage receivedImage : Arg String) :
    Matches (setStatus status finishedImage receivedImage o) ↔ Matches o := Iff.rfl

lemma matches_payCash (o : Order) : Matches (payCash o) ↔ Matches o := Iff.rfl

/-- An edit with a documented body keeps student and fee, and may change the other columns. -/
lemma matches_editInfo (hdoc : Documented dto) (ho : Matches o) :
    Matches (editInfo cfg dto o) ↔ (o.studentId.isSome → storedFee (dto.update o) = storedFee o) := by
  have hstudent : (editInfo cfg dto o).studentId = o.studentId := by
    simp [editInfo, CreateOrderDto.update, hdoc.studentId, Field.patch]
  have hfee : (editInfo cfg dto o).shippingFee = o.shippingFee := by
    simp [editInfo, CreateOrderDto.update, hdoc.shippingFee, Field.patch]
  have hstored : storedFee (editInfo cfg dto o) = storedFee (dto.update o) := rfl
  rw [Matches, hstudent, hfee, hstored]
  refine forall_congr' fun hsome => ?_
  rw [ho hsome, Option.some.injEq, Nat.cast_inj, eq_comm]

/-- The requests that create, edit, move and delay orders, edits with documented bodies. -/
def Handling : Request → Prop
  | .createOrder _ _ | .updateStatus _ _ _ | .delayOrders _ => True
  | .updateOrderInfo _ dto _ => Documented dto
  | _ => False

/-- A claim charges the stored weight, a creation stores the weight it charges or the fee it
sets itself, and an edit leaves columns of the same fee. -/
def KeepsFees (cfg : Config) (s : DB) : Request → Prop
  | .createOrder dto user =>
    (∀ id o, Claims cfg s dto user id o → ClaimFee dto o) ∧
      (∀ row, Inserts cfg s dto user row → dto.weight ≠ .undefined) ∧
      ∀ row, AdminInserts s dto user row → Matches row
  | .updateOrderInfo id dto _ => ∀ o, Edits cfg s id dto o → o.studentId.isSome →
      storedFee (dto.update o) = storedFee o
  | _ => True

/-- **When a request keeps fees and columns in step.** -/
lemma matches_iff {r : Request} (hr : Handling r) (hs : Every Matches s) :
    Ends (r.call cfg) s (Every Matches) ↔ KeepsFees cfg s r := by
  cases r with
  | createOrder dto user =>
    refine ends_drop.trans ((createOrder_every_iff matches_setStatus hs).trans ?_)
    refine and_congr ?_ (and_congr ?_ Iff.rfl)
    · exact forall₃_congr fun id o h => matches_claim h.unclaimed
    · exact forall₂_congr fun row h => matches_studentRow h.made
  | updateOrderInfo id dto user =>
    refine ends_drop.trans ((updateOrderInfo_every_iff hs).trans ?_)
    exact forall₂_congr fun o h => matches_editInfo hr (hs id o h.lookup)
  | updateStatus id dto user =>
    simp only [KeepsFees, iff_true]
    refine ends_drop.mpr ((updateStatus_every matches_setStatus matches_payCash).mono ?_)
    exact fun t ht => ht.mpr hs
  | delayOrders dto =>
    simp only [KeepsFees, iff_true]
    have hdelay : ∀ o : Order, Matches { o with deliveryDate := some dto.timeslot } ↔ Matches o :=
      fun _ => Iff.rfl
    refine ends_drop.mpr (delayOrders_ends.mono fun t ht => ?_)
    rcases ht with rfl | ⟨ids, ht⟩
    · exact hs
    · exact (every_updateOrders hdelay ht).mpr hs
  | _ => exact hr.elim

/-- **When stored fees match stored parcels**: in a run of these requests, from tables where
they match, they match in every state whose steps all keep fees, and a step that does not can
end where they do not. -/
theorem fees_match (cfg : Config) (s : DB) (hs : Every Matches s)
    (ls : List (Request × (ℕ → Input))) (hls : ∀ l ∈ ls, Handling l.1) :
    (Machine.Along (serve cfg) (fun s l => KeepsFees cfg s l.1) s ls →
      Every Matches (Machine.run (serve cfg) s ls)) ∧
    (Machine.Along (serve cfg) (fun s l => Ends (l.1.call cfg) s (Every Matches)) s ls ↔
      Machine.Along (serve cfg) (fun s l => KeepsFees cfg s l.1) s ls) :=
  Machine.inv_along_iff (Every Matches) (fun _ l hends => hends l.2)
    (fun _ l hl hs => matches_iff (hls l hl) hs) hs

/-- A parcel of two kilograms that is moved, renamed and delayed. -/
def delayedParcel : List (Request × (ℕ → Input)) :=
  [(.createOrder { Sample.body with weight := .val 2 } Sample.student, Sample.inputs 10),
   (.updateStatus 10 (.only .accepted) Sample.admin, Sample.inputs 0),
   (.updateOrderInfo 10 { Sample.body with product := .val "book" } Sample.student,
      Sample.inputs 0),
   (.delayOrders ⟨"2000", [10]⟩, Sample.inputs 0)]

theorem fees_match_delayedParcel :
    let t := Machine.run (serve Sample.config) Sample.db delayedParcel
    (t.orders.lookup 10).map (·.shippingFee) = some (some 8000) ∧ Every Matches t := by
  refine ⟨by decide +kernel, (fees_match Sample.config Sample.db (every_of_no_orders rfl)
    delayedParcel ?_).1 ?_⟩
  · simp only [delayedParcel, List.forall_mem_cons, Handling, true_and]
    exact ⟨⟨rfl, rfl, rfl, rfl, rfl, rfl, rfl, rfl, rfl⟩, by simp⟩
  · refine ⟨⟨fun id o h => ?_, fun row h => by simp, fun row h => ?_⟩, trivial, fun o _ _ => rfl,
      trivial, trivial⟩
    · cases h.lookup
    · cases h.role

/-- A parcel that an administrator registers and a student claims with a weight. -/
def claimedParcel : List (Request × (ℕ → Input)) :=
  [(.createOrder Sample.body Sample.admin, Sample.inputs 10),
   (.createOrder { Sample.body with weight := .val 2 } Sample.student, Sample.inputs 0)]

/-- The fee is the one of two kilograms, and no weight is stored. -/
theorem claim_stores_no_weight : (∀ l ∈ claimedParcel, Handling l.1) ∧
    (((Machine.run (serve Sample.config) Sample.db claimedParcel).orders.lookup 10).map fun o =>
      (o.studentId, o.weight, o.shippingFee)) = some (some 1, none, some 8000) ∧
    ¬ Every Matches (Machine.run (serve Sample.config) Sample.db claimedParcel) := by
  have hten : ((Machine.run (serve Sample.config) Sample.db claimedParcel).orders.lookup 10).any
      (fun o => ¬ Matches o) = true := by decide +kernel
  refine ⟨by simp [claimedParcel, Handling], by decide +kernel, fun h => ?_⟩
  obtain ⟨o, ho, hno⟩ := (Option.any_eq_true _ _).mp hten
  exact of_decide_eq_true hno (h 10 o ho)

end TsaBackend.Fees
