import TsaBackend.Phases
import TsaBackend.RequestSteps

/-!
Creations of one parcel that run at the same time: the lookup and the insertion that follows it
are two statements, and the schema has no index that would refuse the second order.
-/

namespace TsaBackend.ParcelRaces

open Call OrderEffects OrderWrites RequestSteps

variable {cfg : Config} {dto : CreateOrderDto} {user : GetUserType} {s t : DB} {id j k : Id}
  {o row : Order}

/-- The code and the brand of an order. -/
def parcelOf (s : DB) (id : Id) : Option (String × Option String) :=
  (s.orders.lookup id).map fun o => (o.checkCode, o.brand)

/-- No two orders have the same code and brand. -/
def One (s : DB) : Prop := ∀ j k p, parcelOf s j = some p → parcelOf s k = some p → j = k

/-- The orders are of the same parcels. -/
def SameParcels (s t : DB) : Prop := ∀ id, parcelOf t id = parcelOf s id

lemma one_same (h : SameParcels s t) : One t ↔ One s := by
  simp only [One, h _]

lemma sameParcels_modify {f : Order → Order}
    (hf : ∀ o, (f o).checkCode = o.checkCode ∧ (f o).brand = o.brand) :
    SameParcels s { s with orders := s.orders.modify id f } := by
  intro j
  simp only [parcelOf, Table.lookup_modify]
  split
  · next hj =>
    subst hj
    rw [Option.map_map]
    refine Option.map_congr fun o _ => ?_
    simp only [Function.comp_apply, hf o]
  · rfl

lemma parcelOf_inserted (hid : id ∉ s.orders) : parcelOf (inserted id row s) j =
    if j = id then some (row.checkCode, row.brand) else parcelOf s j := by
  by_cases hj : j = id
  · subst hj
    simp [parcelOf, inserted]
  · simp [parcelOf, inserted, hj]

/-- **When a new order keeps parcels on one order.** -/
lemma one_inserted (hs : One s) (hid : id ∉ s.orders) :
    One (inserted id row s) ↔ ∀ j, parcelOf s j ≠ some (row.checkCode, row.brand) := by
  have hnone : parcelOf s id = none := by
    rw [parcelOf, AList.lookup_eq_none.mpr hid]
    rfl
  constructor
  · intro h j hj
    have hji : j ≠ id := by
      rintro rfl
      rw [hnone] at hj
      cases hj
    refine hji (h j id (row.checkCode, row.brand) ?_ ?_)
    · rwa [parcelOf_inserted hid, if_neg hji]
    · rw [parcelOf_inserted hid, if_pos rfl]
  · intro hnew j k p hj hk
    rw [parcelOf_inserted hid] at hj hk
    split at hj <;> split at hk
    · next hji hki => rw [hji, hki]
    · cases hj
      exact absurd hk (hnew k)
    · cases hk
      exact absurd hj (hnew j)
    · exact hs j k p hj hk

/-! ### Creations -/

/-- The body has a code and a brand. -/
def Named (dto : CreateOrderDto) : Prop :=
  dto.checkCode ≠ .undefined ∧ dto.checkCode ≠ .null ∧ dto.brand ≠ .undefined ∧ dto.brand ≠ .null

/-- A creation with these bodies. -/
def creations (cfg : Config) (reqs : List (CreateOrderDto × GetUserType)) :
    List (Async CreateOrderResponse) := reqs.map fun r => createOrder cfg r.1 r.2

/-- The step of a creation that adds an order comes while the lookup of its body would find
nothing. -/
def Fresh (reqs : List (CreateOrderDto × GetUserType))
    (x : DB × List (Async CreateOrderResponse)) (e : ℕ × Input) : Prop :=
  ∀ r ∈ reqs[e.1]?, (poolStep x e).1.orders.keys ≠ x.1.orders.keys →
    ∀ p ∈ x.1.orders.entries, existingOrder r.1.checkCode r.1.brand p.1 p.2 = false

instance (reqs : List (CreateOrderDto × GetUserType)) (x : DB × List (Async CreateOrderResponse))
    (e : ℕ × Input) : Decidable (Fresh reqs x e) := by
  unfold Fresh; infer_instance

/-- The code and the brand of a body that makes a row are texts, and the row carries them. -/
lemma create_named (h : dto.create = .ok row) (hdto : Named dto) : ∃ checkCode brand,
    dto.checkCode = .val checkCode ∧ dto.brand = .val brand ∧ row.checkCode = checkCode ∧
      row.brand = some brand := by
  obtain ⟨hcreates, checkCode, hcode, rfl⟩ := CreateOrderDto.create_ok h
  simp only [CreateOrderDto.creates, Bool.and_eq_true] at hcreates
  have hb := hcreates.1.1.1.2
  obtain ⟨-, -, hundefined, hnull⟩ := hdto
  rcases hbrand : dto.brand with _ | _ | brand | f | f | _
  · exact absurd hbrand hundefined
  · exact absurd hbrand hnull
  · exact ⟨checkCode, brand, hcode, rfl, rfl, rfl⟩
  all_goals
    rw [hbrand] at hb
    cases hb

lemma row_of_named (hdto : Named dto)
    (h : studentRow cfg dto user = .ok row ∨ adminRow dto = .ok row) : ∃ checkCode brand,
    dto.checkCode = .val checkCode ∧ dto.brand = .val brand ∧ row.checkCode = checkCode ∧
      row.brand = some brand := by
  rcases h with h | h
  · exact (create_named h hdto :)
  · exact (create_named h hdto :)

lemma existingOrder_named {checkCode brand : String} (hcode : dto.checkCode = .val checkCode)
    (hbrand : dto.brand = .val brand) : existingOrder dto.checkCode dto.brand id o = false ↔
      (o.checkCode, o.brand) ≠ (checkCode, some brand) := by
  rw [existingOrder, hcode, hbrand]
  simp only [Field.keeps, Bool.and_eq_false_iff, beq_eq_false_iff_ne, ne_eq, Option.some.injEq,
    Prod.mk.injEq]
  tauto

/-- **When a step of a creation keeps parcels on one order.** -/
lemma one_iff_fresh (hdto : Named dto) (hs : One s) (h : Creates cfg dto user s t) :
    One t ↔ (t.orders.keys ≠ s.orders.keys → ∀ p ∈ s.orders.entries,
      existingOrder dto.checkCode dto.brand p.1 p.2 = false) := by
  have hkept : SameParcels s t → t.orders.keys = s.orders.keys → (One t ↔
      (t.orders.keys ≠ s.orders.keys → ∀ p ∈ s.orders.entries,
        existingOrder dto.checkCode dto.brand p.1 p.2 = false)) := fun hsame hkeys =>
    iff_of_true ((one_same hsame).mpr hs) fun hne => absurd hkeys hne
  cases h with
  | none => exact hkept (fun _ => rfl) rfl
  | claim => exact hkept (sameParcels_modify fun _ => ⟨rfl, rfl⟩) (Table.keys_modify _ _ _)
  | log i status hid =>
    exact hkept (sameParcels_modify fun _ => ⟨rfl, rfl⟩) (Table.keys_modify _ _ _)
  | @insert _ _ id row hrow hid =>
    obtain ⟨checkCode, brand, hcode, hbrand, hrcode, hrbrand⟩ := row_of_named hdto hrow
    have hkeys : (inserted id row s).orders.keys ≠ s.orders.keys := by
      intro heq
      have hmem : id ∈ (inserted id row s).orders := (AList.mem_insert _).mpr (.inl rfl)
      exact hid (AList.mem_keys.mpr (heq ▸ AList.mem_keys.mp hmem))
    rw [one_inserted hs hid, hrcode, hrbrand]
    constructor
    · rintro hnew - p hp
      rw [existingOrder_named hcode hbrand]
      intro heq
      refine hnew p.1 ?_
      rw [parcelOf, Table.lookup_eq_some.mpr hp, Option.map_some, heq]
    · intro hfresh j hj
      obtain ⟨o, ho, heq⟩ := Option.map_eq_some_iff.mp hj
      have hnamed : existingOrder dto.checkCode dto.brand j o = false :=
        hfresh hkeys ⟨j, o⟩ (Table.lookup_eq_some.mp ho)
      exact (existingOrder_named hcode hbrand).mp hnamed heq

/-- Every call of a pool of creations takes steps of its own request. -/
abbrev Creating (cfg : Config) (reqs : List (CreateOrderDto × GetUserType))
    (x : DB × List (Async CreateOrderResponse)) : Prop :=
  PoolSteps (fun k s t => ∃ r, reqs[k]? = some r ∧ Creates cfg r.1 r.2 s t) x

lemma creating_init (reqs : List (CreateOrderDto × GetUserType)) :
    Creating cfg reqs (s, creations cfg reqs) := by
  intro k c hc
  rw [creations, List.getElem?_map] at hc
  obtain ⟨r, hr, rfl⟩ := Option.map_eq_some_iff.mp hc
  exact createOrder_steps.mono fun a b hab => ⟨r, hr, hab⟩

/-- A step of a pool keeps parcels on one order just when it is fresh. -/
lemma one_step_iff {reqs : List (CreateOrderDto × GetUserType)} (hreqs : ∀ r ∈ reqs, Named r.1)
    {x : DB × List (Async CreateOrderResponse)} (hone : One x.1) (hx : Creating cfg reqs x)
    (e : ℕ × Input) : One (poolStep x e).1 ↔ Fresh reqs x e := by
  rcases (pool_steps hx e).1 with hstay | ⟨r, hr, hstep⟩
  · rw [Fresh, hstay]
    exact iff_of_true hone fun _ _ hne => absurd rfl hne
  · rw [one_iff_fresh (hreqs r (List.mem_of_getElem? hr)) hone hstep, Fresh, hr]
    simp

/-- **When parcels have one order each**: in any interleaving of creations with a code and a
brand, from tables where they do, they do at every point just when every order is added while
the lookup would still find nothing. -/
theorem one_order_per_parcel (cfg : Config) (s : DB) (hs : One s)
    (reqs : List (CreateOrderDto × GetUserType)) (hreqs : ∀ r ∈ reqs, Named r.1)
    (sched : List (ℕ × Input)) :
    (Machine.Along poolStep (Fresh reqs) (s, creations cfg reqs) sched →
      One (interleave s (creations cfg reqs) sched).1) ∧
    (Machine.Along poolStep (fun x e => One (poolStep x e).1) (s, creations cfg reqs) sched ↔
      Machine.Along poolStep (Fresh reqs) (s, creations cfg reqs) sched) := by
  let Inv : DB × List (Async CreateOrderResponse) → Prop := fun x => One x.1 ∧ Creating cfg reqs x
  have hiff : ∀ x, ∀ e ∈ sched, Inv x → (Inv (poolStep x e) ↔ Fresh reqs x e) := by
    rintro x e - ⟨hone, hx⟩
    rw [← one_step_iff hreqs hone hx e]
    exact and_iff_left (pool_steps hx e).2
  have hkeep : ∀ x e, Inv (poolStep x e) → Inv (poolStep x e) := fun _ _ => id
  have hinit : Inv (s, creations cfg reqs) := ⟨hs, creating_init reqs⟩
  obtain ⟨hrun, hboth⟩ := Machine.inv_along_iff Inv hkeep hiff hinit
  refine ⟨fun h => (hrun h).1, Iff.trans ?_ hboth⟩
  refine Machine.along_congr (Creating cfg reqs) (fun x e hx _ => (pool_steps hx e).2) ?_ hinit.2
  exact fun x e _ hx => (and_iff_left (pool_steps hx e).2).symm

/-- Two students create one parcel. -/
def twoCreations : List (CreateOrderDto × GetUserType) :=
  [({ Sample.body with brand := .val "SHOPEE" }, Sample.student),
   ({ Sample.body with brand := .val "SHOPEE" }, Sample.otherStudent)]

lemma twoCreations_named : ∀ r ∈ twoCreations, Named r.1 := by
  intro r hr
  simp only [twoCreations, List.mem_cons, List.not_mem_nil, or_false] at hr
  rcases hr with rfl | rfl <;> exact ⟨nofun, nofun, nofun, nofun⟩

/-- `steps` steps of call `k`, whose new row gets the id `fresh`. -/
def turns (k steps fresh : ℕ) : List (ℕ × Input) :=
  List.replicate steps (k, Sample.inputs fresh 0)

lemma one_empty : One Sample.db := by
  intro j k p hj
  cases hj

/-- One creation after the other. -/
theorem one_order_per_parcel_serial :
    One (interleave Sample.db (creations Sample.config twoCreations)
      (turns 0 7 10 ++ turns 1 7 11)).1 :=
  (one_order_per_parcel Sample.config Sample.db one_empty twoCreations twoCreations_named _).1
    (by decide +kernel)

/-- Both look for the parcel before one of them adds it. -/
theorem both_creations_find_nothing : One Sample.db ∧ (∀ r ∈ twoCreations, Named r.1) ∧
    ¬ One (interleave Sample.db (creations Sample.config twoCreations)
      (turns 0 3 10 ++ turns 1 3 11 ++ turns 0 4 10 ++ turns 1 4 11)).1 := by
  refine ⟨one_empty, twoCreations_named, fun h => ?_⟩
  have hten : parcelOf (interleave Sample.db (creations Sample.config twoCreations)
      (turns 0 3 10 ++ turns 1 3 11 ++ turns 0 4 10 ++ turns 1 4 11)).1 10 =
      some ("SPX1", some "SHOPEE") := by decide +kernel
  have heleven : parcelOf (interleave Sample.db (creations Sample.config twoCreations)
      (turns 0 3 10 ++ turns 1 3 11 ++ turns 0 4 10 ++ turns 1 4 11)).1 11 =
      some ("SPX1", some "SHOPEE") := by decide +kernel
  exact absurd (h 10 11 _ hten heleven) (by decide)

end TsaBackend.ParcelRaces
