import TsaBackend.OrderUtil
import TsaBackend.Tiers

/-!
The shipping fee over every address and every weight.

The fee compares the name of a dormitory with `A` and takes any other name for `B`, so it is
stated here for names; the fee of a stored dormitory is the one of its name.
-/

namespace TsaBackend.ShippingFees

open Tiers

variable {room building dormitory : Arg String} {weight : Arg ℚ} {c d : Char} {cs ds : List Char}

/-- `element.value.includes(building)`. -/
def listed (building : Arg String) (value : List String) : Bool :=
  value.any fun b => building = .val b

def buildingFeesOfName (dormitory : Arg String) : List (List String × ℕ) :=
  if dormitory = .val "A" then shippingFeeList.buildingA else shippingFeeList.buildingB

/-- The sum `fee` before the cap. -/
def uncapped (room building dormitory : Arg String) (weight : Arg ℚ) : ℕ :=
  addCharges (listed building) (buildingFeesOfName dormitory) (weightFee weight + floorFee room)

/-- `getShippingFee` for the name of a dormitory. -/
def getShippingFeeOfName (room building dormitory : Arg String) (weight : Arg ℚ) : ℕ :=
  if uncapped room building dormitory weight > 15000 then 15000
  else uncapped room building dormitory weight

/-- A stored dormitory as JSON writes it. -/
def nameOf : Arg Dormitory → Arg String
  | .undefined => .undefined
  | .null => .null
  | .val .a => .val "A"
  | .val .b => .val "B"

/-- The fees of the entries that list the building, added up. -/
def surcharge (building dormitory : Arg String) : ℕ :=
  charges (listed building) (buildingFeesOfName dormitory)

lemma uncapped_eq : uncapped room building dormitory weight =
    weightFee weight + floorFee room + surcharge building dormitory :=
  addCharges_eq _ _ _

lemma getShippingFeeOfName_eq : getShippingFeeOfName room building dormitory weight =
    min (uncapped room building dormitory weight) 15000 := by
  unfold getShippingFeeOfName
  split <;> omega

lemma buildingFees_eq (d : Arg Dormitory) : buildingFees d = buildingFeesOfName (nameOf d) := by
  rcases d with _ | _ | _ | _ <;> rfl

lemma buildingFee_eq (building : Arg String) (d : Arg Dormitory) :
    buildingFee building d = surcharge building (nameOf d) := by
  rw [buildingFee, buildingFees_eq, surcharge, charges, List.sum_eq_foldl, List.foldl_map]
  rfl

/-- The fee the services compute is the one of the dormitory's name. -/
theorem getShippingFee_eq (room building : Arg String) (d : Arg Dormitory) (weight : Arg ℚ) :
    getShippingFee room building d weight =
      getShippingFeeOfName room building (nameOf d) weight := by
  rw [getShippingFee, getShippingFeeOfName, uncapped_eq, buildingFee_eq]

lemma weightFee_val (w : ℚ) : weightFee (.val w) = tier 1 3 5000 8000 12000 w := rfl

lemma weightFee_mem (weight : Arg ℚ) : weightFee weight ∈ shippingFeeList.weight := by
  rcases weight with _ | _ | w
  · decide
  · decide
  · rw [weightFee_val]
    exact tier_mem 1 3 5000 8000 12000 w

lemma weightFee_ge (weight : Arg ℚ) : 5000 ≤ weightFee weight := by
  have hleast : ∀ fee ∈ shippingFeeList.weight, 5000 ≤ fee := by decide
  exact hleast _ (weightFee_mem weight)

lemma weightFee_le_weightFee {w₁ w₂ : ℚ} (h : w₁ ≤ w₂) :
    weightFee (.val w₁) ≤ weightFee (.val w₂) := by
  rw [weightFee_val, weightFee_val]
  exact tier_le_tier (by decide) (by decide) h

lemma floorFee_mem (room : Arg String) : floorFee room ∈ shippingFeeList.floor := by
  unfold floorFee
  split
  · decide
  · exact tier_mem 4 6 0 1000 2000 _

lemma floorFee_le (room : Arg String) : floorFee room ≤ 2000 := by
  have hmost : ∀ fee ∈ shippingFeeList.floor, fee ≤ 2000 := by decide
  exact hmost _ (floorFee_mem room)

/-- A room that starts with a digit is on the floor of that digit. -/
lemma floorFee_digit (hc : c.isDigit = true) : floorFee (.val (String.ofList (c :: cs))) =
    tier 4 6 0 1000 2000 (c.toNat - '0'.toNat) := by
  have hfloor : floorOf (.val (String.ofList (c :: cs))) = some (c.toNat - '0'.toNat) := by
    simp only [floorOf, String.toList_ofList, parseIntChar, if_pos hc]
  rw [floorFee, hfloor]
  rfl

lemma floorFee_le_floorFee (hc : c.isDigit = true) (hd : d.isDigit = true) (h : c ≤ d) :
    floorFee (.val (String.ofList (c :: cs))) ≤ floorFee (.val (String.ofList (d :: ds))) := by
  have hdigits : c.toNat - '0'.toNat ≤ d.toNat - '0'.toNat :=
    Nat.sub_le_sub_right (UInt32.le_iff_toNat_le.mp h) _
  rw [floorFee_digit hc, floorFee_digit hd]
  exact tier_le_tier (by decide) (by decide) hdigits

/-! ### Buildings, and the law of the fee -/

/-- No building is in two entries of the list of a dormitory. -/
lemma buildings_disjoint (dormitory : Arg String) : (buildingFeesOfName dormitory).Pairwise
    fun e e' => ∀ b ∈ e.1, b ∉ e'.1 := by
  unfold buildingFeesOfName
  split <;> decide

lemma exclusive_listed (building dormitory : Arg String) :
    Exclusive (listed building) (buildingFeesOfName dormitory) := by
  refine (buildings_disjoint dormitory).imp fun {e e'} hdisjoint he => ?_
  simp only [listed, List.any_eq_true, List.any_eq_false, decide_eq_true_eq] at he ⊢
  obtain ⟨b, hb, rfl⟩ := he
  intro b' hb' heq
  cases heq
  exact hdisjoint b hb hb'

lemma buildingFeesOfName_le (dormitory : Arg String) :
    ∀ e ∈ buildingFeesOfName dormitory, e.2 ≤ 4000 := by
  unfold buildingFeesOfName
  split <;> decide

lemma surcharge_le (building dormitory : Arg String) : surcharge building dormitory ≤ 4000 := by
  rcases charges_cases (exclusive_listed building dormitory) with hnone | ⟨e, he, hone⟩
  · rw [surcharge, hnone]
    omega
  · rw [surcharge, hone]
    exact buildingFeesOfName_le dormitory e he

lemma getShippingFeeOfName_bounds (room building dormitory : Arg String) (weight : Arg ℚ) :
    5000 ≤ getShippingFeeOfName room building dormitory weight ∧
      getShippingFeeOfName room building dormitory weight ≤ 15000 := by
  have hweight := weightFee_ge weight
  rw [getShippingFeeOfName_eq, uncapped_eq]
  omega

lemma getShippingFeeOfName_le {room' : Arg String} {weight' : Arg ℚ}
    (hweight : weightFee weight ≤ weightFee weight') (hfloor : floorFee room ≤ floorFee room') :
    getShippingFeeOfName room building dormitory weight ≤
      getShippingFeeOfName room' building dormitory weight' := by
  rw [getShippingFeeOfName_eq, getShippingFeeOfName_eq, uncapped_eq, uncapped_eq]
  omega

/-- **The shipping fee law**: the fee grows with the weight and with the digit a room starts
with, lies between 5000 and 15000, and is the capped sum of a weight fee, a floor fee and the
fee of at most one entry that lists the building. -/
theorem shipping_fee_law (building dormitory : Arg String) :
    (∀ (room : Arg String) (w₁ w₂ : ℚ), w₁ ≤ w₂ →
      getShippingFeeOfName room building dormitory (.val w₁) ≤
        getShippingFeeOfName room building dormitory (.val w₂)) ∧
    (∀ (c d : Char) (cs ds : List Char) (weight : Arg ℚ),
      c.isDigit = true → d.isDigit = true → c ≤ d →
      getShippingFeeOfName (.val (String.ofList (c :: cs))) building dormitory weight ≤
        getShippingFeeOfName (.val (String.ofList (d :: ds))) building dormitory weight) ∧
    (∀ (room : Arg String) (weight : Arg ℚ),
      5000 ≤ getShippingFeeOfName room building dormitory weight ∧
        getShippingFeeOfName room building dormitory weight ≤ 15000) ∧
    (∀ (room : Arg String) (weight : Arg ℚ),
      getShippingFeeOfName room building dormitory weight =
        min (uncapped room building dormitory weight) 15000 ∧
      weightFee weight ∈ shippingFeeList.weight ∧ floorFee room ∈ shippingFeeList.floor ∧
      uncapped room building dormitory weight =
        weightFee weight + floorFee room + surcharge building dormitory) ∧
    (applicable (listed building) (buildingFeesOfName dormitory)).length ≤ 1 := by
  refine ⟨fun room w₁ w₂ hw => ?_, fun c d cs ds weight hc hd hcd => ?_, fun room weight => ?_,
    fun room weight => ⟨?_, ?_, ?_, ?_⟩, ?_⟩
  · exact getShippingFeeOfName_le (weightFee_le_weightFee hw) (le_refl _)
  · exact getShippingFeeOfName_le (le_refl _) (floorFee_le_floorFee hc hd hcd)
  · exact getShippingFeeOfName_bounds room building dormitory weight
  · exact getShippingFeeOfName_eq
  · exact weightFee_mem weight
  · exact floorFee_mem room
  · exact uncapped_eq
  · exact length_applicable_le_one (exclusive_listed building dormitory)

/-- Two weights and two floors of one building; the heavier parcel to the higher floor reaches
the cap. -/
theorem shipping_fee_law_AH1 :
    getShippingFeeOfName (.val "301") (.val "AH1") (.val "A") (.val (1 / 2)) ≤
      getShippingFeeOfName (.val "301") (.val "AH1") (.val "A") (.val 2) ∧
    getShippingFeeOfName (.val "301") (.val "AH1") (.val "A") (.val 5) ≤
      getShippingFeeOfName (.val "712") (.val "AH1") (.val "A") (.val 5) ∧
    uncapped (.val "712") (.val "AH1") (.val "A") (.val 5) = 18000 :=
  ⟨(shipping_fee_law (.val "AH1") (.val "A")).1 _ (1 / 2) 2 (by decide +kernel),
    (shipping_fee_law (.val "AH1") (.val "A")).2.1 '3' '7' ['0', '1'] ['1', '2'] (.val 5)
      (by decide) (by decide) (by decide),
    by decide +kernel⟩

end TsaBackend.ShippingFees
