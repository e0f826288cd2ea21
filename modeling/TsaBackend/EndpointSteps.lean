import TsaBackend.Endpoints
import TsaBackend.PhaseRules
import TsaBackend.SessionSteps

/-!
What requests to the endpoints of accounts go through: the guard in front of them, with the claims
of the token, and the steps of their services.
-/

namespace TsaBackend.EndpointSteps

open Call AuthSteps SessionSteps

variable {cfg : SessionConfig} {token : String} {id u : Id}

section Parts

variable {φ α β : Type} {δ : φ → ProfileDB → ProfileDB → φ → Prop} {Q : φ → α → Prop} {p : φ}

/-- A call goes through its phases on any input, and may throw anywhere. -/
abbrev Goes {σ ι : Type} (δ : φ → σ → σ → φ → Prop) (Q : φ → α → Prop) (c : Call σ ι Exn α)
    (p : φ) : Prop :=
  c.Follows (fun _ _ _ => True) δ Q (fun _ _ => True) p

/-- The same steps, on the tables of sign-in. -/
def OnAuth (δ : φ → ProfileDB → ProfileDB → φ → Prop) (p : φ) (s t : AuthDB) (q : φ) : Prop :=
  ∀ u : ProfileDB, u.toAuthDB = s → δ p u { u with toAuthDB := t } q

lemma goes_onApi {c : ProfileCall β} {f : β → ApiCall α}
    (h : Goes δ (fun q b => Goes δ Q (f b) q) c p) : Goes δ Q (onApi c >>= f) p :=
  Follows.bind (h.zoom (fun _ _ _ _ => trivial) fun _ _ _ _ h => h)

lemma goes_onAuth {c : AuthCall β} {f : β → ApiCall α}
    (h : Goes (OnAuth δ) (fun q b => Goes δ Q (f b) q) c p) :
    Goes δ Q (onApi (onProfiles c) >>= f) p :=
  goes_onApi (h.zoom (fun _ _ _ _ => trivial) fun _ t _ _ h => h t rfl)

lemma goes_public {c : AuthCall β} {f : β → SessionResponse} {Q : φ → ApiResponse → Prop}
    (h : Goes (OnAuth δ) (fun q b => Q q (.session (f b))) c p) :
    Goes δ Q (do
      let response ← onApi (onProfiles c >>= (Pure.pure ∘ f))
      return .session response) p :=
  goes_onApi (Follows.bind (h.zoom (fun _ _ _ _ => trivial) fun _ t _ _ h => h t rfl))

lemma goes_steps {σ ι : Type} {c : Call σ ι Exn α} {δ : φ → σ → σ → φ → Prop}
    (h : c.Steps fun s t => δ p s t p) (hQ : ∀ a, Q p a) : Goes δ Q c p :=
  h.follows hQ fun _ => trivial

end Parts

section Guards

variable {φ α : Type} {p : φ}

/-- The token is accepted at some time, with these claims. -/
def Accepts (cfg : SessionConfig) (token : String) (payload : JwtPayload) : Prop :=
  ∃ now, cfg.jwtVerify token now = some payload

/-- The claims pass the guard of these roles. -/
def Permits (requiredRoles : List UserRole) : JwtPayload → Prop
  | .user _ role _ => requiredRoles = [] ∨ role ∈ requiredRoles
  | .registration _ => requiredRoles = []

lemma validate_steps {G : AuthDB → AuthDB → Prop} (hrefl : ∀ s, G s s) {payload : JwtPayload} :
    (validateUserForJwt payload).Steps G := by
  cases payload with
  | registration userId => exact steps_throw _
  | user email role id =>
    refine (steps_read _ hrefl).bind fun found => ?_
    rcases found with _ | ⟨user, account⟩
    · exact steps_throw _
    · exact (steps_throwIf _ _).bind fun _ => steps_pure _

lemma goes_jwtAuthGuard {δ : φ → AuthDB → AuthDB → φ → Prop} {Q : φ → JwtPayload → Prop}
    (hkeep : ∀ p s, δ p s s p)
    (h : ∀ payload, Accepts cfg token payload → ∃ q, (∀ s, δ p s s q) ∧ Q q payload) :
    Goes δ Q (jwtAuthGuard cfg token) p := by
  unfold jwtAuthGuard
  refine follows_read fun i s _ => ?_
  rcases hverify : cfg.jwtVerify token i.now with _ | payload
  · exact ⟨p, hkeep p s, trivial⟩
  obtain ⟨q, hpresent, hQ⟩ := h payload ⟨i.now, hverify⟩
  refine ⟨q, hpresent s, ?_⟩
  have hlost : (MonadExcept.tryCatch (do let _ ← validateUserForJwt payload)
      fun _ => Pure.pure () : AuthCall Unit).Steps fun s t => δ q s t q :=
    Steps.tryCatch ((validate_steps (hkeep q)).bind fun _ => steps_pure _) fun _ => steps_pure _
  exact hlost.follows_bind (fun _ => trivial) fun _ => hQ

/-- **A guarded endpoint** knows the claims of a token that has been accepted, and runs when they
pass. -/
theorem goes_auth {δ : φ → ProfileDB → ProfileDB → φ → Prop} {Q : φ → α → Prop}
    {requiredRoles : List UserRole} {f : JwtPayload → ApiCall α} (hkeep : ∀ p s, δ p s s p)
    (h : ∀ payload, Accepts cfg token payload → ∃ q, (∀ s, δ p s s q) ∧
      (Permits requiredRoles payload → Goes δ Q (f payload) q)) :
    Goes δ Q (auth cfg requiredRoles token >>= f) p := by
  have hguard : Goes δ Q (onApi (onProfiles (jwtAuthGuard cfg token)) >>= fun user =>
      RolesGuard.canActivate requiredRoles user >>= fun _ => f user) p := by
    refine goes_onAuth (goes_jwtAuthGuard (fun p s u hu => ?_) fun payload haccept => ?_)
    · rw [← hu]
      exact hkeep p u
    obtain ⟨q, hpresent, hrun⟩ := h payload haccept
    refine ⟨q, fun s u hu => ?_, ?_⟩
    · rw [← hu]
      exact hpresent u
    cases payload with
    | user email role id =>
      refine follows_throwIf (fun _ => trivial) fun hrole => hrun ?_
      by_cases hnone : requiredRoles = []
      · exact .inl hnone
      · exact .inr (not_not.mp fun hmem => hrole ⟨hnone, hmem⟩)
    | registration userId =>
      exact follows_throwIf (fun _ => trivial) fun hnone => hrun (not_not.mp hnone)
  rw [auth, bind_assoc]
  simpa only [bind_assoc, pure_bind] using hguard

lemma goes_admin {δ : φ → ProfileDB → ProfileDB → φ → Prop} {Q : φ → α → Prop}
    {c : ApiCall α} (hkeep : ∀ p s, δ p s s p)
    (h : ∀ payload, Accepts cfg token payload → ∃ q, (∀ s, δ p s s q) ∧
      ∀ email id, payload = .user email .admin id → Goes δ Q c q) :
    Goes δ Q (do let _ ← auth cfg [.admin] token; c) p := by
  refine goes_auth hkeep fun payload haccept => ?_
  obtain ⟨q, hpresent, hrun⟩ := h payload haccept
  refine ⟨q, hpresent, fun hpermit => ?_⟩
  cases payload with
  | registration userId => cases hpermit
  | user email role id =>
    rcases hpermit with hnone | hrole
    · cases hnone
    · rw [List.mem_singleton] at hrole
      exact hrun email id (by rw [hrole])

lemma goes_own {δ : φ → ProfileDB → ProfileDB → φ → Prop} {Q : φ → α → Prop} {f : Id → ApiCall α}
    (hkeep : ∀ p s, δ p s s p)
    (h : ∀ payload, Accepts cfg token payload → ∃ q, (∀ s, δ p s s q) ∧
      ∀ email role id, payload = .user email role id → Goes δ Q (f id) q) :
    Goes δ Q (do let id ← ownId (← auth cfg [] token); f id) p := by
  refine goes_auth hkeep fun payload haccept => ?_
  obtain ⟨q, hpresent, hrun⟩ := h payload haccept
  refine ⟨q, hpresent, fun _ => ?_⟩
  cases payload with
  | registration userId => trivial
  | user email role id => exact hrun email role id rfl

end Guards

/-! ### Services and pools -/

section Services

variable {α : Type} {s t : ProfileDB}

/-- Users have the same roles, statuses and passwords. -/
structure SameCredentials (s t : ProfileDB) : Prop where
  users : t.users = s.users
  password : ∀ u, (t.accounts.lookup u).map (·.password) = (s.accounts.lookup u).map (·.password)

lemma sameCredentials_refl : SameCredentials s s := ⟨rfl, fun _ => rfl⟩

lemma getUsers_steps : UsersService.getUsers.Steps SameCredentials :=
  steps_read _ fun _ => sameCredentials_refl

lemma findById_steps : (UsersService.findById id).Steps SameCredentials := by
  unfold UsersService.findById
  refine Steps.bind (steps_read _ fun _ => sameCredentials_refl) fun found => ?_
  rcases found with _ | ⟨user, account⟩
  · exact steps_throw _
  refine Steps.bind ?_ fun _ => steps_pure _
  have hinfo : (findStudentInfo id user).Steps fun s t => t = s :=
    findStudentInfo_steps (G := fun s t => t = s) fun _ => rfl
  have hprofiles : (onProfiles (findStudentInfo id user)).Steps fun s t => t = s :=
    hinfo.zoom fun s t h => by rw [h]; rfl
  exact hprofiles.zoom fun s t h => by rw [h]; exact sameCredentials_refl

lemma patchAccount_password {data : UpdateStudentDto} {photoUrl : Arg String} :
    ((s.accounts.modify id (UsersService.patchAccount data photoUrl)).lookup u).map (·.password) =
      (s.accounts.lookup u).map (·.password) := by
  rw [Table.lookup_modify]
  split
  · next hu =>
    subst hu
    rcases s.accounts.lookup u <;> rfl
  · rfl

lemma updateStudentById_steps {data : UpdateStudentDto} {avatar : Option String} :
    (UsersService.updateStudentById id data avatar).Steps SameCredentials := by
  unfold UsersService.updateStudentById
  refine Steps.bind (steps_read _ fun _ => sameCredentials_refl) fun found => ?_
  refine (steps_throwIf _ _).bind fun _ => ?_
  refine Steps.bind ?_ fun photoUrl => ?_
  · cases avatar with
    | none => exact steps_pure _
    | some avatar =>
      refine steps_atomic (fun i s a t h => ?_) fun _ => sameCredentials_refl
      split at h
      · cases h
      · cases h
        exact sameCredentials_refl
  refine Steps.bind (steps_atomic (fun i s a t h => ?_) fun _ => sameCredentials_refl) ?_
  · obtain ⟨t₁, hupdate, h⟩ := ok_of_bind h
    obtain ⟨-, rfl⟩ := AuthDB.updateAccountRow_ok hupdate
    split at h
    · cases h
    · cases h
      exact ⟨rfl, fun u => patchAccount_password⟩
  rintro ⟨user, account⟩
  refine Steps.ite (fun _ => ?_) fun _ => steps_pure _
  refine Steps.bind (steps_atomic (fun i s a t h => ?_) fun _ => sameCredentials_refl)
    fun _ => steps_pure _
  dsimp only at h
  split at h
  · cases h
  · cases h
    exact ⟨rfl, fun _ => rfl⟩

lemma setPassword_ok {f : UserAccount → UserAccount} {a : Unit}
    (h : (s.updateAccountRow id f).map (fun t => ((), { s with toAuthDB := t })) = .ok (a, t)) :
    id ∈ s.accounts ∧ t = { s with accounts := s.accounts.modify id f } := by
  rcases hupdate : s.updateAccountRow id f with e | t₁
  · simp [hupdate, Except.map] at h
  · obtain ⟨hid, rfl⟩ := AuthDB.updateAccountRow_ok hupdate
    simp only [hupdate, Except.map, Except.ok.injEq, Prod.mk.injEq, true_and] at h
    exact ⟨hid, h.symm⟩

/-- A request to another service takes the steps of its call on the tables of sign-in. -/
lemma otherService_steps {cfg : Config} {r : AccountRequest} {G : AuthDB → AuthDB → Prop}
    {G' : ProfileDB → ProfileDB → Prop}
    (h : ((r.call cfg).zoom authLens AuthInput.toInput).Steps G)
    (hG : ∀ (s : ProfileDB) (t : AuthDB), G s.toAuthDB t → G' s { s with toAuthDB := t }) :
    (otherService cfg r).Steps G' := by
  have hprofiles : (onProfiles ((r.call cfg).zoom authLens AuthInput.toInput)).Steps G' :=
    h.zoom fun t s => hG s t
  exact hprofiles.zoom fun _ _ h => h

end Services

lemma request_of_change {requests : List ApiRequest} {s : ProfileDB}
    {sched : List (ℕ × ApiInput)} {n : ℕ} (hn : n < sched.length)
    (hchange : (before s (apiCalls cfg requests) sched (n + 1)).1 ≠
      (before s (apiCalls cfg requests) sched n).1) :
    ∃ k r, Turn sched k n ∧ requests[k]? = some r := by
  obtain ⟨k, hk, hturn⟩ := turn_of_change hn hchange
  rw [apiCalls, List.length_map] at hk
  exact ⟨k, _, hturn, List.getElem?_eq_getElem hk⟩

end TsaBackend.EndpointSteps
