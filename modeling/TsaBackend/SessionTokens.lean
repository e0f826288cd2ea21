import TsaBackend.Sessions

/-!
What the deployment promises about signed tokens, and a small deployment that keeps it.

The secret signs every kind of token: those of a session, those of a registration, and the
empty ones that a refresh makes of the latter.
-/

namespace TsaBackend

/-- Tokens are functions of the text of their claims, their second of issue and their lifetime, and
are accepted until they expire. -/
structure SigningLaws (cfg : SessionConfig) : Prop where
  verify_sign : ∀ order payload iat life now,
    cfg.jwtVerify (cfg.jwtSign order payload iat life) now =
      if now < iat + life then some payload else none
  sign_inj : ∀ order payload iat life order' payload' iat' life',
    cfg.jwtSign order payload iat life = cfg.jwtSign order' payload' iat' life' →
      order = order' ∧ payload = payload' ∧ iat = iat' ∧ life = life'

/-- Moreover exactly the signed tokens are accepted. -/
structure JwtLaws (cfg : SessionConfig) : Prop extends SigningLaws cfg where
  sign_ne_empty : ∀ order payload iat life iat' life',
    cfg.jwtSign order payload iat life ≠ cfg.jwtSignEmpty iat' life'
  signed : ∀ token now payload, cfg.jwtVerify token now = some payload →
    ∃ order iat life, token = cfg.jwtSign order payload iat life

namespace JwtLaws

variable {cfg : SessionConfig} {order : ClaimOrder} {payload payload' : JwtPayload}
  {iat life now : ℕ}

lemma payload_of_verify (laws : JwtLaws cfg)
    (h : cfg.jwtVerify (cfg.jwtSign order payload iat life) now = some payload') :
    payload' = payload ∧ now < iat + life := by
  rw [laws.verify_sign] at h
  split at h
  · next hnow => exact ⟨(Option.some.inj h).symm, hnow⟩
  · cases h

end JwtLaws

/-! ### Tokens as text -/

namespace TextTokens

/-- A number in front of the text. -/
def field (n : ℕ) (rest : List Char) : List Char := Nat.toDigits 10 n ++ '.' :: rest

/-- The number in front of the text, and what follows. -/
def readField (text : List Char) : ℕ × List Char :=
  (Nat.ofDigitChars 10 (text.takeWhile (· ≠ '.')) 0, (text.dropWhile (· ≠ '.')).tail)

@[simp] lemma readField_field (n : ℕ) (rest : List Char) :
    readField (field n rest) = (n, rest) := by
  have hdot : ∀ c ∈ Nat.toDigits 10 n, decide (c ≠ '.') = true := by
    intro c hc
    have hdigit := Nat.isDigit_of_mem_toDigits (by omega) (by omega) hc
    refine decide_eq_true fun heq => ?_
    rw [heq] at hdigit
    exact absurd hdigit (by decide)
  have htake : (field n rest).takeWhile (· ≠ '.') = Nat.toDigits 10 n := by
    rw [field, List.takeWhile_append_of_pos hdot]
    simp
  have hdrop : (field n rest).dropWhile (· ≠ '.') = '.' :: rest := by
    rw [field, List.dropWhile_append_of_pos hdot]
    simp
  rw [readField, htake, hdrop, Nat.ofDigitChars_ten_toDigits]
  rfl

/-- The kind of a token, its user and its address. -/
def payloadText : Option JwtPayload → List Char
  | some (.user email .admin id) => field 0 (field id email.toList)
  | some (.user email .student id) => field 1 (field id email.toList)
  | some (.user email .staff id) => field 2 (field id email.toList)
  | some (.registration userId) => field 3 (field userId [])
  | none => field 4 []

def readPayload (text : List Char) : Option JwtPayload :=
  let (kind, text) := readField text
  let (id, email) := readField text
  match kind with
  | 0 => some (.user (String.ofList email) .admin id)
  | 1 => some (.user (String.ofList email) .student id)
  | 2 => some (.user (String.ofList email) .staff id)
  | 3 => some (.registration id)
  | _ => none

@[simp] lemma readPayload_text (payload : Option JwtPayload) :
    readPayload (payloadText payload) = payload := by
  rcases payload with _ | ⟨email, _ | _ | _, id⟩ | userId
  all_goals simp [readPayload, payloadText]

def orderText : ClaimOrder → ℕ
  | .roleFirst => 0
  | .idFirst => 1

def readOrder : ℕ → ClaimOrder
  | 0 => .roleFirst
  | _ => .idFirst

@[simp] lemma readOrder_text (order : ClaimOrder) : readOrder (orderText order) = order := by
  cases order <;> rfl

/-- The second of issue, the lifetime, the order of the claims and the claims. -/
def text (order : ClaimOrder) (payload : Option JwtPayload) (iat life : ℕ) : String :=
  String.ofList (field iat (field life (field (orderText order) (payloadText payload))))

def read (token : String) : ClaimOrder × Option JwtPayload × ℕ × ℕ :=
  let (iat, text) := readField token.toList
  let (life, text) := readField text
  let (order, text) := readField text
  (readOrder order, readPayload text, iat, life)

@[simp] lemma read_text (order : ClaimOrder) (payload : Option JwtPayload) (iat life : ℕ) :
    read (text order payload iat life) = (order, payload, iat, life) := by
  simp [read, text]

lemma text_inj {order order' : ClaimOrder} {payload payload' : Option JwtPayload}
    {iat iat' life life' : ℕ} (h : text order payload iat life = text order' payload' iat' life') :
    order = order' ∧ payload = payload' ∧ iat = iat' ∧ life = life' := by
  simpa using congrArg read h

/-- Only a text that is written like one is accepted. -/
def verify (token : String) (now : ℕ) : Option JwtPayload :=
  let (order, payload, iat, life) := read token
  if token = text order payload iat life ∧ now < iat + life then payload else none

end TextTokens

open TextTokens in
/-- Tokens that can be read, and one answer of Google. -/
def Sample.sessionConfig : SessionConfig where
  toConfig := Sample.config
  jwtSign order payload iat life := text order (some payload) iat life
  jwtVerify := verify
  jwtSignEmpty iat life := text .roleFirst none iat life
  bcryptHash password _ := password
  bcryptCompare password hash := password = hash
  verifyIdToken idToken _ := some ⟨some idToken, some "A B", none⟩
  appUrl := "app"
  mobileUrlCompleteSignup := "mobile"
  frontendUrlCompleteSignup := "web"

open TextTokens in
/-- Texts keep what tokens promise. -/
theorem Sample.sessionConfig_laws : JwtLaws Sample.sessionConfig where
  verify_sign order payload iat life now := by
    change verify (text _ _ _ _) _ = _
    simp [verify]
  sign_inj order payload iat life order' payload' iat' life' h := by
    obtain ⟨horder, hpayload, hiat, hlife⟩ := text_inj h
    exact ⟨horder, Option.some.inj hpayload, hiat, hlife⟩
  sign_ne_empty order payload iat life iat' life' h := by
    obtain ⟨-, hpayload, -⟩ := text_inj h
    cases hpayload
  signed token now payload h := by
    change verify token now = some payload at h
    unfold verify at h
    split at h
    next order payload' iat life _ =>
    split at h
    · next htext => exact ⟨order, iat, life, by rw [htext.1, h]; rfl⟩
    · cases h

end TsaBackend
