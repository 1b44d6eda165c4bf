import Mathlib

/-!
# JSON web tokens

Only the subject is a required claim of a token, so a token that does not carry an expiry, an
issuer or an audience passes the checks of these claims.

## Implementation notes

The library is a parameter. It checks the signature and the required claims, and expiry,
issuer and audience where a token carries them.
-/

namespace TeoDB.Api

inductive StringOrVec where
  | single (value : String)
  | multiple (values : List String)

def StringOrVec.values : StringOrVec → List String
  | .single value => [value]
  | .multiple values => values

/-- A claim that only texts are taken from. -/
inductive ClaimValue where
  | string (text : String)
  | other

structure TeoClaims where
  sub : String
  iss : Option String
  aud : Option StringOrVec
  exp : Option Nat
  roles : List String
  extra : List (String × ClaimValue)

inductive SpecClaim where
  | sub
  | iss
  | aud
  | exp

def TeoClaims.has (claims : TeoClaims) : SpecClaim → Bool
  | .sub => true
  | .iss => claims.iss.isSome
  | .aud => claims.aud.isSome
  | .exp => claims.exp.isSome

structure Principal where
  subject : String
  roles : List String
  claims : List (String × String)

structure JwtValidatorConfig (A : Type) where
  issuer : Option String
  audience : Option String
  algorithms : List A
  requireExp : Bool

structure Validation (A : Type) where
  algorithms : List A
  iss : Option (List String)
  aud : Option (List String)
  requiredSpecClaims : List SpecClaim
  validateExp : Bool

variable {K A : Type}

/-- The checks of claims; `passed` says which times have passed. -/
def Validation.accepts (passed : Nat → Bool) (v : Validation A) (claims : TeoClaims) : Bool :=
  v.requiredSpecClaims.all claims.has && (!v.validateExp || claims.exp.all (!passed ·)) &&
    v.iss.all (fun allowed => claims.iss.all (allowed.contains ·)) &&
    v.aud.all fun allowed => claims.aud.all (·.values.any (allowed.contains ·))

inductive DecodeError where
  | expiredSignature
  | other

structure JsonWebToken (K A : Type) where
  decode : String → K → Validation A → Except DecodeError TeoClaims
  /-- The claims of a token that is correctly signed. -/
  signed : String → K → List A → Option TeoClaims
  passed : Nat → Bool

def JsonWebToken.Lawful (lib : JsonWebToken K A) : Prop :=
  ∀ token key v claims, lib.decode token key v = .ok claims →
    lib.signed token key v.algorithms = some claims ∧ v.accepts lib.passed claims = true

structure JwtValidator (K A : Type) where
  config : JwtValidatorConfig A
  decodingKey : Option K

inductive JwtValidationFailure where
  | expired
  | invalid
  | validatorUnavailable

namespace JwtValidator

variable (lib : JsonWebToken K A) (validator : JwtValidator K A)

/-- What the validator asks for, after all that `Validation::new` sets is replaced. -/
def validation : Validation A where
  algorithms := validator.config.algorithms
  iss := validator.config.issuer.map ([·])
  aud := validator.config.audience.map ([·])
  requiredSpecClaims := [.sub]
  validateExp := validator.config.requireExp

def validateClassified (token : String) : Except JwtValidationFailure Principal :=
  match validator.decodingKey with
  | none => .error .validatorUnavailable
  | some key =>
    match lib.decode token key validator.validation with
    | .error .expiredSignature => .error .expired
    | .error .other => .error .invalid
    | .ok claims => .ok ⟨claims.sub, claims.roles, claims.extra.filterMap fun e =>
        match e.2 with
        | .string text => some (e.1, text)
        | .other => none⟩

/-- The claims that a principal should stand for. -/
structure Complete (claims : TeoClaims) (principal : Principal) : Prop where
  sub : claims.sub = principal.subject
  exp : validator.config.requireExp = true → ∃ time ∈ claims.exp, lib.passed time = false
  iss : ∀ issuer ∈ validator.config.issuer, ∃ iss ∈ claims.iss, iss = issuer
  aud : ∀ audience ∈ validator.config.audience, ∃ aud ∈ claims.aud, audience ∈ aud.values

/-- The claims that the configuration is about are there. -/
def Carries (claims : TeoClaims) : Prop :=
  (validator.config.requireExp = true → claims.exp.isSome = true) ∧
  (∀ issuer ∈ validator.config.issuer, claims.iss.isSome = true) ∧
  ∀ audience ∈ validator.config.audience, claims.aud.isSome = true

lemma exists_mem_iff {α : Type} {o : Option α} {P : α → Prop} (h : ∀ a ∈ o, P a) :
    (∃ a ∈ o, P a) ↔ o.isSome = true := by
  cases o <;> simp_all

variable {lib validator}

/-- The claims of an accepted token are signed, and complete exactly if it has those of the
configuration. -/
theorem accepted_complete_iff (hlib : lib.Lawful) {token : String} {principal : Principal}
    (h : validator.validateClassified lib token = .ok principal) :
    ∃ key ∈ validator.decodingKey, ∃ claims ∈ lib.signed token key validator.config.algorithms,
      validator.Complete lib claims principal ↔ validator.Carries claims := by
  unfold validateClassified at h
  split at h
  · cases h
  · rename_i key hkey
    split at h
    · cases h
    · cases h
    · rename_i claims hdec
      cases h
      obtain ⟨hsig, hacc⟩ := hlib _ _ _ _ hdec
      refine ⟨key, hkey, claims, hsig, ?_⟩
      simp only [Validation.accepts, validation, Bool.and_eq_true] at hacc
      obtain ⟨⟨⟨_, hexp⟩, hiss⟩, haud⟩ := hacc
      have he (hr : validator.config.requireExp = true) :
          ∀ t ∈ claims.exp, lib.passed t = false := by
        simpa [hr, Option.all_eq_true] using hexp
      have hi : ∀ issuer ∈ validator.config.issuer, ∀ iss ∈ claims.iss, iss = issuer := by
        simpa [Option.all_eq_true] using hiss
      have ha : ∀ audience ∈ validator.config.audience, ∀ aud ∈ claims.aud,
          audience ∈ aud.values := by
        simpa [Option.all_eq_true] using haud
      constructor
      · intro h
        exact ⟨fun hr => (exists_mem_iff (he hr)).mp (h.exp hr),
          fun i hm => (exists_mem_iff (hi i hm)).mp (h.iss i hm),
          fun a hm => (exists_mem_iff (ha a hm)).mp (h.aud a hm)⟩
      · intro h
        exact ⟨rfl, fun hr => (exists_mem_iff (he hr)).mpr (h.1 hr),
          fun i hm => (exists_mem_iff (hi i hm)).mpr (h.2.1 i hm),
          fun a hm => (exists_mem_iff (ha a hm)).mpr (h.2.2 a hm)⟩

/-- Every token is signed and carries the claims. -/
def plainJwt (claims : TeoClaims) : JsonWebToken Unit Unit where
  decode _ _ v := if v.accepts (· < 100) claims then .ok claims else .error .other
  signed _ _ _ := some claims
  passed := (· < 100)

lemma plainJwt_lawful (claims : TeoClaims) : (plainJwt claims).Lawful := by
  intro token key v got h
  simp only [plainJwt] at h ⊢
  split at h
  · rename_i hacc
    cases h
    exact ⟨rfl, hacc⟩
  · cases h

/-- Every claim is asked for. -/
def strict : JwtValidator Unit Unit := ⟨⟨some "teo", some "db", [()], true⟩, some ()⟩

def fullClaims : TeoClaims := ⟨"ada", some "teo", some (.single "db"), some 200, [], []⟩

theorem accepted_complete_iff_strict :
    ∃ key ∈ strict.decodingKey, ∃ claims ∈ (plainJwt fullClaims).signed "" key [()],
      strict.Complete (plainJwt fullClaims) claims ⟨"ada", [], []⟩ ↔ strict.Carries claims :=
  have h : strict.validateClassified (plainJwt fullClaims) "" = .ok ⟨"ada", [], []⟩ := rfl
  accepted_complete_iff (plainJwt_lawful _) h

def subjectOnly : TeoClaims := ⟨"ada", none, none, none, [], []⟩

/-- A token with nothing but a subject is accepted. -/
theorem subject_alone_accepted :
    strict.validateClassified (plainJwt subjectOnly) "" = .ok ⟨"ada", [], []⟩ ∧
      ¬ strict.Complete (plainJwt subjectOnly) subjectOnly ⟨"ada", [], []⟩ :=
  ⟨rfl, fun h => by simpa [subjectOnly] using h.exp rfl⟩

end JwtValidator

end TeoDB.Api
