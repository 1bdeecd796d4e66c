import Backit.Lib.Base64Url
import Backit.Lib.JsonText
import Backit.Lib.Numerals
import Backit.Lib.Transition

/-!
# Signing in with a Stellar key

The service hands out a challenge for an address, and a token for the signature of the challenge's
message. A token is a header and a payload in base64 and their authentication code. Any party can
send any request at any time.
-/

namespace Backit.Auth

open Lib

structure NonceEntry where
  nonce : String
  expiresAt : Nat
  deriving DecidableEq

abbrev AuthState := String → Option NonceEntry

/-- What a token says. -/
structure Claims where
  sub : String
  iat : Nat
  exp : Nat
  deriving DecidableEq

/-- The requests, with the times that each one reads, and the signatures that are made elsewhere. -/
inductive Request where
  | generateChallenge (address random : String) (now now' : Nat)
  | verifySignature (address signature : String) (now now' : Nat)
  | validateToken (token : List Char) (now : Nat)
  | sign (key : List UInt8) (message : String)
  deriving DecidableEq

inductive Response where
  | challenge (nonce message : String)
  | accessToken (token : List Char)
  | session (sub : String) (iat exp : Numeral)
  | signed
  | badRequest (message : String)
  | unauthorized (message : String)
  deriving DecidableEq

abbrev Label := Request × Response

def nonceTtlMs : Nat := 5 * 60 * 1000

def isBase32 (c : Char) : Bool := ('A' ≤ c && c ≤ 'Z') || ('2' ≤ c && c ≤ '7')

/-- The address is a `G` and 54 or 55 characters of base 32. -/
def validStellarAddress (address : String) : Bool :=
  match address.toList with
  | 'G' :: rest => (rest.length == 54 || rest.length == 55) && rest.all isBase32
  | _ => false

def messageOf (nonce : String) : String :=
  "Sign this message to authenticate with BACKit:\n" ++ nonce

def hexDigitValue (c : Char) : Option Nat :=
  if '0' ≤ c ∧ c ≤ '9' then some (c.toNat - 48)
  else if 'a' ≤ c ∧ c ≤ 'f' then some (c.toNat - 87)
  else if 'A' ≤ c ∧ c ≤ 'F' then some (c.toNat - 55)
  else none

/-- `Buffer.from(text, 'hex')`, up to the first pair that is no byte. -/
def hexBytes : List Char → List UInt8
  | high :: low :: rest =>
    match hexDigitValue high, hexDigitValue low with
    | some high, some low => UInt8.ofNat (16 * high + low) :: hexBytes rest
    | _, _ => []
  | _ => []

/-- A member of an object; nothing else has members. -/
def field (name : String) : Json → Option Json
  | .obj members => (members.find? (·.1 = name)).map (·.2)
  | _ => none

def Claims.json (claims : Claims) : Json :=
  .obj [("sub", .str claims.sub), ("iat", .num (.ofNat claims.iat)),
    ("exp", .num (.ofNat claims.exp))]

/-- The bytes of the text of a value, which is ASCII as the address is. -/
def jsonBytes (value : Json) : List UInt8 := value.text.map fun c => UInt8.ofNat c.toNat

/-- The claims of a token for an address. -/
def claimsAt (address : String) (now : Nat) : Claims := ⟨address, now / 1000, now / 1000 + 86400⟩

def tokenHeader : List Char :=
  Base64Url.encode (jsonBytes (.obj [("alg", .str "HS256"), ("typ", .str "JWT")]))

def tokenBody (claims : Claims) : List Char := Base64Url.encode (jsonBytes claims.json)

/-- The text that the service computes the code of. -/
def signingInput (claims : Claims) : List Char := tokenHeader ++ '.' :: tokenBody claims

section Service

-- The authentication code under the service's secret, `JSON.parse` of the text of bytes, the key of
-- an address, and the verification of a signature, which throws for a wrong length.
variable (hmac : List Char → List UInt8) (parse : List UInt8 → Option Json)
  (decodeKey : String → Option (List UInt8))
  (verify : String → List UInt8 → List UInt8 → Option Bool)

def hmacSign (data : List Char) : List Char := Base64Url.encode (hmac data)

def createJwt (claims : Claims) : List Char :=
  signingInput claims ++ '.' :: hmacSign hmac (signingInput claims)

def generateChallenge (address random : String) (now now' : Nat) (s : AuthState) :
    Response × AuthState :=
  if !validStellarAddress address then (.badRequest "Invalid Stellar address format", s)
  else
    let nonce := "backit-auth-" ++ toString now ++ "-" ++ random
    (.challenge nonce (messageOf nonce),
      Function.update s address (some ⟨nonce, now' + nonceTtlMs⟩))

def verifySignature (address signature : String) (now now' : Nat) (s : AuthState) :
    Response × AuthState :=
  if !validStellarAddress address then (.badRequest "Invalid Stellar address format", s)
  else
    match s address with
    | none => (.unauthorized "No pending challenge for this address", s)
    | some entry =>
      if entry.expiresAt < now then
        (.unauthorized "Challenge expired. Request a new one.", Function.update s address none)
      else
        match (decodeKey address).bind
          (verify (messageOf entry.nonce) (hexBytes signature.toList)) with
        | none => (.unauthorized "Signature verification failed", s)
        | some false => (.unauthorized "Invalid signature", s)
        | some true =>
          (.accessToken (createJwt hmac (claimsAt address now')), Function.update s address none)

/-- The claims of the payload of a token, as far as they have the expected types. -/
def readClaims (value : Json) : Option (String × Numeral × Numeral) :=
  match field "exp" value, field "sub" value, field "iat" value with
  | some (.num exp), some (.str sub), some (.num iat) => some (sub, iat, exp)
  | _, _, _ => none

def validateToken (token : List Char) (now : Nat) : Response :=
  match token.splitOn '.' with
  | header :: payload :: sig :: _ =>
    if header = [] ∨ payload = [] ∨ sig = [] then .unauthorized "Invalid or expired token"
    else if hmacSign hmac (header ++ '.' :: payload) ≠ sig then
      .unauthorized "Invalid or expired token"
    else
      match (parse (Base64Url.decode payload)).bind readClaims with
      | none => .unauthorized "Invalid or expired token"
      | some (sub, iat, exp) =>
        if exp.below (now / 1000) then .unauthorized "Invalid or expired token"
        else .session sub iat exp
  | _ => .unauthorized "Invalid or expired token"

def perform (s : AuthState) : Request → Response × AuthState
  | .generateChallenge address random now now' => generateChallenge address random now now' s
  | .verifySignature address signature now now' =>
    verifySignature hmac decodeKey verify address signature now now' s
  | .validateToken token now => (validateToken hmac parse token now, s)
  | .sign _ _ => (.signed, s)

/-- The service among any parties, and what was asked and answered so far. -/
def authSystem : System AuthState Label where
  initial s := s = fun _ => none
  step s l s' := perform hmac parse decodeKey verify s l.1 = (l.2, s')

end Service

/-- The latest challenge of an address, and when it was generated. -/
def latestChallenge (address : String) : List Label → Option (String × Nat)
  | [] => none
  | (.generateChallenge other _ _ now', .challenge nonce _) :: earlier =>
    if other = address then some (nonce, now') else latestChallenge address earlier
  | _ :: earlier => latestChallenge address earlier

/-- A token was issued for an address since its latest challenge. -/
def tokenSince (address : String) : List Label → Bool
  | [] => false
  | (.generateChallenge other _ _ _, .challenge _ _) :: earlier =>
    if other = address then false else tokenSince address earlier
  | (.verifySignature other _ _ _, .accessToken _) :: earlier =>
    if other = address then true else tokenSince address earlier
  | _ :: earlier => tokenSince address earlier

/-- A token was issued with these claims. -/
def Issued (history : List Label) (claims : Claims) (token : List Char) : Prop :=
  ∃ address signature now now',
    (.verifySignature address signature now now', .accessToken token) ∈ history ∧
      claims = claimsAt address now'

section Statement

variable (hmac : List Char → List UInt8) (parse : List UInt8 → Option Json)
  (decodeKey : String → Option (List UInt8))
  (verify : String → List UInt8 → List UInt8 → Option Bool)

/-- Nobody forges: a signature of the message at hand that verifies was made with its key, and a
token whose code is right has the text of one that was issued. -/
def Unforged : System.Guard AuthState Label := fun earlier s l =>
  match l.1 with
  | .verifySignature address signature _ _ =>
    ∀ entry key, s address = some entry → decodeKey address = some key →
      verify (messageOf entry.nonce) (hexBytes signature.toList) key = some true →
        (.sign key (messageOf entry.nonce), .signed) ∈ earlier
  | .validateToken token _ =>
    ∀ header payload sig rest, token.splitOn '.' = header :: payload :: sig :: rest →
      hmacSign hmac (header ++ '.' :: payload) = sig →
        ∃ claims issued, Issued earlier claims issued ∧
          header ++ '.' :: payload = signingInput claims
  | _ => True

/-- The payloads of the issued tokens are read back. -/
def ReadsBack (history : List Label) : Prop :=
  ∀ claims token, Issued history claims token → parse (jsonBytes claims.json) = some claims.json

/-- A token for an address was issued for a signature of the message of its latest challenge, which
was made with the key of the address, within five minutes and for the first time. -/
structure IssuedFairly (earlier : List Label) (address signature : String) (now : Nat) : Prop where
  signed : ∃ key nonce generatedAt, decodeKey address = some key ∧
    latestChallenge address earlier = some (nonce, generatedAt) ∧
    verify (messageOf nonce) (hexBytes signature.toList) key = some true ∧
    (.sign key (messageOf nonce), .signed) ∈ earlier ∧
    now ≤ generatedAt + 5 * 60 * 1000
  once : tokenSince address earlier = false

/-- A session is that of a token with the same three parts, issued for the address and not
expired. -/
def AcceptedFairly (earlier : List Label) (token : List Char) (now : Nat) (sub : String)
    (iat exp : Numeral) : Prop :=
  ∃ claims issued, Issued earlier claims issued ∧
    (token.splitOn '.').take 3 = issued.splitOn '.' ∧
    sub = claims.sub ∧ iat = .ofNat claims.iat ∧ exp = .ofNat claims.exp ∧
    now / 1000 ≤ claims.exp

/-- What the answer to a request promises. -/
def AnsweredFairly (earlier : List Label) : Label → Prop
  | (.verifySignature address signature now _, .accessToken _) =>
    IssuedFairly decodeKey verify earlier address signature now
  | (.validateToken token now, .session sub iat exp) => AcceptedFairly earlier token now sub iat exp
  | _ => True

/-- Only the holders of the keys get sessions. -/
def OnlyKeyHolders (history : List Label) : Prop :=
  ∀ later l earlier, history = later ++ l :: earlier → AnsweredFairly decodeKey verify earlier l

end Statement

section Tokens

variable {hmac : List Char → List UInt8} {parse : List UInt8 → Option Json}

/-- The parts of a text that is split have no separator. -/
theorem separator_not_mem {c : Char} {text part : List Char} (h : part ∈ text.splitOn c) :
    c ∉ part := by
  induction text generalizing part with
  | nil =>
    rw [List.splitOn_nil, List.mem_singleton] at h
    simp [h]
  | cons first text ih =>
    rw [List.splitOn_cons_eq_if_modifyHead] at h
    split at h
    · next hfirst =>
      obtain rfl | hrest := List.mem_cons.mp h
      · exact List.not_mem_nil
      · exact ih hrest
    · next hfirst =>
      obtain ⟨head, rest, hsplit⟩ := List.exists_cons_of_ne_nil (List.splitOn_ne_nil c text)
      rw [hsplit] at h ih
      obtain rfl | hrest := List.mem_cons.mp h
      · rw [List.mem_cons]
        rintro (rfl | hmem)
        · simp at hfirst
        · exact ih List.mem_cons_self hmem
      · exact ih (List.mem_cons_of_mem _ hrest)

theorem dot_not_mem_encode {bytes : List UInt8} : '.' ∉ Base64Url.encode bytes := by
  intro h
  exact absurd (Base64Url.mem_encode h) (by decide)

theorem dot_not_mem_header : '.' ∉ tokenHeader := dot_not_mem_encode

theorem dot_not_mem_body (claims : Claims) : '.' ∉ tokenBody claims := dot_not_mem_encode

theorem splitOn_createJwt (claims : Claims) : (createJwt hmac claims).splitOn '.' =
    [tokenHeader, tokenBody claims, hmacSign hmac (signingInput claims)] := by
  rw [createJwt, signingInput, List.append_assoc, List.cons_append,
    List.splitOn_append_cons_self_of_not_mem dot_not_mem_header,
    List.splitOn_append_cons_self_of_not_mem (dot_not_mem_body claims)]
  exact congrArg _ (congrArg _ (List.splitOn_eq_singleton dot_not_mem_encode))

/-- A text with the code's input of a token has the token's header and body. -/
theorem parts_of_signingInput {claims : Claims} {header payload : List Char}
    (hheader : '.' ∉ header) (hpayload : '.' ∉ payload)
    (h : header ++ '.' :: payload = signingInput claims) :
    header = tokenHeader ∧ payload = tokenBody claims := by
  have hsplit := congrArg (List.splitOn '.') h
  rw [signingInput, List.splitOn_append_cons_self_of_not_mem hheader,
    List.splitOn_append_cons_self_of_not_mem dot_not_mem_header,
    List.splitOn_eq_singleton hpayload, List.splitOn_eq_singleton (dot_not_mem_body claims)] at hsplit
  simpa using hsplit

theorem readClaims_json (claims : Claims) :
    readClaims claims.json = some (claims.sub, .ofNat claims.iat, .ofNat claims.exp) := rfl

theorem validateToken_cases (token : List Char) (now : Nat) :
    (∃ message, validateToken hmac parse token now = .unauthorized message) ∨
      ∃ sub iat exp, validateToken hmac parse token now = .session sub iat exp := by
  unfold validateToken
  split
  · split
    · exact .inl ⟨_, rfl⟩
    · split
      · exact .inl ⟨_, rfl⟩
      · split
        · exact .inl ⟨_, rfl⟩
        · split
          · exact .inl ⟨_, rfl⟩
          · exact .inr ⟨_, _, _, rfl⟩
  · exact .inl ⟨_, rfl⟩

theorem validateToken_session {token : List Char} {now : Nat} {sub : String} {iat exp : Numeral}
    (h : validateToken hmac parse token now = .session sub iat exp) :
    ∃ header payload sig rest, token.splitOn '.' = header :: payload :: sig :: rest ∧
      hmacSign hmac (header ++ '.' :: payload) = sig ∧
      (parse (Base64Url.decode payload)).bind readClaims = some (sub, iat, exp) ∧
      exp.below (now / 1000) = false := by
  unfold validateToken at h
  split at h
  · next header payload sig rest hsplit =>
    split at h
    · cases h
    · split at h
      · cases h
      · next hcode =>
        split at h
        · cases h
        · next hclaims =>
          split at h
          · cases h
          · next hfresh =>
            cases h
            exact ⟨header, payload, sig, rest, hsplit, not_not.mp hcode, hclaims,
              Bool.eq_false_iff.mpr hfresh⟩
  · cases h

end Tokens

section Runs

variable {hmac : List Char → List UInt8} {parse : List UInt8 → Option Json}
  {decodeKey : String → Option (List UInt8)}
  {verify : String → List UInt8 → List UInt8 → Option Bool}
  {history : List Label} {s s' : AuthState} {l : Label}

/-- A pending challenge is the latest one of its address, and no token was issued for it. -/
def Pending (history : List Label) (address : String) (entry : NonceEntry) : Prop :=
  ∃ generatedAt, latestChallenge address history = some (entry.nonce, generatedAt) ∧
    entry.expiresAt = generatedAt + nonceTtlMs ∧ tokenSince address history = false

/-- The nonces are pending challenges. -/
def NoncesPending (history : List Label) (s : AuthState) : Prop :=
  ∀ address entry, s address = some entry → Pending history address entry

/-- A step that answers neither a challenge nor a token leaves what is pending. -/
theorem pending_cons {address : String} {entry : NonceEntry} (h : Pending history address entry)
    (hchallenge : ∀ nonce message, l.2 ≠ .challenge nonce message)
    (htoken : ∀ token, l.2 ≠ .accessToken token) : Pending (l :: history) address entry := by
  obtain ⟨request, response⟩ := l
  obtain ⟨generatedAt, hlatest, hexpires, hsince⟩ := h
  refine ⟨generatedAt, ?_, hexpires, ?_⟩
  · rw [← hlatest]
    cases response with
    | challenge nonce message => exact absurd rfl (hchallenge nonce message)
    | _ => cases request <;> rfl
  · rw [← hsince]
    cases response with
    | challenge nonce message => exact absurd rfl (hchallenge nonce message)
    | accessToken token => exact absurd rfl (htoken token)
    | _ => cases request <;> rfl

theorem noncesPending_cons (h : NoncesPending history s)
    (hchallenge : ∀ nonce message, l.2 ≠ .challenge nonce message)
    (htoken : ∀ token, l.2 ≠ .accessToken token) : NoncesPending (l :: history) s :=
  fun address entry hentry => pending_cons (h address entry hentry) hchallenge htoken

theorem noncesPending_delete (h : NoncesPending history s) (address : String) :
    NoncesPending history (Function.update s address none) := by
  intro other entry hentry
  by_cases hother : other = address
  · simp [hother] at hentry
  · rw [Function.update_of_ne hother] at hentry
    exact h other entry hentry

variable {now now' : Nat} {address signature : String} {guard : System.Guard AuthState Label}

theorem generate_pending {address random : String} {response : Response}
    (h : NoncesPending history s)
    (hstep : generateChallenge address random now now' s = (response, s')) :
    NoncesPending ((.generateChallenge address random now now', response) :: history) s' := by
  unfold generateChallenge at hstep
  split at hstep
  · cases hstep
    exact noncesPending_cons h (by simp) (by simp)
  · cases hstep
    intro other entry hentry
    by_cases hother : other = address
    · subst hother
      rw [Function.update_self] at hentry
      obtain rfl := Option.some.inj hentry
      exact ⟨now', by simp [latestChallenge], rfl, by simp [tokenSince]⟩
    · rw [Function.update_of_ne hother] at hentry
      obtain ⟨generatedAt, hlatest, hexpires, hsince⟩ := h other entry hentry
      refine ⟨generatedAt, ?_, hexpires, ?_⟩
      · simpa [latestChallenge, Ne.symm hother] using hlatest
      · simpa [tokenSince, Ne.symm hother] using hsince

/-- What a verification does: it refuses, or deletes an expired challenge, or issues a token. -/
theorem verifySignature_cases {response : Response}
    (hstep : verifySignature hmac decodeKey verify address signature now now' s = (response, s')) :
    ((∃ message, response = .badRequest message ∨ response = .unauthorized message) ∧
        (s' = s ∨ s' = Function.update s address none)) ∨
      ∃ entry key, s address = some entry ∧ now ≤ entry.expiresAt ∧
        decodeKey address = some key ∧
        verify (messageOf entry.nonce) (hexBytes signature.toList) key = some true ∧
        response = .accessToken (createJwt hmac (claimsAt address now')) ∧
        s' = Function.update s address none := by
  unfold verifySignature at hstep
  split at hstep
  · cases hstep
    exact .inl ⟨⟨_, .inl rfl⟩, .inl rfl⟩
  · split at hstep
    · cases hstep
      exact .inl ⟨⟨_, .inr rfl⟩, .inl rfl⟩
    · next entry hentry =>
      split at hstep
      · cases hstep
        exact .inl ⟨⟨_, .inr rfl⟩, .inr rfl⟩
      · next hfresh =>
        split at hstep
        · cases hstep
          exact .inl ⟨⟨_, .inr rfl⟩, .inl rfl⟩
        · cases hstep
          exact .inl ⟨⟨_, .inr rfl⟩, .inl rfl⟩
        · next hverified =>
          obtain ⟨key, hkey, hverify⟩ := Option.bind_eq_some_iff.mp hverified
          cases hstep
          exact .inr ⟨entry, key, hentry, Nat.le_of_not_lt hfresh, hkey, hverify, rfl, rfl⟩

theorem verify_pending {response : Response} (h : NoncesPending history s)
    (hstep : verifySignature hmac decodeKey verify address signature now now' s = (response, s')) :
    NoncesPending ((.verifySignature address signature now now', response) :: history) s' := by
  obtain ⟨⟨message, hresponse⟩, hstate⟩ | ⟨entry, key, -, -, -, -, rfl, rfl⟩ :=
    verifySignature_cases hstep
  · have hkept : NoncesPending history s' := by
      obtain rfl | rfl := hstate
      · exact h
      · exact noncesPending_delete h address
    refine noncesPending_cons hkept ?_ ?_ <;>
      obtain rfl | rfl := hresponse <;> simp
  · intro other entry hentry
    by_cases hother : other = address
    · simp [hother] at hentry
    · rw [Function.update_of_ne hother] at hentry
      obtain ⟨generatedAt, hlatest, hexpires, hsince⟩ := h other entry hentry
      refine ⟨generatedAt, hlatest, hexpires, ?_⟩
      simpa [tokenSince, Ne.symm hother] using hsince

theorem step_pending (h : NoncesPending history s)
    (hstep : (authSystem hmac parse decodeKey verify).step s l s') :
    NoncesPending (l :: history) s' := by
  obtain ⟨request, response⟩ := l
  cases request with
  | generateChallenge address random now now' => exact generate_pending h hstep
  | verifySignature address signature now now' => exact verify_pending h hstep
  | validateToken token now =>
    obtain ⟨rfl, rfl⟩ : validateToken hmac parse token now = response ∧ s = s' := Prod.mk.inj hstep
    obtain ⟨message, hcase⟩ | ⟨sub, iat, exp, hcase⟩ := @validateToken_cases hmac parse token now
    · exact noncesPending_cons h (by simp [hcase]) (by simp [hcase])
    · exact noncesPending_cons h (by simp [hcase]) (by simp [hcase])
  | sign key message =>
    cases hstep
    exact noncesPending_cons h (by simp) (by simp)

theorem pending_of_run
    (run : (authSystem hmac parse decodeKey verify).RunWhere guard history s) :
    NoncesPending history s := by
  refine run.invariant (fun start hstart => ?_) fun h s l s' _ hpending hstep _ =>
    step_pending hpending hstep
  obtain rfl : start = fun _ => none := hstart
  exact fun address entry hentry => by cases hentry

theorem issued_token
    (run : (authSystem hmac parse decodeKey verify).RunWhere guard history s) {claims : Claims}
    {token : List Char} (hissued : Issued history claims token) : token = createJwt hmac claims := by
  obtain ⟨address, signature, now, now', hmem, rfl⟩ := hissued
  obtain ⟨before, -, s', -, hstep, -⟩ := run.took_of_mem _ hmem
  obtain ⟨⟨message, hresponse | hresponse⟩, -⟩ | ⟨entry, key, -, -, -, -, hresponse, -⟩ :=
    verifySignature_cases hstep
  · cases hresponse
  · cases hresponse
  · exact Response.accessToken.inj hresponse

theorem issued_fairly {token : List Char} (hpending : NoncesPending history s)
    (hstep : verifySignature hmac decodeKey verify address signature now now' s =
      (.accessToken token, s'))
    (hunforged : Unforged hmac decodeKey verify history s
      (.verifySignature address signature now now', .accessToken token)) :
    IssuedFairly decodeKey verify history address signature now := by
  obtain ⟨⟨message, hresponse | hresponse⟩, -⟩ | ⟨entry, key, hentry, hfresh, hkey, hverify, -, -⟩ :=
    verifySignature_cases hstep
  · cases hresponse
  · cases hresponse
  · obtain ⟨generatedAt, hlatest, hexpires, hsince⟩ := hpending address entry hentry
    refine ⟨⟨key, entry.nonce, generatedAt, hkey, hlatest, hverify, ?_, ?_⟩, hsince⟩
    · exact hunforged entry key hentry hkey hverify
    · rw [hexpires] at hfresh
      exact hfresh

theorem accepted_fairly {token : List Char} {now : Nat} {sub : String} {iat exp : Numeral}
    (run : (authSystem hmac parse decodeKey verify).RunWhere guard history s)
    (hreads : ReadsBack parse history)
    (hstep : validateToken hmac parse token now = .session sub iat exp)
    (hunforged : Unforged hmac decodeKey verify history s
      (.validateToken token now, .session sub iat exp)) :
    AcceptedFairly history token now sub iat exp := by
  obtain ⟨header, payload, sig, rest, hsplit, hcode, hclaims, hfresh⟩ := validateToken_session hstep
  obtain ⟨claims, issued, hissued, hinput⟩ := hunforged header payload sig rest hsplit hcode
  have hheader : '.' ∉ header := separator_not_mem (by rw [hsplit]; exact List.mem_cons_self)
  have hpayload : '.' ∉ payload :=
    separator_not_mem (by rw [hsplit]; exact .tail _ List.mem_cons_self)
  obtain ⟨rfl, rfl⟩ := parts_of_signingInput hheader hpayload hinput
  have hread : parse (Base64Url.decode (tokenBody claims)) = some claims.json := by
    rw [tokenBody, Base64Url.decode_encode]
    exact hreads claims issued hissued
  rw [hread, Option.bind_some, readClaims_json] at hclaims
  cases hclaims
  rw [Numeral.below_ofNat, decide_eq_false_iff_not, Nat.not_lt] at hfresh
  refine ⟨claims, issued, hissued, ?_, rfl, rfl, rfl, hfresh⟩
  rw [issued_token run hissued, splitOn_createJwt, hsplit, ← hcode]
  rfl

theorem only_key_holders_cons (h : AnsweredFairly decodeKey verify history l)
    (hhistory : OnlyKeyHolders decodeKey verify history) :
    OnlyKeyHolders decodeKey verify (l :: history) := by
  intro later other earlier hsplit
  cases later with
  | nil =>
    obtain ⟨rfl, rfl⟩ := List.cons.inj hsplit
    exact h
  | cons first later =>
    obtain ⟨-, htail⟩ := List.cons.inj hsplit
    exact hhistory later other earlier htail

/-- In every run in which nobody forges, only the holders of the keys get sessions. -/
theorem only_key_holders_sign_in
    (run : (authSystem hmac parse decodeKey verify).RunWhere (Unforged hmac decodeKey verify)
      history s)
    (hreads : ReadsBack parse history) : OnlyKeyHolders decodeKey verify history := by
  revert hreads
  refine run.invariant
    (I := fun h _ => ReadsBack parse h → OnlyKeyHolders decodeKey verify h) ?_ ?_
  · intro start _ _ later l earlier hsplit
    simp at hsplit
  · intro h s l s' hrun ih hstep hunforged hreads
    have hearlier : ReadsBack parse h := by
      rintro claims token ⟨address, signature, now, now', hmem, hclaims⟩
      exact hreads claims token ⟨address, signature, now, now', .tail _ hmem, hclaims⟩
    refine only_key_holders_cons ?_ (ih hearlier)
    unfold AnsweredFairly
    split
    · exact issued_fairly (pending_of_run hrun) hstep hunforged
    · exact accepted_fairly hrun hearlier (Prod.mk.inj hstep).1 hunforged
    · trivial

end Runs

def aliceAddress : String := "GDLVVGABQKYQVN6VJP7NHSLEA45A5YLS6PNKMIZFV4BBU2HXA5IRVHUR"

def aliceKey : List UInt8 :=
  hexBytes "d75a980182b10ab7d54bfed3c964073a0ee172f3daa62325af021a68f707511a".toList

/-- Her signature of the message of the challenge below. -/
def aliceSignature : String :=
  "4392d8d3a2919a675519e428054bb4820e633bcfb54c8d0a03243d31e59a6a84" ++
    "67a7e068b58c993959bf437e91839d3be576563f20514aa02918e64bede28d0b"

def aliceMessage : String := messageOf "backit-auth-1767225600000-k3j9x2"

def decodeAlice (address : String) : Option (List UInt8) :=
  if address = aliceAddress then some aliceKey else none

/-- The one signature that is made. -/
def verifyAlice (message : String) (signature key : List UInt8) : Option Bool :=
  if signature.length = 64 ∧ key.length = 32 then
    some (message == aliceMessage && signature == hexBytes aliceSignature.toList && key == aliceKey)
  else none

def aliceClaims : Claims := claimsAt aliceAddress 1767225601000

/-- HMAC-SHA256 of the one token, under the secret that is used where none is configured. -/
def hmacAlice (data : List Char) : List UInt8 :=
  if data = signingInput aliceClaims then
    hexBytes "59382afb1d9c9f32a43be737d90d3e64f8153b54187e002bbd9a25d2158f72a7".toList
  else []

/-- `JSON.parse` of the one payload. -/
def parseAlice (bytes : List UInt8) : Option Json :=
  if bytes = jsonBytes aliceClaims.json then some aliceClaims.json else none

/-- A decision of whether a step is a forgery. -/
def forgesNothing (hmac : List Char → List UInt8) (decodeKey : String → Option (List UInt8))
    (verify : String → List UInt8 → List UInt8 → Option Bool) (earlier : List Label)
    (s : AuthState) (l : Label) : Bool :=
  match l.1 with
  | .verifySignature address signature _ _ =>
    (s address).all fun entry => (decodeKey address).all fun key =>
      verify (messageOf entry.nonce) (hexBytes signature.toList) key != some true ||
        earlier.contains (.sign key (messageOf entry.nonce), .signed)
  | .validateToken token _ =>
    match token.splitOn '.' with
    | header :: payload :: sig :: _ =>
      hmacSign hmac (header ++ '.' :: payload) != sig ||
        earlier.any fun other =>
          match other with
          | (.verifySignature address _ _ now', .accessToken _) =>
            header ++ '.' :: payload == signingInput (claimsAt address now')
          | _ => false
    | _ => true
  | _ => true

theorem unforged_of_forgesNothing {hmac : List Char → List UInt8}
    {decodeKey : String → Option (List UInt8)}
    {verify : String → List UInt8 → List UInt8 → Option Bool} (earlier : List Label)
    (s : AuthState) (l : Label) (h : forgesNothing hmac decodeKey verify earlier s l = true) :
    Unforged hmac decodeKey verify earlier s l := by
  unfold forgesNothing at h
  unfold Unforged
  split at h
  · intro entry key hentry hkey hverify
    simpa [hentry, hkey, hverify] using h
  · intro header payload sig rest hsplit hcode
    rw [hsplit] at h
    simp only [hcode, bne_self_eq_false, Bool.false_or, List.any_eq_true] at h
    obtain ⟨other, hmem, hother⟩ := h
    split at hother
    · next address signature now' now'' issued =>
      exact ⟨_, issued, ⟨address, signature, now', now'', hmem, rfl⟩, by simpa using hother⟩
    · cases hother
  · trivial

/-- The answer to a request, with the request. -/
def answer (s : AuthState) (request : Request) : Option (Label × AuthState) :=
  let (response, s') := perform hmacAlice parseAlice decodeAlice verifyAlice s request
  some ((request, response), s')

theorem answer_step (s : AuthState) (request : Request) (l : Label) (s' : AuthState)
    (h : answer s request = some (l, s')) :
    (authSystem hmacAlice parseAlice decodeAlice verifyAlice).step s l s' := by
  cases h
  rfl

def aliceToken : List Char := createJwt hmacAlice aliceClaims

/-- Alice signs in, and uses her token. -/
def aliceScript : List Request :=
  [.generateChallenge aliceAddress "k3j9x2" 1767225600000 1767225600000,
    .sign aliceKey aliceMessage,
    .verifySignature aliceAddress aliceSignature 1767225601000 1767225601000,
    .validateToken aliceToken 1767225602000]

theorem alice_replays : (System.replay answer (forgesNothing hmacAlice decodeAlice verifyAlice)
    aliceScript ([], fun _ => none)).any (fun r =>
      r.1.head?.map Prod.snd =
        some (.session aliceAddress (.ofNat 1767225601) (.ofNat 1767312001)) && r.1.all fun l =>
      match l with
      | (.verifySignature address _ _ now', .accessToken _) => claimsAt address now' == aliceClaims
      | _ => true) = true := by decide +kernel

def aliceRun : System.Replayed (authSystem hmacAlice parseAlice decodeAlice verifyAlice) answer
    (forgesNothing hmacAlice decodeAlice verifyAlice) :=
  .of (fun _ => none) rfl aliceScript (Option.isSome_of_any alice_replays)

/-- She gets a session, and only she. -/
theorem alice_signs_in : aliceRun.history.head?.map Prod.snd =
        some (.session aliceAddress (.ofNat 1767225601) (.ofNat 1767312001)) ∧
      OnlyKeyHolders decodeAlice verifyAlice aliceRun.history := by
  have ⟨⟨history, _⟩, hr, hfacts⟩ := (Option.any_eq_true _ _).mp alice_replays
  simp only [Bool.and_eq_true, decide_eq_true_eq] at hfacts
  have hsame := (Prod.mk.inj (Option.some.inj (hr.symm.trans aliceRun.replays))).1
  rw [hsame] at hfacts
  refine ⟨hfacts.1, only_key_holders_sign_in
    (aliceRun.run answer_step unforged_of_forgesNothing) ?_⟩
  rintro claims token ⟨address, signature, now, now', hmem, rfl⟩
  have hclaims : claimsAt address now' = aliceClaims := by
    simpa using List.all_eq_true.mp hfacts.2 _ hmem
  rw [hclaims, parseAlice, if_pos rfl]

end Backit.Auth
