import Ekafleet.Lib.Json
import Ekafleet.Lib.Loop
import Ekafleet.Server.Rbac

/-! JWT-SVIDs | source: spiffe/workload_server.rs

    Tokens are signed with HMAC-SHA256 over a header and claims that are put together as text. The
    HMAC and the JSON parser are parameters; the printer is `Json.render`. -/

namespace Ekafleet.Spiffe
open Server

/-! ### Base64url without padding -/

def base64urlTable : List Char :=
  "ABCDEFGHIJKLMNOPQRSTUVWXYZabcdefghijklmnopqrstuvwxyz0123456789-_".toList

/-- The character of the six bits of `n` from bit `shift` on. -/
def base64urlChar (n shift : ℕ) : Char := base64urlTable.getD (n / 2 ^ shift % 64) 'A'

def base64urlEncode : Bytes → List Char
  | a :: b :: c :: rest =>
    let n := a.toNat * 2 ^ 16 + b.toNat * 2 ^ 8 + c.toNat
    base64urlChar n 18 :: base64urlChar n 12 :: base64urlChar n 6 :: base64urlChar n 0 ::
      base64urlEncode rest
  | [a, b] =>
    let n := a.toNat * 2 ^ 16 + b.toNat * 2 ^ 8
    [base64urlChar n 18, base64urlChar n 12, base64urlChar n 6]
  | [a] =>
    let n := a.toNat * 2 ^ 16
    [base64urlChar n 18, base64urlChar n 12]
  | [] => []

def base64urlValue (c : UInt8) : Except String ℕ :=
  if 65 ≤ c ∧ c ≤ 90 then .ok (c.toNat - 65)
  else if 97 ≤ c ∧ c ≤ 122 then .ok (c.toNat - 97 + 26)
  else if 48 ≤ c ∧ c ≤ 57 then .ok (c.toNat - 48 + 52)
  else if c = 45 then .ok 62
  else if c = 95 then .ok 63
  else .error "invalid base64url character"

def base64urlDecode : Bytes → Except String Bytes
  | a :: b :: c :: d :: rest => do
    let n := (← base64urlValue a) * 2 ^ 18 + (← base64urlValue b) * 2 ^ 12 +
      (← base64urlValue c) * 2 ^ 6 + (← base64urlValue d)
    return UInt8.ofNat (n / 2 ^ 16) :: UInt8.ofNat (n / 2 ^ 8) :: UInt8.ofNat n ::
      (← base64urlDecode rest)
  | [a, b, c] => do
    let n := (← base64urlValue a) * 2 ^ 18 + (← base64urlValue b) * 2 ^ 12 +
      (← base64urlValue c) * 2 ^ 6
    return [UInt8.ofNat (n / 2 ^ 16), UInt8.ofNat (n / 2 ^ 8)]
  | [a, b] => do
    let n := (← base64urlValue a) * 2 ^ 18 + (← base64urlValue b) * 2 ^ 12
    return [UInt8.ofNat (n / 2 ^ 16)]
  -- a single left-over character decodes to nothing
  | [_] | [] => .ok []

/-! ### Tokens -/

/-- HMAC-SHA256, and the JSON parser. -/
structure JwtLib where
  hmac : (key data : Bytes) → Bytes
  parseJson : String → Option Json

/-- A signed token for a workload. -/
structure Jwtsvid where
  spiffeId : String
  svid : String
  deriving DecidableEq, Repr

variable (lib : JwtLib)

/-- The claims as text; subject and audiences are inserted without escaping. -/
def claimsJson (spiffeId : String) (audience : List String) (now : ℕ) : String :=
  let aud := ",".intercalate (audience.map fun a => s!"\"{a}\"")
  "\x7b\"sub\":\"" ++ spiffeId ++ "\",\"aud\":[" ++ aud ++ "],\"iat\":" ++ toString now ++
    ",\"exp\":" ++ toString (now + 3600) ++ "\x7d"

def jwtHeader : String := "\x7b\"alg\":\"HS256\",\"typ\":\"JWT\"\x7d"

def encodeText (s : String) : String := String.ofList (base64urlEncode s.toUTF8.toList)

/-- Issue a JWT-SVID for the SPIFFE ID that the request names. -/
def fetchJwtsvid (key : Bytes) (now : ℕ) (spiffeId : String) (audience : List String) :
    Except Status Jwtsvid :=
  if spiffeId = "" then .error ⟨.invalidArgument, "spiffe_id is required in JWTSVIDRequest"⟩
  else if audience = [] then .error ⟨.invalidArgument, "at least one audience is required"⟩
  else
    let signingInput := s!"{encodeText jwtHeader}.{encodeText (claimsJson spiffeId audience now)}"
    let signature := String.ofList (base64urlEncode (lib.hmac key signingInput.toUTF8.toList))
    .ok ⟨spiffeId, s!"{signingInput}.{signature}"⟩

/-- What a token proves. -/
structure ValidatedJwt where
  spiffeId : String
  claims : List (String × String)
  deriving DecidableEq, Repr

/-- An optional value, or a status when it is missing. -/
def orStatus {α : Type} (code : Code) (message : String) : Option α → Except Status α
  | some a => .ok a
  | none => .error ⟨code, message⟩

/-- The RPC that checks a token. -/
def validateJwtsvid (key : Bytes) (now : ℕ) (svid audience : String) :
    Except Status ValidatedJwt := do
  if svid = "" then throw ⟨.invalidArgument, "svid is required"⟩
  match Text.split '.' svid with
  | [header, payload, signature] =>
    let tag ← orStatus .invalidArgument "invalid base64url in signature"
      (base64urlDecode signature.toUTF8.toList).toOption
    if tag ≠ lib.hmac key s!"{header}.{payload}".toUTF8.toList then
      throw ⟨.unauthenticated, "invalid JWT signature"⟩
    let payloadBytes ← orStatus .invalidArgument "invalid base64url in payload"
      (base64urlDecode payload.toUTF8.toList).toOption
    let payloadStr ← orStatus .invalidArgument "invalid UTF-8 in payload"
      (String.fromUTF8? ⟨payloadBytes.toArray⟩)
    let claims ← orStatus .invalidArgument "invalid JSON in JWT payload" (lib.parseJson payloadStr)
    if ((claims.get "exp").bind Json.asU64).any (· < now) then
      throw ⟨.unauthenticated, "JWT has expired"⟩
    let tokenAud := match claims.get "aud" with
      | some (.arr items) => items.filterMap Json.asStr
      | _ => []
    if audience ≠ "" ∧ audience ∉ tokenAud then throw ⟨.unauthenticated, "audience mismatch"⟩
    let fields := match claims with
      | .obj fields => fields
      | _ => []
    return {
      spiffeId := ((claims.get "sub").bind Json.asStr).getD ""
      claims := fields.map fun f => (f.1, Text.trimMatches '"' f.2.render) }
  | _ => throw ⟨.invalidArgument, "invalid JWT format"⟩

end Ekafleet.Spiffe
