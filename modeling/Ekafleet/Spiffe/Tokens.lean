import Ekafleet.Spiffe.Jwt

/-! Issued tokens and their validation | source: spiffe/workload_server.rs

    A token that was issued comes back from base64url and the signature check as the text that was
    put together for it. What the text says is up to the JSON parser. -/

namespace Ekafleet.Spiffe
open Server

/-! ### Base64url there and back -/

/-- The byte of a character of the table. -/
def base64urlByte (n shift : ℕ) : UInt8 := UInt8.ofNat (base64urlChar n shift).toNat

theorem base64urlTable_spec : ∀ k < 64, base64urlTable.getD k 'A' ≠ '.' ∧
    String.utf8EncodeChar (base64urlTable.getD k 'A') =
      [UInt8.ofNat (base64urlTable.getD k 'A').toNat] ∧
    base64urlValue (UInt8.ofNat (base64urlTable.getD k 'A').toNat) = .ok k := by
  decide +kernel

@[simp] theorem utf8EncodeChar_base64urlChar (n shift : ℕ) :
    String.utf8EncodeChar (base64urlChar n shift) = [base64urlByte n shift] :=
  (base64urlTable_spec _ (Nat.mod_lt _ (by decide))).2.1

@[simp] theorem base64urlValue_base64urlByte (n shift : ℕ) :
    base64urlValue (base64urlByte n shift) = .ok (n / 2 ^ shift % 64) :=
  (base64urlTable_spec _ (Nat.mod_lt _ (by decide))).2.2

theorem dot_not_mem_base64urlEncode (data : Bytes) : '.' ∉ base64urlEncode data := by
  have hchar : ∀ n shift, '.' ≠ base64urlChar n shift := fun n shift h =>
    (base64urlTable_spec _ (Nat.mod_lt _ (by decide))).1 h.symm
  fun_induction base64urlEncode data <;> simp_all

theorem ofNat_eq_of_mod {n : ℕ} {a : UInt8} (h : n % 2 ^ 8 = a.toNat) : UInt8.ofNat n = a := by
  rw [← UInt8.toNat_inj, UInt8.toNat_ofNat', h]

theorem base64urlDecode_encode (data : Bytes) :
    base64urlDecode (Text.utf8 (String.ofList (base64urlEncode data))) = .ok data := by
  rw [Text.utf8_ofList]
  fun_induction base64urlEncode data with
  | case1 a b c rest n ih =>
    have ha := a.toNat_lt
    have hb := b.toNat_lt
    have hc := c.toNat_lt
    have hn : n / 2 ^ 18 % 64 * 2 ^ 18 + n / 2 ^ 12 % 64 * 2 ^ 12 + n / 2 ^ 6 % 64 * 2 ^ 6 +
        n / 2 ^ 0 % 64 = n := by omega
    simp only [List.flatMap_cons, utf8EncodeChar_base64urlChar, List.singleton_append]
    rw [base64urlDecode, ih]
    simp only [base64urlValue_base64urlByte]
    change Except.ok (UInt8.ofNat (_ / 2 ^ 16) :: UInt8.ofNat (_ / 2 ^ 8) ::
      UInt8.ofNat _ :: rest) = _
    rw [hn, ofNat_eq_of_mod (a := a) (by omega), ofNat_eq_of_mod (a := b) (by omega),
      ofNat_eq_of_mod (a := c) (by omega)]
  | case2 a b n =>
    have ha := a.toNat_lt
    have hb := b.toNat_lt
    have hn : n / 2 ^ 18 % 64 * 2 ^ 18 + n / 2 ^ 12 % 64 * 2 ^ 12 + n / 2 ^ 6 % 64 * 2 ^ 6 = n := by
      omega
    simp only [List.flatMap_cons, List.flatMap_nil, utf8EncodeChar_base64urlChar,
      List.singleton_append, List.append_nil]
    simp only [base64urlDecode, base64urlValue_base64urlByte]
    change Except.ok [UInt8.ofNat (_ / 2 ^ 16), UInt8.ofNat (_ / 2 ^ 8)] = _
    rw [hn, ofNat_eq_of_mod (a := a) (by omega), ofNat_eq_of_mod (a := b) (by omega)]
  | case3 a n =>
    have ha := a.toNat_lt
    have hn : n / 2 ^ 18 % 64 * 2 ^ 18 + n / 2 ^ 12 % 64 * 2 ^ 12 = n := by omega
    simp only [List.flatMap_cons, List.flatMap_nil, utf8EncodeChar_base64urlChar,
      List.singleton_append, List.append_nil]
    simp only [base64urlDecode, base64urlValue_base64urlByte]
    change Except.ok [UInt8.ofNat (_ / 2 ^ 16)] = _
    rw [hn, ofNat_eq_of_mod (a := a) (by omega)]
  | case4 => rfl

/-! ### Tokens there and back -/

/-- The token for a text of claims. -/
def signedToken (lib : JwtLib) (key : Bytes) (claims : String) : String :=
  let input := s!"{encodeText jwtHeader}.{encodeText claims}"
  let signature := String.ofList (base64urlEncode (lib.hmac key input.toUTF8.toList))
  s!"{input}.{signature}"

theorem split_signedToken (lib : JwtLib) (key : Bytes) (claims : String) :
    Text.split '.' (signedToken lib key claims) = [encodeText jwtHeader, encodeText claims,
      String.ofList (base64urlEncode
        (lib.hmac key s!"{encodeText jwtHeader}.{encodeText claims}".toUTF8.toList))] := by
  have hdots : ∀ data, '.' ∉ (String.ofList (base64urlEncode data)).toList := fun data => by
    rw [String.toList_ofList]
    exact dot_not_mem_base64urlEncode _
  have hsplit : ∀ header payload signature : String, '.' ∉ header.toList → '.' ∉ payload.toList →
      '.' ∉ signature.toList → Text.split '.' (header ++ "." ++ payload ++ "." ++ signature) =
        [header, payload, signature] := by
    intro header payload signature hh hp hs
    have hlist : (header ++ "." ++ payload ++ "." ++ signature).toList =
        header.toList ++ '.' :: (payload.toList ++ '.' :: signature.toList) := by simp
    rw [Text.split, hlist, List.splitOn_append_cons_self_of_not_mem hh,
      List.splitOn_append_cons_self_of_not_mem hp, List.splitOn_eq_singleton hs]
    simp
  exact hsplit _ _ _ (hdots _) (hdots _) (hdots _)

theorem decode_encodeText (s : String) :
    base64urlDecode (Text.utf8 (encodeText s)) = .ok (Text.utf8 s) := by
  rw [encodeText, base64urlDecode_encode, Text.toUTF8_toList]

/-- The claims the server means to issue. -/
def issuedClaims (spiffeId : String) (audience : List String) (now : ℕ) : List (String × Json) :=
  [("sub", .str spiffeId), ("aud", .arr (audience.map .str)), ("iat", .uint now),
    ("exp", .uint (now + 3600))]

/-- The parser reads the rendering of an object as the object; its fields may come in any order. -/
def JwtLib.Reads (lib : JwtLib) (fields : List (String × Json)) : Prop :=
  ∃ fields', fields'.Perm fields ∧
    lib.parseJson (Json.obj fields).render = some (.obj fields')

/-- The text that is put together is the rendering of the claims, where nothing has to be escaped.
    -/
theorem claimsJson_eq_render {spiffeId : String} {audience : List String}
    (hsubject : Json.PlainText spiffeId) (haudience : ∀ a ∈ audience, Json.PlainText a) (now : ℕ) :
    claimsJson spiffeId audience now = (Json.obj (issuedClaims spiffeId audience now)).render := by
  have hkeys : ∀ key ∈ ["sub", "aud", "iat", "exp"], Json.quoted key = "\"" ++ key ++ "\"" := by
    decide +kernel
  simp only [List.forall_mem_cons] at hkeys
  rw [← String.toList_inj]
  simp [claimsJson, issuedClaims, Json.render, Json.renderFields, Json.quoted_of_plain hsubject,
    Json.renderItems_str haudience, hkeys, String.toList_intercalate]
  rfl

/-- HOLDS WHEN: for a subject and audiences that need no escaping, with a parser that reads the
    rendering of the claims as these claims, a token is accepted with any of its audiences up to
    its expiry and not after it, with the subject and exactly the claims that were issued. -/
theorem issued_token_validates (lib : JwtLib) (key : Bytes) {now : ℕ} {spiffeId : String}
    {audience : List String} (hreads : lib.Reads (issuedClaims spiffeId audience now))
    (hsubject : Json.PlainText spiffeId) (haudience : ∀ a ∈ audience, Json.PlainText a)
    {token : Jwtsvid} (hfetch : fetchJwtsvid lib key now spiffeId audience = .ok token) :
    ∃ fields : List (String × Json), fields.Perm (issuedClaims spiffeId audience now) ∧
      ∀ a ∈ audience, ∀ later, validateJwtsvid lib key later token.svid a =
        if later ≤ now + 3600 then
          .ok ⟨spiffeId, fields.map fun f => (f.1, Text.trimMatches '"' f.2.render)⟩
        else .error ⟨.unauthenticated, "JWT has expired"⟩ := by
  obtain ⟨fields, hperm, hparse⟩ := hreads
  rw [← claimsJson_eq_render hsubject haudience] at hparse
  unfold fetchJwtsvid at hfetch
  split_ifs at hfetch with hempty hnone
  obtain rfl : token = ⟨spiffeId, signedToken lib key (claimsJson spiffeId audience now)⟩ :=
    (Except.ok.inj hfetch).symm
  refine ⟨fields, hperm, fun a ha later => ?_⟩
  have hsplit := split_signedToken lib key (claimsJson spiffeId audience now)
  have hnonempty : signedToken lib key (claimsJson spiffeId audience now) ≠ "" := by
    intro h
    rw [h] at hsplit
    have hlength := congrArg List.length hsplit
    rw [show Text.split '.' "" = [""] from rfl] at hlength
    cases hlength
  have htext : String.fromUTF8? ⟨(Text.utf8 (claimsJson spiffeId audience now)).toArray⟩ =
      some (claimsJson spiffeId audience now) := Text.fromUtf8_utf8 _
  have haud : a ∈ (audience.map Json.str).filterMap Json.asStr := by
    rw [List.filterMap_map]
    exact List.mem_filterMap.mpr ⟨a, ha, rfl⟩
  have hget : ∀ k v, (k, v) ∈ issuedClaims spiffeId audience now →
      Json.get k (.obj fields) = some v := by
    intro k v hmem
    refine Json.get_of_mem ((hperm.map Prod.fst).nodup_iff.mpr ?_) (hperm.mem_iff.mpr hmem)
    simp [issuedClaims]
  unfold validateJwtsvid
  rw [if_neg hnonempty]
  simp only [hsplit, Text.toUTF8_toList, base64urlDecode_encode, decode_encodeText,
    bind, Except.bind, Except.toOption, orStatus, ne_eq, not_true_eq_false, if_false, htext, hparse]
  simp only [hget "exp" (.uint (now + 3600)) (by simp [issuedClaims]),
    hget "aud" (.arr (audience.map .str)) (by simp [issuedClaims]),
    hget "sub" (.str spiffeId) (by simp [issuedClaims]), haud, Option.bind_some, Json.asU64,
    Json.asStr, Option.any_some, decide_eq_true_eq, not_true_eq_false, and_false, if_false,
    Option.getD_some]
  by_cases hlater : later ≤ now + 3600
  · rw [if_pos hlater, if_neg (Nat.not_lt.mpr hlater)]
    rfl
  · rw [if_neg hlater, if_pos (Nat.not_le.mp hlater)]
    rfl

/-- A request for a subject that ends its string and adds a claim. -/
def injectedSubject : String := "spiffe://fleet.internal/db\",\"role\":\"admin"

/-- The answers of a JSON parser that sorts the fields of an object by their names, to the texts
    that are looked at below; the HMAC is the key. -/
def sortingLib : JwtLib where
  hmac key _ := key
  parseJson text :=
    if text = "\x7b\"sub\":\"spiffe://fleet.internal/db\",\"role\":\"admin\"," ++
        "\"aud\":[\"api\"],\"iat\":0,\"exp\":3600\x7d" then
      some (.obj [("aud", .arr [.str "api"]), ("exp", .uint 3600), ("iat", .uint 0),
        ("role", .str "admin"), ("sub", .str "spiffe://fleet.internal/db")])
    else if text = "\x7b\"sub\":\"spiffe://fleet.internal/db\"," ++
        "\"aud\":[\"api\",\"web\"],\"iat\":0,\"exp\":3600\x7d" then
      some (.obj [("aud", .arr [.str "api", .str "web"]), ("exp", .uint 3600), ("iat", .uint 0),
        ("sub", .str "spiffe://fleet.internal/db")])
    else none

/-- The token for the subject is validated with another subject and with the claim it has added. -/
theorem injected_claim_validates :
    claimsJson injectedSubject ["api"] 0 =
        "\x7b\"sub\":\"spiffe://fleet.internal/db\",\"role\":\"admin\"," ++
          "\"aud\":[\"api\"],\"iat\":0,\"exp\":3600\x7d" ∧
      ((fetchJwtsvid sortingLib [1] 0 injectedSubject ["api"]).bind fun token =>
        validateJwtsvid sortingLib [1] 0 token.svid "api") =
        .ok ⟨"spiffe://fleet.internal/db", [("aud", "[\"api\"]"), ("exp", "3600"), ("iat", "0"),
          ("role", "admin"), ("sub", "spiffe://fleet.internal/db")]⟩ := by
  decide +kernel

/-- A token for two audiences, validated with the second one in its last second. -/
theorem issued_token_validates_db :
    ∃ fields : List (String × Json), fields.Perm
        (issuedClaims "spiffe://fleet.internal/db" ["api", "web"] 0) ∧
      ((fetchJwtsvid sortingLib [1] 0 "spiffe://fleet.internal/db" ["api", "web"]).bind fun token =>
        validateJwtsvid sortingLib [1] 3600 token.svid "web") = .ok ⟨"spiffe://fleet.internal/db",
          fields.map fun f => (f.1, Text.trimMatches '"' f.2.render)⟩ := by
  have hreads : sortingLib.Reads
      (issuedClaims "spiffe://fleet.internal/db" ["api", "web"] 0) := by
    refine ⟨[("aud", .arr [.str "api", .str "web"]), ("exp", .uint 3600), ("iat", .uint 0),
      ("sub", .str "spiffe://fleet.internal/db")], ?_, ?_⟩
    · exact (@List.perm_append_comm _ [_, _, _] [_]).trans
        (.cons _ (.cons _ (.swap _ _ [])))
    · have htext : (Json.obj (issuedClaims "spiffe://fleet.internal/db" ["api", "web"] 0)).render =
          "\x7b\"sub\":\"spiffe://fleet.internal/db\"," ++
            "\"aud\":[\"api\",\"web\"],\"iat\":0,\"exp\":3600\x7d" := by decide +kernel
      simp only [htext, sortingLib]
      rw [if_neg (by decide +kernel), if_pos trivial]
  obtain ⟨fields, hperm, hvalid⟩ := issued_token_validates sortingLib [1] hreads (by decide +kernel)
    (by decide +kernel) (show fetchJwtsvid sortingLib [1] 0 "spiffe://fleet.internal/db"
      ["api", "web"] = .ok ⟨_, signedToken sortingLib [1] _⟩ from rfl)
  refine ⟨fields, hperm, ?_⟩
  have hweb := hvalid "web" (by simp) 3600
  rw [if_pos (by decide)] at hweb
  exact hweb

end Ekafleet.Spiffe
