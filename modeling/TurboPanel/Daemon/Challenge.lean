import TurboPanel.Compose.JsonText
import TurboPanel.Js.DateText
import TurboPanel.Js.Utf8
import TurboPanel.Secrets.Base64url
import TurboPanel.Secrets.Envelope

/-!
# Stateless challenges

A challenge is an envelope of a payload and of the code that the issuer's key makes of it, and the
issuer keeps nothing: whoever has the keyring reads the payload back. The code is an ideal one here:
it is verified for the data that was signed under the key, and for no other. A challenge is then
accepted for the server and the key that the issuer named, while a key of the keyring is the one
that it signed with and the time is not over (`challenges_read_back`). An issuer with no time of its
own leaves it to the one that reads the challenge.
-/

namespace TurboPanel.Challenges

open List Js Secrets

/-! ## Keys -/

/-- An integer that a double has, and its text. -/
structure SafeInt where
  value : ℤ
  safe : value.natAbs < safeBound

structure VersionedKey (Key : Type) where
  version : ℕ
  key : Key

structure DerivedSecretsConfig (Key : Type) where
  current : VersionedKey Key
  fallbacks : List (VersionedKey Key)

variable {Key : Type}

def findKeyForVersion (secrets : DerivedSecretsConfig Key) (version : ℕ) : Option Key :=
  if secrets.current.version = version then some secrets.current.key
  else (secrets.fallbacks.find? (·.version = version)).map VersionedKey.key

/-- `crypto.subtle` for a code of 32 bytes that cannot be forged: what is verified is the code of
data that was signed. -/
structure IdealHmac (Key : Type) (signed : List (Key × List UInt8)) where
  sign : Key → List UInt8 → List UInt8
  length_sign : ∀ key data, (sign key data).length = 32
  verify : Key → List UInt8 → List UInt8 → Bool
  verify_iff : ∀ key signature data,
    verify key signature data = true ↔ (key, data) ∈ signed ∧ signature = sign key data

/-- The ideal code of any function: a look at what was signed. -/
def IdealHmac.ofSign [DecidableEq Key] (sign : Key → List UInt8 → List UInt8)
    (length_sign : ∀ key data, (sign key data).length = 32) (signed : List (Key × List UInt8)) :
    IdealHmac Key signed where
  sign := sign
  length_sign := length_sign
  verify key signature data := decide ((key, data) ∈ signed ∧ signature = sign key data)
  verify_iff _ _ _ := decide_eq_true_iff

/-! ## Issuing -/

def envelopeSchemeChallenge : Text := "tpchallenge".toList

structure DaemonChallenge where
  id : Text
  nonce : Text
  issuedAt : Text

structure ChallengePayload where
  nonce : Text
  issuedAtMs : ℤ
  ttlMs : ℤ
  serverId : Text
  keyId : Text

/-- A call of `issueChallenge`, with the random nonce that it draws. -/
structure Issue (Key : Type) where
  secrets : DerivedSecretsConfig Key
  serverId : Option Text
  keyId : Option Text
  ttlMs : SafeInt
  nowMs : SafeInt
  nonce : Text

namespace Issue

def payload (call : Issue Key) : ChallengePayload :=
  { nonce := call.nonce
    issuedAtMs := call.nowMs.value
    ttlMs := call.ttlMs.value
    serverId := call.serverId.getD []
    keyId := call.keyId.getD [] }

/-- The object that the payload is written as. -/
def fields (call : Issue Key) : Compose.Fields :=
  [("nonce", .str (String.ofList call.payload.nonce)),
    ("issuedAtMs", .num (String.ofList (intText call.payload.issuedAtMs))),
    ("ttlMs", .num (String.ofList (intText call.payload.ttlMs))),
    ("serverId", .str (String.ofList call.payload.serverId)),
    ("keyId", .str (String.ofList call.payload.keyId))]

def encodedPayload (call : Issue Key) : Text := base64urlEncode (textEncode (Compose.stringify (.obj call.fields)))

/-- What the call signs, and the key that it signs with. -/
def signed (call : Issue Key) : Key × List UInt8 := (call.secrets.current.key, textEncode call.encodedPayload)

/-- The code that the call puts next to the payload. -/
def signature {log : List (Key × List UInt8)} (call : Issue Key) (hmac : IdealHmac Key log) : List UInt8 :=
  hmac.sign call.signed.1 call.signed.2

end Issue

def issueChallenge {log : List (Key × List UInt8)} (hmac : IdealHmac Key log) (call : Issue Key) : DaemonChallenge :=
  { id := formatEnvelope envelopeSchemeChallenge call.secrets.current.version
      [call.encodedPayload, base64urlEncode (call.signature hmac)]
    nonce := call.nonce
    issuedAt := isoText call.nowMs.value }

/-! ## Consuming -/

def text? : Option Compose.Parsed → Option Text
  | some (.str s) => some s
  | _ => none

/-- An integer that was read. -/
def integer? : Option Compose.Parsed → Option ℤ
  | some (.num (.finite q)) => if q.isInt then some q.num else none
  | _ => none

/-- `JSON.parse(…) as ChallengePayload`, for an object of that type. -/
def asPayload (parsed : Compose.Parsed) : Option ChallengePayload := do
  let nonce ← text? (parsed.prop? "nonce".toList)
  let issuedAtMs ← integer? (parsed.prop? "issuedAtMs".toList)
  let ttlMs ← integer? (parsed.prop? "ttlMs".toList)
  let serverId ← text? (parsed.prop? "serverId".toList)
  let keyId ← text? (parsed.prop? "keyId".toList)
  return { nonce, issuedAtMs, ttlMs, serverId, keyId }

/-- Text that is malformed throws, and `null` is the answer. -/
def parsePayload (encoded : Text) : Option ChallengePayload :=
  match base64urlDecode encoded with
  | none => none
  | some bytes =>
    match Compose.parseJson (textDecode bytes) with
    | none => none
    | some parsed => asPayload parsed

structure ConsumeParams where
  challengeId : Text
  serverId : Option Text
  keyId : Option Text

def consumeChallenge {log : List (Key × List UInt8)} (hmac : IdealHmac Key log) (secrets : DerivedSecretsConfig Key)
    (params : ConsumeParams) (ttlMs nowMs : ℤ) : Option DaemonChallenge :=
  match parseEnvelope envelopeSchemeChallenge params.challengeId 2 with
  | some { version, fields := [encodedPayload, encodedSig] } =>
    match findKeyForVersion secrets version with
    | none => none
    | some key =>
      match base64urlDecode encodedSig with
      | none => none
      | some signatureBytes =>
        if hmac.verify key signatureBytes (textEncode encodedPayload) = false then none
        else
          match parsePayload encodedPayload with
          | none => none
          | some payload =>
            let effectiveTtlMs := if payload.ttlMs > 0 then payload.ttlMs else ttlMs
            if nowMs - payload.issuedAtMs > effectiveTtlMs then none
            else if payload.serverId ≠ params.serverId.getD [] then none
            else if payload.keyId ≠ params.keyId.getD [] then none
            else some { id := params.challengeId, nonce := payload.nonce, issuedAt := isoText payload.issuedAtMs }
  | _ => none

/-! ## A payload is read back -/

theorem parseJson_payload (call : Issue Key) :
    Compose.parseJson (Compose.stringify (.obj call.fields)) = some (.obj
      [("nonce".toList, .str call.payload.nonce), ("issuedAtMs".toList, .num (.finite call.payload.issuedAtMs)),
        ("ttlMs".toList, .num (.finite call.payload.ttlMs)), ("serverId".toList, .str call.payload.serverId),
        ("keyId".toList, .str call.payload.keyId)]) := by
  have hstr : ∀ s : Text, Compose.ReadsAs (.str (String.ofList s)) (.str s) := by
    intro s
    have hread := Compose.readsAs_str (String.ofList s)
    rwa [String.toList_ofList] at hread
  have hread : List.Forall₂ (fun entry value => Compose.ReadsAs entry.2 value) call.fields
      [.str call.payload.nonce, .num (.finite call.payload.issuedAtMs), .num (.finite call.payload.ttlMs),
        .str call.payload.serverId, .str call.payload.keyId] :=
    .cons (hstr _) (.cons (Compose.readsAs_num call.nowMs.safe) (.cons (Compose.readsAs_num call.ttlMs.safe)
      (.cons (hstr _) (.cons (hstr _) .nil))))
  rw [Compose.parseJson_object hread (cons_ne_nil _ _)]
  rfl

/-- **The payload of a call is read back.** -/
theorem parsePayload_encodedPayload (call : Issue Key) : parsePayload call.encodedPayload = some call.payload := by
  have hhead : (Compose.stringify (.obj call.fields)).head? ≠ some '\uFEFF' := by
    rw [Compose.stringify, cons_append, List.head?_cons]
    decide
  rw [parsePayload, Issue.encodedPayload, base64urlDecode_base64urlEncode]
  dsimp only
  rw [textDecode_textEncode hhead, parseJson_payload]
  rfl

theorem verify_iff_issue {calls : List (Issue Key)} (hmac : IdealHmac Key (calls.map Issue.signed)) {key : Key}
    {signature : List UInt8} {encodedPayload : Text} :
    hmac.verify key signature (textEncode encodedPayload) = true ↔
      ∃ call ∈ calls, encodedPayload = call.encodedPayload ∧ key = call.secrets.current.key ∧
        signature = call.signature hmac := by
  rw [hmac.verify_iff, mem_map]
  constructor
  · rintro ⟨⟨call, hcall, hsigned⟩, hsignature⟩
    obtain ⟨rfl, hdata⟩ := Prod.mk.inj hsigned
    have hpayload := textEncode_injective hdata
    exact ⟨call, hcall, hpayload.symm, rfl, by rw [hsignature, ← hpayload]; rfl⟩
  · rintro ⟨call, hcall, rfl, rfl, rfl⟩
    exact ⟨⟨call, hcall, rfl⟩, rfl⟩

/-- A challenge that carries what a call signed. -/
def Carries {log : List (Key × List UInt8)} (hmac : IdealHmac Key log) (challengeId : Text) (version : ℕ)
    (call : Issue Key) : Prop :=
  ∃ encodedSig, parseEnvelope envelopeSchemeChallenge challengeId 2 =
      some { version, fields := [call.encodedPayload, encodedSig] } ∧
    base64urlDecode encodedSig = some (call.signature hmac)

/-- The time that a call gives its challenge, or else the reader's. -/
def Issue.effectiveTtlMs (call : Issue Key) (ttlMs : ℤ) : ℤ := if 0 < call.ttlMs.value then call.ttlMs.value else ttlMs

theorem consumeChallenge_isSome {calls : List (Issue Key)} (hmac : IdealHmac Key (calls.map Issue.signed))
    (secrets : DerivedSecretsConfig Key) (params : ConsumeParams) (ttlMs nowMs : ℤ) :
    (consumeChallenge hmac secrets params ttlMs nowMs).isSome ↔
      ∃ call ∈ calls, ∃ version, Carries hmac params.challengeId version call ∧
        findKeyForVersion secrets version = some call.secrets.current.key ∧
          call.serverId.getD [] = params.serverId.getD [] ∧ call.keyId.getD [] = params.keyId.getD [] ∧
            nowMs - call.nowMs.value ≤ call.effectiveTtlMs ttlMs := by
  constructor
  · intro h
    rw [consumeChallenge] at h
    split at h
    · rename_i version encodedPayload encodedSig hparse
      split at h
      · cases h
      · rename_i key hkey
        split at h
        · cases h
        · rename_i signatureBytes hdecode
          split at h
          · cases h
          · rename_i hverify
            obtain ⟨call, hcall, rfl, rfl, rfl⟩ := (verify_iff_issue hmac).1 (Bool.not_eq_false _ ▸ hverify)
            rw [parsePayload_encodedPayload] at h
            have hfresh : (if call.payload.ttlMs > 0 then call.payload.ttlMs else ttlMs) = call.effectiveTtlMs ttlMs :=
              rfl
            simp only [hfresh] at h
            split at h
            · cases h
            · rename_i httl
              split at h
              · cases h
              · rename_i hserver
                split at h
                · cases h
                · rename_i hkeyId
                  exact ⟨call, hcall, version, ⟨encodedSig, hparse, hdecode⟩, hkey, not_not.1 hserver,
                    not_not.1 hkeyId, not_lt.1 httl⟩
    · cases h
  · rintro ⟨call, hcall, version, ⟨encodedSig, hparse, hdecode⟩, hkey, hserver, hkeyId, httl⟩
    have hverify : hmac.verify call.secrets.current.key (call.signature hmac) (textEncode call.encodedPayload) = true :=
      (verify_iff_issue hmac).2 ⟨call, hcall, rfl, rfl, rfl⟩
    rw [consumeChallenge, hparse]
    simp only [hkey, hdecode, hverify, parsePayload_encodedPayload, Bool.true_eq_false, if_false]
    have hfresh : ¬(nowMs - call.payload.issuedAtMs > if call.payload.ttlMs > 0 then call.payload.ttlMs else ttlMs) :=
      not_lt.2 httl
    have hserver' : ¬call.payload.serverId ≠ params.serverId.getD [] := not_not.2 hserver
    have hkeyId' : ¬call.payload.keyId ≠ params.keyId.getD [] := not_not.2 hkeyId
    rw [if_neg hfresh, if_neg hserver', if_neg hkeyId']
    rfl

theorem carries_issueChallenge {log : List (Key × List UInt8)} (hmac : IdealHmac Key log) {call : Issue Key}
    (hlow : 1 ≤ call.secrets.current.version) (hsafe : call.secrets.current.version < safeBound) :
    Carries hmac (issueChallenge hmac call).id call.secrets.current.version call := by
  have hsignature : call.signature hmac ≠ [] := by
    rw [← length_pos_iff, Issue.signature, hmac.length_sign]
    decide
  have hpayload : textEncode (Compose.stringify (.obj call.fields)) ≠ [] := by
    intro hnil
    have hdecoded := decodeChars_textEncode (Compose.stringify (.obj call.fields))
    rw [hnil, Compose.stringify, cons_append] at hdecoded
    exact cons_ne_nil _ _ hdecoded.symm
  have hfields : ∀ field ∈ [call.encodedPayload, base64urlEncode (call.signature hmac)], field ≠ [] ∧ '.' ∉ field := by
    intro field hfield
    simp only [mem_cons, not_mem_nil, or_false] at hfield
    obtain rfl | rfl := hfield
    · exact ⟨base64urlEncode_ne_nil hpayload, not_mem_base64urlEncode _⟩
    · exact ⟨base64urlEncode_ne_nil hsignature, not_mem_base64urlEncode _⟩
  exact ⟨_, parseEnvelope_formatEnvelope (by decide) hlow hsafe hfields, base64urlDecode_base64urlEncode _⟩

/-! ## Main result -/

/-- The form of a challenge that is accepted: it carries what a call signed under a key of the
keyring, and the call named the server and the key that are asked for. -/
structure Accepted {log : List (Key × List UInt8)} (hmac : IdealHmac Key log) (secrets : DerivedSecretsConfig Key)
    (params : ConsumeParams) (call : Issue Key) : Prop where
  signed : ∃ version, Carries hmac params.challengeId version call ∧
    findKeyForVersion secrets version = some call.secrets.current.key
  serverId : call.serverId.getD [] = params.serverId.getD []
  keyId : call.keyId.getD [] = params.keyId.getD []

/-- **Envelopes and challenges decode to what was encoded.** An envelope of a safe version and of
fields that are not empty is read back; a text that is accepted is the one that its parts are
written as, so that no two texts have the same parts; what a call issues carries what it signed; and
a challenge is accepted if and only if it carries what a call signed under a key of the keyring, the
call named the server and the key that are asked for, and the time since it is not longer than the
call's own, or than the reader's if the call has none. -/
theorem challenges_read_back :
    (∀ (scheme : Text) (version : ℕ) (fields : List Text), '.' ∉ scheme → 1 ≤ version → version < safeBound →
      (∀ field ∈ fields, field ≠ [] ∧ '.' ∉ field) →
        parseEnvelope scheme (formatEnvelope scheme version fields) fields.length = some { version, fields }) ∧
    (∀ (scheme value : Text) (n : ℕ) (e : Envelope), parseEnvelope scheme value n = some e →
      formatEnvelope scheme e.version e.fields = value) ∧
    (∀ (scheme value other : Text) (n k : ℕ) (e : Envelope), parseEnvelope scheme value n = some e →
      parseEnvelope scheme other k = some e → value = other) ∧
    ∀ (Key : Type) (calls : List (Issue Key)) (hmac : IdealHmac Key (calls.map Issue.signed)),
      (∀ call : Issue Key, 1 ≤ call.secrets.current.version → call.secrets.current.version < safeBound →
        Carries hmac (issueChallenge hmac call).id call.secrets.current.version call) ∧
      ∀ (secrets : DerivedSecretsConfig Key) (params : ConsumeParams) (ttlMs nowMs : ℤ),
        (consumeChallenge hmac secrets params ttlMs nowMs).isSome ↔
          ∃ call ∈ calls, Accepted hmac secrets params call ∧
            nowMs - call.nowMs.value ≤ if 0 < call.ttlMs.value then call.ttlMs.value else ttlMs := by
  refine ⟨fun scheme version fields hscheme hlow hsafe hfields =>
    parseEnvelope_formatEnvelope hscheme hlow hsafe hfields, fun scheme value n e h => (parseEnvelope_some h).1,
    fun scheme value other n k e hvalue hother => ?_, fun Key calls hmac => ⟨fun call hlow hsafe =>
      carries_issueChallenge hmac hlow hsafe, fun secrets params ttlMs nowMs => ?_⟩⟩
  · exact (parseEnvelope_some hvalue).1.symm.trans (parseEnvelope_some hother).1
  · rw [consumeChallenge_isSome hmac secrets params ttlMs nowMs]
    constructor
    · rintro ⟨call, hcall, version, hcarries, hkey, hserver, hkeyId, httl⟩
      exact ⟨call, hcall, ⟨⟨version, hcarries, hkey⟩, hserver, hkeyId⟩, httl⟩
    · rintro ⟨call, hcall, ⟨⟨version, hcarries, hkey⟩, hserver, hkeyId⟩, httl⟩
      exact ⟨call, hcall, version, hcarries, hkey, hserver, hkeyId, httl⟩

/-- A keyring of one key. -/
def singleKey : DerivedSecretsConfig Unit := { current := { version := 1, key := () }, fallbacks := [] }

/-- A call at the beginning of 1970 that gives its challenge no time. -/
def timeless : Issue Unit :=
  { secrets := singleKey
    serverId := none
    keyId := none
    ttlMs := ⟨0, by rw [safeBound]; decide⟩
    nowMs := ⟨0, by rw [safeBound]; decide⟩
    nonce := [] }

/-- A code that cannot be forged, of zeros. -/
def zeroHmac (signed : List (Unit × List UInt8)) : IdealHmac Unit signed :=
  .ofSign (fun _ _ => List.replicate 32 0) (fun _ _ => length_replicate) signed

/-- A payload without a time to live is accepted. -/
theorem timeless_accepted :
    ¬ ∀ (calls : List (Issue Unit)) (hmac : IdealHmac Unit (calls.map Issue.signed))
      (secrets : DerivedSecretsConfig Unit) (params : ConsumeParams) (ttlMs nowMs : ℤ),
        (consumeChallenge hmac secrets params ttlMs nowMs).isSome ↔
          ∃ call ∈ calls, Accepted hmac secrets params call ∧ nowMs - call.nowMs.value ≤ call.ttlMs.value := by
  intro h
  let hmac := zeroHmac ([timeless].map Issue.signed)
  let params : ConsumeParams := { challengeId := (issueChallenge hmac timeless).id, serverId := none, keyId := none }
  have hcarries : Carries hmac params.challengeId 1 timeless :=
    carries_issueChallenge hmac (by decide) (by rw [safeBound]; decide)
  have haccepted : (consumeChallenge hmac singleKey params 60000 1).isSome :=
    (consumeChallenge_isSome hmac singleKey params 60000 1).2
      ⟨timeless, mem_singleton_self _, 1, hcarries, rfl, rfl, rfl, by decide⟩
  obtain ⟨call, hcall, -, hlate⟩ := (h [timeless] hmac singleKey params 60000 1).1 haccepted
  rw [mem_singleton.1 hcall] at hlate
  cases hlate

end TurboPanel.Challenges
