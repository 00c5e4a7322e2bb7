import SmartC.Encodings
import SmartC.JsonParse

/-!
# Tickets for the language server

`TicketService` of `ticket.ts` signs the JSON of a payload, in base64, and accepts
a ticket if the signature is that of its first half. The HMAC is a parameter, and
so is what the decoders make of texts and bytes that no encoder has written.
-/

namespace SmartC.Lsp

open Encodings (base64url)
open JsonParse (integer integerText)
open JsonText (Doc)

structure TicketPayload where
  sessionId : JsString
  visitorId : JsString
  path : JsString
  nonce : JsString
  issuedAt : Int
  expiresAt : Int
  deriving DecidableEq, Repr

def TICKET_VERSION : Int := 1

def TicketPayload.toDoc (payload : TicketPayload) : Doc := .object [
  (js "version", integer TICKET_VERSION),
  (js "sessionId", .string payload.sessionId),
  (js "visitorId", .string payload.visitorId),
  (js "path", .string payload.path),
  (js "nonce", .string payload.nonce),
  (js "issuedAt", integer payload.issuedAt),
  (js "expiresAt", integer payload.expiresAt)]

/-- What `parsePayload` accepts of a parsed value. -/
def TicketPayload.ofJson (value : Option Json) : Option TicketPayload := do
  let version ← Value.safeInteger (Value.property "version" value)
  guard (version = TICKET_VERSION)
  let sessionId ← Value.string (Value.property "sessionId" value)
  let visitorId ← Value.string (Value.property "visitorId" value)
  let path ← Value.string (Value.property "path" value)
  let nonce ← Value.string (Value.property "nonce" value)
  let issuedAt ← Value.safeInteger (Value.property "issuedAt" value)
  let expiresAt ← Value.safeInteger (Value.property "expiresAt" value)
  return ⟨sessionId, visitorId, path, nonce, issuedAt, expiresAt⟩

structure TicketService where
  /-- HMAC-SHA256 under the secret. -/
  hmac : List UInt8 → List UInt8
  /-- `Buffer.from(text, "base64url")` where the text is not that of any bytes. -/
  lenient : JsString → List UInt8
  /-- `toString("utf8")` where the bytes are not those of any text. -/
  lossy : List UInt8 → JsString
  /-- The number of a JSON literal. Beyond the safe integers it is rounded, to an unsafe one. -/
  toNumber : JsString → JsNumber
  rounded : ∀ n k, (toNumber (integerText n)).safeInteger = some k → k = n

inductive TicketRefusal
  | invalid
  | expired
  deriving DecidableEq, Repr

namespace TicketService

variable (service : TicketService)

/-- `Buffer.from(JSON.stringify(payload), "utf8").toString("base64url")` -/
def encodePayload (payload : TicketPayload) : JsString :=
  base64url (toUtf8 (JsonParse.stringify payload.toDoc))

def sign (encodedPayload : JsString) : JsString := base64url (service.hmac (toUtf8 encodedPayload))

def dot : UInt16 := 0x2E

/-- The ticket of `issue`; the payload is built by the caller, who draws the nonce. -/
def ticket (payload : TicketPayload) : JsString :=
  encodePayload payload ++ [dot] ++ service.sign (encodePayload payload)

def hasValidSignature (encodedPayload receivedSignature : JsString) : Bool :=
  toUtf8 (service.sign encodedPayload) = toUtf8 receivedSignature

/-- `Buffer.from(text, "base64url")` -/
def fromBase64 (text : JsString) : List UInt8 :=
  (Encodings.ofBase64 (text.map fun u => Char.ofNat u.toNat)).getD (service.lenient text)

/-- `toString("utf8")` -/
def fromUtf8 (bytes : List UInt8) : JsString :=
  match String.fromUTF8? bytes.toByteArray with
  | some text => ofUnicode text
  | none => service.lossy bytes

def parsePayload (encodedPayload : JsString) : Option TicketPayload :=
  TicketPayload.ofJson
    (JsonParse.parse service.toNumber (service.fromUtf8 (service.fromBase64 encodedPayload)))

/-- The two halves of a ticket: exactly one dot, and something before it. -/
def split (ticket : JsString) : Option (JsString × JsString) :=
  match ticket.idxOf? dot with
  | none | some 0 => none
  | some separator =>
    if (ticket.drop (separator + 1)).contains dot then none
    else some (ticket.take separator, ticket.drop (separator + 1))

def verify (now : Int) (ticket sessionId visitorId path : JsString) :
    Except TicketRefusal TicketPayload :=
  match split ticket with
  | none => .error .invalid
  | some (encodedPayload, receivedSignature) =>
    if !service.hasValidSignature encodedPayload receivedSignature then .error .invalid
    else match service.parsePayload encodedPayload with
      | none => .error .invalid
      | some payload =>
        if payload.sessionId ≠ sessionId ∨ payload.visitorId ≠ visitorId ∨ payload.path ≠ path then
          .error .invalid
        else if payload.expiresAt ≤ now then .error .expired
        else .ok payload

/-- The bytes that the signature of a ticket is checked for were signed: either the signature is
wrong, or the first half is the encoding of one of the payloads. -/
def unforged (issued : List TicketPayload) (ticket : JsString) : Bool :=
  match split ticket with
  | none => true
  | some (encodedPayload, receivedSignature) =>
    !service.hasValidSignature encodedPayload receivedSignature ||
      (issued.map encodePayload).contains encodedPayload

variable {service}

theorem fromBase64_base64url (bytes : List UInt8) : service.fromBase64 (base64url bytes) = bytes := by
  rw [fromBase64, Encodings.map_base64url, Encodings.ofBase64_toBase64, Option.getD_some]

theorem fromUtf8_toUtf8_stringify (d : Doc) :
    service.fromUtf8 (toUtf8 (JsonParse.stringify d)) = JsonParse.stringify d := by
  have hstringify : JsonParse.stringify d = ofUnicode (String.ofList d.stringify) := by
    rw [JsonParse.stringify, ofUnicode, String.toList_ofList]
  have hvalid : String.fromUTF8? (toUtf8 (JsonParse.stringify d)).toByteArray =
      some (String.ofList d.stringify) := by
    rw [hstringify, toUtf8_of_toUnicode (toUnicode_ofUnicode _), Utf8.toByteArray_encode]
    exact dif_pos (String.ofList d.stringify).isValidUTF8
  rw [fromUtf8, hvalid, hstringify]

theorem ofJson_toDoc {payload payload' : TicketPayload}
    (h : TicketPayload.ofJson (some (JsonParse.ofDoc service.toNumber payload.toDoc)) = some payload') :
    payload' = payload := by
  have hinteger : ∀ {n k}, Value.safeInteger (some (JsonParse.ofDoc service.toNumber (integer n))) =
      some k → k = n := by
    intro n k hk
    rw [JsonParse.ofDoc_integer] at hk
    exact service.rounded n k hk
  rw [TicketPayload.ofJson] at h
  obtain ⟨version, -, h⟩ := Option.bind_eq_some_iff.1 h
  obtain ⟨-, -, h⟩ := Option.bind_eq_some_iff.1 h
  obtain ⟨sessionId, hsession, h⟩ := Option.bind_eq_some_iff.1 h
  obtain ⟨visitorId, hvisitor, h⟩ := Option.bind_eq_some_iff.1 h
  obtain ⟨path, hpath, h⟩ := Option.bind_eq_some_iff.1 h
  obtain ⟨nonce, hnonce, h⟩ := Option.bind_eq_some_iff.1 h
  obtain ⟨issuedAt, hissued, h⟩ := Option.bind_eq_some_iff.1 h
  obtain ⟨expiresAt, hexpires, h⟩ := Option.bind_eq_some_iff.1 h
  cases h
  cases hsession
  cases hvisitor
  cases hpath
  cases hnonce
  rw [hinteger hissued, hinteger hexpires]

theorem parsePayload_encodePayload {payload payload' : TicketPayload}
    (h : service.parsePayload (encodePayload payload) = some payload') : payload' = payload := by
  rw [parsePayload, encodePayload, fromBase64_base64url, fromUtf8_toUtf8_stringify,
    JsonParse.parse_stringify] at h
  exact ofJson_toDoc h

/-- A ticket that was not forged and is accepted carries a payload that was issued. -/
theorem verify_ok {issued : List TicketPayload} {now : Int}
    {ticket sessionId visitorId path : JsString} {payload : TicketPayload}
    (hunforged : service.unforged issued ticket = true)
    (h : service.verify now ticket sessionId visitorId path = .ok payload) :
    payload ∈ issued ∧ payload.sessionId = sessionId ∧ payload.visitorId = visitorId ∧
      payload.path = path ∧ now < payload.expiresAt := by
  unfold verify at h
  unfold unforged at hunforged
  split at h
  · cases h
  · next encodedPayload receivedSignature hsplit =>
    rw [hsplit] at hunforged
    split at h
    · cases h
    · next hvalid =>
      have hissued : encodedPayload ∈ issued.map encodePayload := by
        simpa [hvalid] using hunforged
      obtain ⟨original, hmem, rfl⟩ := List.mem_map.1 hissued
      split at h
      · cases h
      · next payload' hparse =>
        obtain rfl := parsePayload_encodePayload hparse
        split at h
        · cases h
        · next hexpected =>
          simp only [not_or, not_not] at hexpected
          split at h <;> cases h
          next hexpires => exact ⟨hmem, hexpected.1, hexpected.2.1, hexpected.2.2, Int.not_le.1 hexpires⟩

end TicketService

end SmartC.Lsp
