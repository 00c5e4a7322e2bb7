import SmartC.Encodings
import SmartC.Executor.State

/-!
# The tickets of executor-api

`TicketSigner` of `ticket.rs`. HMAC-SHA256 under the secret is a parameter; the
bytes that are signed, the text of a ticket and how that text is taken apart
again are as in the source. The signed bytes join fields of any length with line
feeds, and a visitor id may contain line feeds itself. The bytes therefore do
not determine all the fields on their own. They determine the session, and
together with its visitor and path also the expiry and the nonce.
-/

namespace SmartC.Executor

open Encodings

def uuidText (id : Uuid) : String :=
  let group start length :=
    (List.range' start length).map fun i => Nat.digitChar (id / 16 ^ (31 - i) % 16)
  String.ofList (['-'].intercalate [group 0 8, group 8 4, group 12 4, group 16 4, group 20 12])

def executionPath (id : Uuid) : String := "/ws/executions/" ++ uuidText id

def newline : UInt8 := 10

/-- The bytes that `sign` passes to the HMAC. -/
def signedBytes (sessionId : Uuid) (visitorId path : String) (expires : Nat) (nonce : String) :
    Bytes :=
  bigEndian 16 sessionId ++ (newline :: (utf8 visitorId ++ (newline :: (utf8 path ++
    (newline :: (utf8 (toString expires) ++ (newline :: utf8 nonce)))))))

structure TicketSigner where
  /-- HMAC-SHA256 under the secret. -/
  hmac : Bytes → Bytes

/-- An `IssuedTicket` with everything that it was signed for. -/
structure IssuedTicket where
  sessionId : Uuid
  visitorId : String
  path : String
  expiresUnix : Nat
  nonce : String
  value : String
  deriving DecidableEq, Repr

def IssuedTicket.signed (ticket : IssuedTicket) : Bytes :=
  signedBytes ticket.sessionId ticket.visitorId ticket.path ticket.expiresUnix ticket.nonce

structure TicketParts where
  nonce : String
  expires : Nat
  signature : Bytes
  deriving DecidableEq, Repr

/-- `none` stands for `Malformed`. -/
def TicketParts.parse (value : String) : Option TicketParts :=
  match value.toList.splitOn '.' with
  | nonce :: expires :: signature :: rest => do
    let expires ← parseUnsigned 64 expires
    let signature ← ofBase64 signature
    if rest ≠ [] ∨ nonce = [] then none else some ⟨String.ofList nonce, expires, signature⟩
  | _ => none

/-- A text that `verify` reads the nonce and the expiry of the ticket from. -/
def IssuedTicket.CarriedBy (ticket : IssuedTicket) (value : String) : Prop :=
  ∃ parts, TicketParts.parse value = some parts ∧
    parts.nonce = ticket.nonce ∧ parts.expires = ticket.expiresUnix

namespace TicketSigner

variable (signer : TicketSigner)

def sign (sessionId : Uuid) (visitorId path : String) (expires : Nat) (nonce : String) : Bytes :=
  signer.hmac (signedBytes sessionId visitorId path expires nonce)

/-- The caller has added the lifetime to the current second and draws the nonce. -/
def issue (sessionId : Uuid) (visitorId path : String) (expiresUnix : Nat)
    (random : Fin 24 → UInt8) : IssuedTicket :=
  let nonce := String.ofList (toBase64 (List.ofFn random))
  let signature := signer.sign sessionId visitorId path expiresUnix nonce
  ⟨sessionId, visitorId, path, expiresUnix, nonce,
    nonce ++ "." ++ toString expiresUnix ++ "." ++ String.ofList (toBase64 signature)⟩

def verify (value : String) (sessionId : Uuid) (visitorId path : String) (now : Nat) :
    Except TicketError Unit :=
  match TicketParts.parse value with
  | none => .error .malformed
  | some parts =>
    if parts.expires ≤ now then .error .expired
    else if signer.sign sessionId visitorId path parts.expires parts.nonce = parts.signature then
      .ok ()
    else .error .invalid

/-- The signature that `verify` finds in a text is wrong, or the bytes that it is the signature of
were signed for one of the issued tickets. -/
def unforged (issued : List IssuedTicket) (value : String) (sessionId : Uuid)
    (visitorId path : String) : Bool :=
  (TicketParts.parse value).all fun parts =>
    signer.sign sessionId visitorId path parts.expires parts.nonce ≠ parts.signature ||
      (issued.map IssuedTicket.signed).contains
        (signedBytes sessionId visitorId path parts.expires parts.nonce)

def env (config : AppConfig) (fromUtf8Lossy : Bytes → String) : Env where
  config := config
  verify ticket j visitorId now := signer.verify ticket j visitorId (executionPath j) now
  fromUtf8Lossy := fromUtf8Lossy

variable {signer} {id : Uuid} {visitorId path : String} {expires now : Nat}

/-! ### The signed bytes -/

theorem utf8_injective {s t : String} (h : utf8 s = utf8 t) : s = t := Utf8.encode_injective h

theorem newline_notMem_utf8_toString (n : Nat) : newline ∉ utf8 (toString n) :=
  newline_notMem_encode_toDigits n

theorem signedBytes_session {id id' : Uuid} (hid : id < 2 ^ 128) (hid' : id' < 2 ^ 128)
    (h : signedBytes id visitorId path expires nonce =
      signedBytes id' visitorId' path' expires' nonce') : id = id' := by
  have hlength : (bigEndian 16 id).length = (bigEndian 16 id').length := by
    rw [length_bigEndian, length_bigEndian]
  have hbytes : bigEndian 16 id = bigEndian 16 id' := (List.append_inj h hlength).1
  exact bigEndian_injective hid hid' hbytes

theorem signedBytes_inj (h : signedBytes id visitorId path expires nonce =
    signedBytes id visitorId path expires' nonce') : expires = expires' ∧ nonce = nonce' := by
  -- What stands before the expiry is the same on both sides, whatever it contains.
  have h := (List.cons_eq_cons.1 (List.append_cancel_left h)).2
  have h := (List.cons_eq_cons.1 (List.append_cancel_left h)).2
  have h := (List.cons_eq_cons.1 (List.append_cancel_left h)).2
  obtain ⟨hexpires, hnonce⟩ := append_cons_inj (newline_notMem_utf8_toString expires)
    (newline_notMem_utf8_toString expires') h
  exact ⟨toDigits_injective (String.ofList_injective (utf8_injective hexpires)),
    utf8_injective hnonce⟩

/-! ### Issuing and verifying -/

theorem verify_ok_iff : signer.verify value sessionId visitorId path now = .ok () ↔
    ∃ parts, TicketParts.parse value = some parts ∧ now < parts.expires ∧
      signer.sign sessionId visitorId path parts.expires parts.nonce = parts.signature := by
  rw [verify]
  cases TicketParts.parse value with
  | none => simp
  | some parts =>
    simp only [Option.some.injEq, exists_eq_left']
    split
    · next hexpired => simp [Nat.not_lt.2 hexpired]
    · next hfresh =>
      split
      · next hsign => simp [hsign, Nat.lt_of_not_le hfresh]
      · next hsign => simp [hsign]

theorem dot_notMem_toBase64 (bytes : Bytes) : '.' ∉ toBase64 bytes := fun hdot =>
  absurd (mem_alphabet_of_mem_toBase64 hdot) (by decide)

theorem dot_notMem_toDigits (n : Nat) : '.' ∉ Nat.toDigits 10 n := fun hdot =>
  absurd (isDigit_of_mem_toDigits hdot) (by decide)

theorem splitOn_issue : (signer.issue id visitorId path expires random).value.toList.splitOn '.' =
    [toBase64 (List.ofFn random), Nat.toDigits 10 expires, toBase64 (signer.sign id visitorId path
      expires (String.ofList (toBase64 (List.ofFn random))))] := by
  have hparts : ∀ part ∈ [toBase64 (List.ofFn random), Nat.toDigits 10 expires,
      toBase64 (signer.sign id visitorId path expires
        (String.ofList (toBase64 (List.ofFn random))))], '.' ∉ part := by
    simp only [List.forall_mem_cons, List.not_mem_nil, false_imp_iff, implies_true, and_true]
    exact ⟨dot_notMem_toBase64 _, dot_notMem_toDigits _, dot_notMem_toBase64 _⟩
  rw [← List.splitOn_intercalate '.' hparts (List.cons_ne_nil _ _)]
  simp [issue, List.intercalate]

theorem parse_issue (hexpires : expires < 2 ^ 64) :
    TicketParts.parse (signer.issue id visitorId path expires random).value =
      some ⟨(signer.issue id visitorId path expires random).nonce, expires,
        signer.sign id visitorId path expires
          (signer.issue id visitorId path expires random).nonce⟩ := by
  have hnonce : toBase64 (List.ofFn random) ≠ [] :=
    toBase64_ne_nil fun hnil => by simpa using congrArg List.length hnil
  rw [TicketParts.parse, splitOn_issue]
  simp only [parseUnsigned_toDigits hexpires, ofBase64_toBase64, Option.bind_eq_bind,
    Option.bind_some, hnonce, ne_eq, not_true_eq_false, or_self, if_false]
  rfl

/-- The ticket that was issued for a session is accepted for it until it expires. -/
theorem verify_issue (hexpires : expires < 2 ^ 64) (hnow : now < expires) :
    signer.verify (signer.issue id visitorId path expires random).value id visitorId path now =
      .ok () :=
  verify_ok_iff.2 ⟨_, parse_issue hexpires, hnow, rfl⟩

/-- An accepted text that was not forged carries the ticket issued for the session. -/
theorem carriedBy_of_verify {ticket : IssuedTicket} {issued : List IssuedTicket}
    (hunforged : signer.unforged issued value ticket.sessionId ticket.visitorId ticket.path = true)
    (hids : ∀ other ∈ issued, other.sessionId < 2 ^ 128)
    (honly : ∀ other ∈ issued, other.sessionId = ticket.sessionId → other = ticket)
    (hid : ticket.sessionId < 2 ^ 128)
    (h : signer.verify value ticket.sessionId ticket.visitorId ticket.path now = .ok ()) :
    ticket.CarriedBy value ∧ now < ticket.expiresUnix := by
  obtain ⟨parts, hparse, hnow, hsign⟩ := verify_ok_iff.1 h
  rw [unforged, hparse] at hunforged
  have hsigned : signedBytes ticket.sessionId ticket.visitorId ticket.path parts.expires
      parts.nonce ∈ issued.map IssuedTicket.signed := by
    simpa [hsign] using hunforged
  obtain ⟨other, hmem, hbytes⟩ := List.mem_map.1 hsigned
  have hother : other = ticket := honly other hmem (signedBytes_session (hids other hmem) hid hbytes)
  subst hother
  obtain ⟨hexpires, hnonce⟩ := signedBytes_inj hbytes
  exact ⟨⟨parts, hparse, hnonce.symm, hexpires.symm⟩, hexpires ▸ hnow⟩

end TicketSigner

end SmartC.Executor
