import SmartC.Encodings
import SmartC.Utf16
import SmartC.Web.Validation

/-!
# The identity of a visitor

`identity.ts` keeps no table of visitors: the id of a visitor is in a cookie,
together with a signature. The HMAC under the secret of `getVisitorSecret` is a
parameter.
-/

namespace SmartC.Web

open Encodings (base64url)
open Lsp

structure VisitorIdentity where
  id : JsString
  cookieValue : JsString
  shouldSetCookie : Bool
  deriving DecidableEq, Repr

structure VisitorSigner where
  hmac : List UInt8 → List UInt8

def dot : UInt16 := 0x2E

/-- `s.lastIndexOf(u)`, for a single unit; `none` is -1. -/
def lastIndexOf (u : UInt16) : JsString → Option Nat
  | [] => none
  | x :: s =>
    match lastIndexOf u s with
    | some i => some (i + 1)
    | none => if x = u then some 0 else none

namespace VisitorSigner

variable (signer : VisitorSigner)

def signVisitorId (visitorId : JsString) : JsString := base64url (signer.hmac (toUtf8 visitorId))

def cookieValue (id : JsString) : JsString := id ++ dot :: signer.signVisitorId id

def verifyVisitorCookie (value : JsString) : Option JsString :=
  match lastIndexOf dot value with
  | none | some 0 => none
  | some separatorIndex =>
    let visitorId := value.take separatorIndex
    let signature := value.drop (separatorIndex + 1)
    if !isVisitorId visitorId then none
    else if toUtf8 (signer.signVisitorId visitorId) = toUtf8 signature then some visitorId
    else none

/-- `random` is what `randomUUID` would draw. -/
def getVisitorIdentity (currentValue : Option JsString) (random : JsString) : VisitorIdentity :=
  match currentValue with
  | none => ⟨random, signer.cookieValue random, true⟩
  | some value =>
    match signer.verifyVisitorCookie value with
    | some id => ⟨id, value, false⟩
    | none => ⟨random, signer.cookieValue random, true⟩

end VisitorSigner

/-! ### Which cookies pass -/

section

variable {signer : VisitorSigner} {id value b : JsString} {u : UInt16}

theorem lastIndexOf_eq_none (h : u ∉ value) : lastIndexOf u value = none := by
  induction value with
  | nil => rfl
  | cons x value ih =>
    obtain ⟨hx, hvalue⟩ := not_or.1 (List.mem_cons.not.1 h)
    simp [lastIndexOf, ih hvalue, Ne.symm hx]

theorem lastIndexOf_append (a : JsString) (h : u ∉ b) :
    lastIndexOf u (a ++ u :: b) = some a.length := by
  induction a with
  | nil => simp [lastIndexOf, lastIndexOf_eq_none h]
  | cons x a ih => simp [lastIndexOf, ih]

/-- The cookie that is set for an id passes for it. -/
theorem verifyVisitorCookie_cookieValue (h : isVisitorId id = true) :
    signer.verifyVisitorCookie (signer.cookieValue id) = some id := by
  have hindex : lastIndexOf dot (signer.cookieValue id) = some id.length :=
    lastIndexOf_append id (Encodings.notMem_base64url (by decide) _)
  have hlength : id.length = 36 := by
    simp only [isVisitorId, Bool.and_eq_true, beq_iff_eq] at h
    exact h.1
  unfold VisitorSigner.verifyVisitorCookie
  rw [hindex, hlength]
  have htake : (signer.cookieValue id).take 36 = id := by
    rw [VisitorSigner.cookieValue, ← hlength, List.take_left]
  have hdrop : (signer.cookieValue id).drop (36 + 1) = signer.signVisitorId id := by
    rw [VisitorSigner.cookieValue, ← hlength, List.drop_append]
    simp
  simp [htake, hdrop, h]

theorem eq_of_cookieValue {id' : JsString} (hid : isVisitorId id = true)
    (hid' : isVisitorId id' = true) (h : signer.cookieValue id = signer.cookieValue id') :
    id = id' := by
  have hpass : signer.verifyVisitorCookie (signer.cookieValue id) = some id :=
    verifyVisitorCookie_cookieValue hid
  rw [h, verifyVisitorCookie_cookieValue hid'] at hpass
  exact (Option.some.inj hpass).symm

end

end SmartC.Web
