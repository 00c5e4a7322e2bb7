import SmartC.Web.Routes

/-!
# Who a visitor is

The server remembers no visitor. It draws an id for a request without a cookie
that passes, and hands the signed id out with the answer, whatever the answer
is. As long as nobody makes a signature without the secret (`Unforged`), every
session is asked for under an id that was drawn for exactly one request, and a
browser that sends its cookie back keeps its id.
-/

namespace SmartC.Web

open Function (update update_apply)
open Lsp
open Transition (RecordedWhen)

def Handler.sets : Handler → Option JsString
  | .answered _ visitorCookie => visitorCookie
  | _ => none

/-- A cookie that passes is one that an answer has set. The model has no restarts: a cookie that
the server handed out before it was started again with the same secret counts as forged. -/
def Unforged (signer : VisitorSigner) (s : Gateway) : GatewayAction → Prop
  | .post _ _ request _ => ∀ value ∈ request.visitorCookie,
      signer.verifyVisitorCookie value ≠ none → ∃ n, (s.handlers n).sets = some value
  | _ => True

def Handed (signer : VisitorSigner) (handlers : Nat → Handler) (id : JsString) : Prop :=
  ∃ n, (handlers n).hands = some (signer.cookieValue id)

/-- A cookie that is handed out is the one for an id that was drawn, no two requests are handed
the same, and nobody uses an id without a cookie. -/
structure Custody (signer : VisitorSigner) (drawn : List JsString) (handlers : Nat → Handler)
    (log : List Fetch) : Prop where
  genuine : ∀ n value, (handlers n).hands = some value →
    ∃ id ∈ drawn, isVisitorId id = true ∧ value = signer.cookieValue id
  once : ∀ m n value, (handlers m).hands = some value → (handlers n).hands = some value → m = n
  reading : ∀ n id, (handlers n).visitorId = some id → Handed signer handlers id
  fetched : ∀ fetch ∈ log, Handed signer handlers fetch.visitorId

section

variable {config : WebConfig} {signer : VisitorSigner} {s s' : Gateway} {a : GatewayAction}
  {log fetched : List Fetch} {id id' value : JsString} {n : Nat} {handler : Handler}
  {drawn drawn' : List JsString} {handlers : Nat → Handler}

theorem getVisitorIdentity_cases (signer : VisitorSigner) (cookie : Option JsString)
    (random : JsString) :
    signer.getVisitorIdentity cookie random = ⟨random, signer.cookieValue random, true⟩ ∨
      ∃ value id, cookie = some value ∧ signer.verifyVisitorCookie value = some id ∧
        signer.getVisitorIdentity cookie random = ⟨id, value, false⟩ := by
  cases cookie with
  | none => exact .inl rfl
  | some value =>
    cases hpass : signer.verifyVisitorCookie value with
    | none => exact .inl (by simp [VisitorSigner.getVisitorIdentity, hpass])
    | some id =>
      exact .inr ⟨value, id, rfl, hpass, by simp [VisitorSigner.getVisitorIdentity, hpass]⟩

theorem Custody.set (h : Custody signer drawn handlers log) (hdrawn : drawn ⊆ drawn')
    (hkept : ∀ value, (handlers n).hands = some value → handler.hands = some value)
    (hnew : ∀ value, handler.hands = some value → (handlers n).hands = some value ∨
      ∃ id ∈ drawn', id ∉ drawn ∧ isVisitorId id = true ∧ value = signer.cookieValue id)
    (hreading : ∀ id, handler.visitorId = some id →
      Handed signer handlers id ∨ handler.hands = some (signer.cookieValue id))
    (hfetched : ∀ fetch ∈ fetched, Handed signer handlers fetch.visitorId) :
    Custody signer drawn' (update handlers n handler) (log ++ fetched) := by
  have hgrows {id} (hid : Handed signer handlers id) :
      Handed signer (update handlers n handler) id := by
    obtain ⟨m, hm⟩ := hid
    refine ⟨m, ?_⟩
    rw [update_apply]
    split
    · next hmn => exact hkept _ (hmn ▸ hm)
    · exact hm
  -- A cookie for a new id cannot have been handed out before.
  have hother {m value} (hmn : m ≠ n) (hm : (handlers m).hands = some value)
      (hn : handler.hands = some value) : False := by
    rcases hnew value hn with hold | ⟨id, -, hfresh, hid, rfl⟩
    · exact hmn (h.once m n value hm hold)
    · obtain ⟨id', hid', hvisitor, heq⟩ := h.genuine m _ hm
      exact hfresh (eq_of_cookieValue hid hvisitor heq ▸ hid')
  have hlater {m value} (hm : (handlers m).hands = some value) :=
    (h.genuine m value hm).imp fun id hid => And.imp_left (@hdrawn id) hid
  constructor
  · intro m value hm
    rw [update_apply] at hm
    split at hm
    · rcases hnew value hm with hold | ⟨id, hid, -, hvalue⟩
      · exact hlater hold
      · exact ⟨id, hid, hvalue⟩
    · exact hlater hm
  · intro m k value hm hk
    rw [update_apply] at hm hk
    split at hm <;> split at hk
    · next hmn hkn => exact hmn.trans hkn.symm
    · next hmn hkn => exact (hother hkn hk hm).elim
    · next hmn hkn => exact (hother hmn hm hk).elim
    · exact h.once m k value hm hk
  · intro m id hm
    rw [update_apply] at hm
    split at hm
    · refine (hreading id hm).elim hgrows fun hhands => ⟨n, ?_⟩
      rwa [Function.update_self]
    · exact hgrows (h.reading m id hm)
  · intro fetch hfetch
    exact hgrows ((List.mem_append.1 hfetch).elim (h.fetched fetch) (hfetched fetch))

theorem Custody.keep (h : Custody signer drawn handlers log) (hdrawn : drawn ⊆ drawn')
    (hhands : handler.hands = (handlers n).hands)
    (hreading : ∀ id, handler.visitorId = some id → Handed signer handlers id)
    (hfetched : ∀ fetch ∈ fetched, Handed signer handlers fetch.visitorId) :
    Custody signer drawn' (update handlers n handler) (log ++ fetched) :=
  h.set hdrawn (fun _ hv => hhands.trans hv) (fun _ hv => .inl (hhands.symm.trans hv))
    (fun id hid => .inl (hreading id hid)) hfetched

theorem Handler.hands_of_sets (h : handler.sets = some value) : handler.hands = some value := by
  cases handler with
  | answered response visitorCookie => exact h
  | _ => cases h

theorem Custody.handed (h : Custody signer drawn handlers log)
    (hpass : signer.verifyVisitorCookie value = some id)
    (hset : (handlers n).sets = some value) : Handed signer handlers id := by
  have hhands := Handler.hands_of_sets hset
  obtain ⟨id', -, hid', rfl⟩ := h.genuine n value hhands
  rw [verifyVisitorCookie_cookieValue hid'] at hpass
  cases hpass
  exact ⟨n, hhands⟩

theorem Custody.step (h : Custody signer s.drawn s.handlers log)
    (hsigner : config.signer = some signer) (hunforged : Unforged signer s a)
    (hstep : Gateway.step config s a = some s') :
    Custody signer s'.drawn s'.handlers (log ++ Gateway.fetches config s a) := by
  have hcase := Gateway.step_cases hstep
  generalize Gateway.fetches config s a = fetched at hcase ⊢
  cases hcase with
  | passed hms =>
    rw [List.append_nil]
    exact h
  | turnedAway hidle =>
    exact h.keep (List.subset_append_left ..) (by rw [hidle]; rfl) (fun id hid => by cases hid)
      (by simp)
  | @received n _ _ _ _ request random hidle hvisitor hfresh hsigner' hidentity hhands hreads =>
    cases hsigner.symm.trans hsigner'
    rcases getVisitorIdentity_cases signer request.visitorCookie random with
      hnew | ⟨value, id, hcookie, hpass, hold⟩
    · obtain rfl := hidentity.symm.trans hnew
      have hidle' : (s.handlers n).hands = none := by rw [hidle]; rfl
      refine h.set (List.subset_append_left ..) (fun value hv => ?_) (fun value hv => .inr ?_)
        (fun id hid => .inr ?_) (by simp)
      · cases hidle'.symm.trans hv
      · exact ⟨random, by simp, hfresh, hvisitor, Option.some.inj (hv.symm.trans hhands)⟩
      · rw [hreads id hid]
        exact hhands
    · obtain rfl := hidentity.symm.trans hold
      obtain ⟨m, hset⟩ := hunforged value hcookie (by rw [hpass]; simp)
      refine h.keep (List.subset_append_left ..) (by rw [hidle]; exact hhands) (fun id' hid => ?_)
        (by simp)
      rw [hreads id' hid]
      exact h.handed hpass hset
  | continued hhands hreads =>
    exact h.keep (fun _ => id) hhands (fun id hid => h.reading _ id (hreads id hid)) (by simp)
  | denied hhands hreads =>
    exact h.keep (fun _ => id) hhands (fun id hid => by cases hreads.symm.trans hid) (by simp)
  | asked hreading =>
    refine h.keep (fun _ => id) (by rw [hreading]; rfl) (fun id hid => by cases hid) ?_
    simpa using h.reading _ _ (by rw [hreading]; rfl)

theorem custody (hsigner : config.signer = some signer)
    (h : RecordedWhen (gatewaySystem config) (Unforged signer) (Gateway.fetches config) s log) :
    Custody signer s.drawn s.handlers log := by
  refine h.invariant (I := fun s log => Custody signer s.drawn s.handlers log)
    ⟨?_, ?_, ?_, ?_⟩ fun _ hs hc hstep => hs.step hsigner hc hstep
  · intro n value hn
    cases hn
  · intro m n value hm
    cases hm
  · intro n id hn
    cases hn
  · intro fetch hfetch
    cases hfetch

end

/-- Unless a signature is forged, sessions are asked for under ids whose cookies are handed to one
request each, and a cookie that comes back stands for its id and is kept. -/
theorem visitors_keep_their_ids {config : WebConfig} {signer : VisitorSigner} {s : Gateway}
    {log : List Fetch} (hsigner : config.signer = some signer)
    (h : RecordedWhen (gatewaySystem config) (Unforged signer) (Gateway.fetches config) s log) :
    (∀ fetch ∈ log, ∃ n, (s.handlers n).hands = some (signer.cookieValue fetch.visitorId)) ∧
    (∀ m n value, (s.handlers m).hands = some value → (s.handlers n).hands = some value → m = n) ∧
    (∀ n value, (s.handlers n).hands = some value → ∃ id ∈ s.drawn, value = signer.cookieValue id ∧
      ∀ random, signer.getVisitorIdentity (some value) random = ⟨id, value, false⟩) := by
  have hcustody := custody hsigner h
  refine ⟨hcustody.fetched, hcustody.once, fun n value hn => ?_⟩
  obtain ⟨id, hdrawn, hid, hvalue⟩ := hcustody.genuine n value hn
  refine ⟨id, hdrawn, hvalue, fun random => ?_⟩
  rw [hvalue, VisitorSigner.getVisitorIdentity]
  simp [verifyVisitorCookie_cookieValue hid]

/-- The cookie that is sent, if there is one, is from the first answer. -/
def Gateway.returns (s : Gateway) : GatewayAction → Bool
  | .post _ _ request _ => request.visitorCookie.all fun value => (s.handlers 0).sets = some value
  | _ => true

theorem Gateway.unforged_of_returns {s : Gateway} {a : GatewayAction} (h : s.returns a = true) :
    Unforged localSigner s a := by
  cases a with
  | post n route request random =>
    intro value hvalue _
    simp only [Gateway.returns, Option.mem_def.1 hvalue, Option.all_some, decide_eq_true_eq] at h
    exact ⟨0, h⟩
  | _ => trivial

open GatewayAction (spare) in
/-- The service cannot be reached at the first visit; the second visit has the cookie. -/
theorem second_visit_is_recognized :
    ∃ s log, RecordedWhen (gatewaySystem localWeb) (Unforged localSigner)
      (Gateway.fetches localWeb) s log ∧ log.map (·.visitorId) = [spare 0, spare 0] ∧
      ∀ n, (s.handlers n).hands = some (localSigner.cookieValue (spare 0)) → n = 0 := by
  obtain ⟨s, log, hrun, hp⟩ := Transition.recordedWhen_of_execute (c := Gateway.returns)
    (i := Gateway.new) (f := Gateway.step localWeb) (Gateway.fetches localWeb)
    (GatewayAction.run none 0 ++ .answer 0 .failed ::
      GatewayAction.run (some (localSigner.cookieValue (spare 0))) 1)
    (p := fun s log => log.map (·.visitorId) = [spare 0, spare 0] ∧
      (s.handlers 0).hands = some (localSigner.cookieValue (spare 0)))
    (by decide +kernel)
  obtain ⟨hvisitors, hfirst⟩ := of_decide_eq_true hp
  have hrun := hrun.weaken fun _ _ => Gateway.unforged_of_returns
  exact ⟨s, log, hrun, hvisitors,
    fun n hn => (visitors_keep_their_ids rfl hrun).2.1 n 0 _ hn hfirst⟩

end SmartC.Web
