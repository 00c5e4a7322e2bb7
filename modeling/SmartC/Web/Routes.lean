import SmartC.JsonParse
import SmartC.Web.Identity
import SmartC.Web.RateLimit

/-!
# The routes of the web front end

The two routes that create sessions differ in their limits, their validation
and their texts. Both look at the headers, restore or issue the identity of the
visitor, charge the request, read the body, validate it, charge the creation and
ask the internal service. They wait for the body and for the service; between
two waits nothing else runs, so a step of `Gateway.step` goes from one wait to
the next.
-/

namespace SmartC.Web

open Lsp
open JsonText (Doc)

inductive Route
  | executions
  | lspSessions
  deriving DecidableEq, Repr

structure NextRequest where
  contentType : Option JsString
  contentLength : Option JsString
  origin : Option JsString
  forwardedFor : Option JsString
  visitorCookie : Option JsString
  hasBody : Bool
  deriving DecidableEq, Repr

structure WebConfig where
  /-- `process.env.WEB_ORIGIN ?? "http://localhost:8080"` -/
  webOrigin : JsString
  /-- `new URL(text).origin`; `none` is an exception. -/
  originOf : JsString → Option JsString
  /-- `Number(text)`; `none` is not finite. -/
  toFinite : JsString → Option ℚ
  /-- The number that `JSON.parse` reads. -/
  toNumber : JsString → JsNumber
  /-- What the chunks decode to, one after the other. -/
  decode : List UInt8 → JsString
  /-- `!Number.isNaN(Date.parse(text))` -/
  isDate : JsString → Bool
  /-- `none` is the exception of `getVisitorSecret`. -/
  signer : Option VisitorSigner
  token : Route → Option JsString

structure ProblemDetails where
  status : Nat
  title : String
  detail : Option String
  retryAfterSeconds : Option ℤ
  deriving DecidableEq, Repr

inductive ResponseBody
  | problem (details : ProblemDetails)
  | upstream (status : Nat) (contentType : JsString) (retryAfter : Option JsString)
      (text : JsString)
  | session (id webSocketPath expiresAt : JsString)
  | lspSession (id webSocketPath expiresAt workspaceUri : JsString) (documentUris : Json)

structure TicketCookie where
  name : String
  value : JsString
  path : JsString
  deriving DecidableEq, Repr

/-- A response to which no visitor cookie has been applied yet. -/
structure Response where
  body : ResponseBody
  ticketCookie : Option TicketCookie

def problemResponse (status : Nat) (title : String) (detail : Option String) : Response :=
  ⟨.problem ⟨status, title, detail, none⟩, none⟩

def tooManyRequests (title : String) (retryAfterSeconds : ℤ) : Response :=
  ⟨.problem ⟨429, title, some "少し待ってからもう一度お試しください。", some retryAfterSeconds⟩, none⟩

def applyVisitorCookie (identity : VisitorIdentity) : Option JsString :=
  if identity.shouldSetCookie then some identity.cookieValue else none

/-! ### Headers -/

def MAX_REQUEST_BYTES : Nat := 512 * 1024

def tooLarge : Response :=
  problemResponse 413 "リクエストが大きすぎます" (some "C言語ソースは64KiB以内にしてください。")

/-- `Number(null)` is 0. -/
def contentLength (config : WebConfig) (request : NextRequest) : Option ℚ :=
  match request.contentLength with
  | none => some 0
  | some text => config.toFinite text

def validateOrigin (config : WebConfig) (origin : Option JsString) : Option Response :=
  match origin with
  | none => some (problemResponse 403 "送信元を確認できません"
      (some "ブラウザから同一オリジンでアクセスしてください。"))
  | some origin =>
    match config.originOf origin with
    | none => some (problemResponse 403 "送信元が不正です" none)
    | some parsed =>
      if parsed ≠ origin ∨ origin ≠ config.webOrigin then
        some (problemResponse 403 "異なる送信元からの操作は許可されていません" none)
      else none

def validateJsonPost (config : WebConfig) (request : NextRequest) : Option Response :=
  if !(js "application/json").isPrefixOf (toLowerCase (request.contentType.getD [])) then
    some (problemResponse 415 "JSON形式で送信してください"
      (some "Content-Typeにはapplication/jsonが必要です。"))
  else if (contentLength config request).any fun n => (MAX_REQUEST_BYTES : ℚ) < n then some tooLarge
  else validateOrigin config request.origin

/-! ### What the routes differ in -/

namespace Route

def scope : Route → String
  | .executions => "execution"
  | .lspSessions => "lsp"

def minute : ℚ := 60000

def hour : ℚ := 3600000

def rule (route : Route) (kind : String) (subject : JsString) (span : String) (limit windowMs : ℚ) :
    RateLimitRule :=
  ⟨js (route.scope ++ ":" ++ kind ++ ":") ++ subject ++ js (":" ++ span), limit, windowMs⟩

def requestRules (route : Route) (visitorId clientIp : JsString) : List RateLimitRule :=
  match route with
  | .executions => [
      route.rule "request:visitor" visitorId "minute" 30 minute,
      route.rule "request:ip" clientIp "minute" 30 minute]
  | .lspSessions => [
      route.rule "request:visitor" visitorId "minute" 60 minute,
      route.rule "request:ip" clientIp "minute" 60 minute]

def createRules (route : Route) (visitorId clientIp : JsString) : List RateLimitRule :=
  match route with
  | .executions => [
      route.rule "visitor" visitorId "minute" 6 minute,
      route.rule "ip" clientIp "minute" 6 minute,
      route.rule "ip" clientIp "hour" 30 hour]
  | .lspSessions => [
      route.rule "visitor" visitorId "minute" 10 minute,
      route.rule "ip" clientIp "minute" 20 minute]

def tooManyRequestsTitle : Route → String
  | .executions => "実行リクエストが多すぎます"
  | .lspSessions => "LSPリクエストが多すぎます"

def tooManySessionsTitle : Route → String
  | .executions => "実行回数が多すぎます"
  | .lspSessions => "LSPセッションの作成回数が多すぎます"

/-- The body for the internal service, as a function of the visitor and the address. -/
def validate (route : Route) (value : Json) : Except Response (JsString → JsString → Doc) :=
  match route with
  | .executions =>
    match validateExecutionRequest value with
    | .error error =>
      let status := if "64KiB".toList <:+: error.toList then 413 else 400
      .error (problemResponse status "実行セッションを作成できません" (some error))
    | .ok request => .ok (internalRequest request)
  | .lspSessions =>
    match validateLspSessionRequest value with
    | .error error => .error (problemResponse 400 "LSPセッションを作成できません" (some error))
    | .ok request => .ok (internalLspRequest request)

def expectedWebSocketPrefix : Route → String
  | .executions => "/ws/executions/"
  | .lspSessions => "/ws/lsp/"

def ticketCookieName : Route → String
  | .executions => "smart_c_exec_ticket"
  | .lspSessions => "smart_c_lsp_ticket"

end Route

/-! ### The answer of the internal service -/

inductive UpstreamAnswer
  | failed
  | answered (ok : Bool) (status : Nat) (contentType retryAfter : Option JsString) (text : JsString)

def isStringRecord : Option Json → Bool
  | some (.object fields) => fields.all fun field => (Value.string (some field.2)).isSome
  | _ => false

def includesDots (value : JsString) : Bool := decide (js ".." <:+: value)

def unreachable : Response :=
  problemResponse 503 "内部サービスへ接続できません"
    (some "しばらく待ってからもう一度お試しください。")

/-- The checks of `createInternalSession` on a value that is not null. -/
def checkSession (config : WebConfig) (route : Route) (value : Json) : Option Response := do
  let id ← Value.string (Value.property "id" (some value))
  let webSocketPath ← Value.string (Value.property "webSocketPath" (some value))
  guard ((js route.expectedWebSocketPrefix).isPrefixOf webSocketPath && !includesDots webSocketPath)
  let expiresAt ← Value.string (Value.property "expiresAt" (some value))
  guard (config.isDate expiresAt)
  let ticket ← Value.string (Value.property "ticket" (some value))
  guard (!ticket.isEmpty)
  let cookie : TicketCookie := ⟨route.ticketCookieName, ticket, webSocketPath⟩
  match route with
  | .executions => some ⟨.session id webSocketPath expiresAt, some cookie⟩
  | .lspSessions =>
    let workspaceUri ← Value.string (Value.property "workspaceUri" (some value))
    let documentUris ← Value.property "documentUris" (some value)
    guard (isStringRecord (some documentUris) &&
      (Value.string (Value.property "main.c" (some documentUris))).isSome)
    some ⟨.lspSession id webSocketPath expiresAt workspaceUri documentUris, some cookie⟩

def createInternalSession (config : WebConfig) (route : Route) (answer : UpstreamAnswer) :
    Response :=
  match answer with
  | .failed => unreachable
  | .answered false status contentType retryAfter text =>
    ⟨.upstream status (contentType.getD (js "application/problem+json")) retryAfter text, none⟩
  | .answered true _ _ _ text =>
    match JsonParse.parse config.toNumber text with
    | none | some .null => unreachable
    | some value =>
      (checkSession config route value).getD
        (problemResponse 502 "内部サービスの応答が不正です" none)

/-! ### A request on its way -/

inductive Handler
  | idle
  | reading (route : Route) (identity : VisitorIdentity) (clientIp : JsString) (body : List UInt8)
  | waiting (route : Route) (identity : VisitorIdentity)
  | answered (response : Response) (visitorCookie : Option JsString)

def withVisitorCookie (response : Response) (identity : VisitorIdentity) : Handler :=
  .answered response (applyVisitorCookie identity)

structure Fetch where
  time : ℚ
  route : Route
  visitorId : JsString
  clientIp : JsString
  body : Doc

/-- `POST` up to the body. -/
def receive (config : WebConfig) (route : Route) (limits : RateLimitStore) (now : ℚ)
    (request : NextRequest) (random : JsString) : Handler × RateLimitStore :=
  match validateJsonPost config request, config.signer with
  | some response, _ => (.answered response none, limits)
  | none, none =>
    (.answered (problemResponse 503 "匿名利用者の設定が完了していません" none) none, limits)
  | none, some signer =>
    -- from here on every answer carries the cookie of a new visitor
    let identity := signer.getVisitorIdentity request.visitorCookie random
    let clientIp := getClientIp request.forwardedFor
    let (result, limits) :=
      consumeRateLimits limits (route.requestRules identity.id clientIp) now
    if !result.allowed then
      (withVisitorCookie
        (tooManyRequests route.tooManyRequestsTitle result.retryAfterSeconds) identity, limits)
    else if !request.hasBody then
      (withVisitorCookie (problemResponse 400 "リクエスト本文がありません" none) identity, limits)
    else (.reading route identity clientIp [], limits)

def invalidJson : Response :=
  problemResponse 400 "JSONを解析できません" (some "リクエスト本文の形式を確認してください。")

/-- What follows the body: the request to the internal service, or a response. -/
def forward (config : WebConfig) (route : Route) (identity : VisitorIdentity) (clientIp : JsString)
    (body : List UInt8) (limits : RateLimitStore) (now : ℚ) :
    Except Response Fetch × RateLimitStore :=
  match JsonParse.parse config.toNumber (config.decode body) with
  | none => (.error invalidJson, limits)
  | some value =>
    match route.validate value with
    | .error response => (.error response, limits)
    | .ok request =>
      let (result, limits) :=
        consumeRateLimits limits (route.createRules identity.id clientIp) now
      if !result.allowed then
        (.error (tooManyRequests route.tooManySessionsTitle result.retryAfterSeconds), limits)
      -- the creation has been charged by then
      else if (config.token route).all (·.isEmpty) then
        (.error (problemResponse 503 "サービス設定が完了していません"
          (some "内部通信用トークンが設定されていません。")), limits)
      else (.ok ⟨now, route, identity.id, clientIp, request identity.id clientIp⟩, limits)

def afterBody (route : Route) (identity : VisitorIdentity) : Except Response Fetch → Handler
  | .ok _ => .waiting route identity
  | .error response => withVisitorCookie response identity

structure Gateway where
  now : ℚ
  limits : RateLimitStore
  /-- The ids that were drawn, or kept ready, for the requests. -/
  drawn : List JsString
  handlers : Nat → Handler

inductive GatewayAction
  | pass (ms : ℚ)
  | post (n : Nat) (route : Route) (request : NextRequest) (random : JsString)
  | chunk (n : Nat) (bytes : List UInt8)
  | bodyEnds (n : Nat)
  | bodyFails (n : Nat)
  | answer (n : Nat) (answer : UpstreamAnswer)

namespace Gateway

def new : Gateway := ⟨0, .new, [], fun _ => .idle⟩

def setHandler (s : Gateway) (n : Nat) (handler : Handler) : Gateway :=
  { s with handlers := Function.update s.handlers n handler }

def step (config : WebConfig) (s : Gateway) : GatewayAction → Option Gateway
  | .pass ms => if 0 ≤ ms then some { s with now := s.now + ms } else none
  | .post n route request random =>
    match s.handlers n with
    | .idle =>
      if isVisitorId random = true ∧ random ∉ s.drawn then
        let (handler, limits) := receive config route s.limits s.now request random
        some { s.setHandler n handler with limits, drawn := s.drawn ++ [random] }
      else none
    | _ => none
  | .chunk n bytes =>
    match s.handlers n with
    | .reading route identity clientIp body =>
      if MAX_REQUEST_BYTES < (body ++ bytes).length then
        some (s.setHandler n (withVisitorCookie tooLarge identity))
      else some (s.setHandler n (.reading route identity clientIp (body ++ bytes)))
    | _ => none
  | .bodyEnds n =>
    match s.handlers n with
    | .reading route identity clientIp body =>
      let (result, limits) := forward config route identity clientIp body s.limits s.now
      some { s.setHandler n (afterBody route identity result) with limits }
    | _ => none
  | .bodyFails n =>
    match s.handlers n with
    | .reading _ identity _ _ =>
      some (s.setHandler n (withVisitorCookie invalidJson identity))
    | _ => none
  | .answer n answer =>
    match s.handlers n with
    | .waiting route identity =>
      some (s.setHandler n
        (withVisitorCookie (createInternalSession config route answer) identity))
    | _ => none

def fetches (config : WebConfig) (s : Gateway) : GatewayAction → List Fetch
  | .bodyEnds n =>
    match s.handlers n with
    | .reading route identity clientIp body =>
      (forward config route identity clientIp body s.limits s.now).1.toOption.toList
    | _ => []
  | _ => []

end Gateway

def gatewaySystem (config : WebConfig) : Transition.System Gateway GatewayAction :=
  .ofStep .new (Gateway.step config)

/-! ### What a step can do -/

def Handler.hands : Handler → Option JsString
  | .idle => none
  | .reading _ identity _ _ => applyVisitorCookie identity
  | .waiting _ identity => applyVisitorCookie identity
  | .answered _ visitorCookie => visitorCookie

def Handler.visitorId : Handler → Option JsString
  | .reading _ identity _ _ => some identity.id
  | _ => none

/-- The state after a step, and the request to the internal service. Rules that are charged are
those of a route. -/
inductive Gateway.StepCase (config : WebConfig) (s : Gateway) :
    GatewayAction → Gateway → List Fetch → Prop
  | passed (hms : 0 ≤ ms) : StepCase config s (.pass ms) { s with now := s.now + ms } []
  | turnedAway (hidle : s.handlers n = .idle) :
      StepCase config s (.post n route request random)
        { s.setHandler n (.answered response none) with drawn := s.drawn ++ [random] } []
  | received (request : NextRequest) (random : JsString) (hidle : s.handlers n = .idle)
      (hvisitor : isVisitorId random = true) (hfresh : random ∉ s.drawn)
      (hsigner : config.signer = some signer)
      (hidentity : signer.getVisitorIdentity request.visitorCookie random = identity)
      (hhands : handler.hands = applyVisitorCookie identity)
      (hreads : ∀ id, handler.visitorId = some id → id = identity.id) :
      StepCase config s (.post n route request random)
        { s.setHandler n handler with
          limits := (consumeRateLimits s.limits (route.requestRules identity.id
            (getClientIp request.forwardedFor)) s.now).2
          drawn := s.drawn ++ [random] } []
  | continued (hhands : handler.hands = (s.handlers n).hands)
      (hreads : ∀ id, handler.visitorId = some id → (s.handlers n).visitorId = some id) :
      StepCase config s a (s.setHandler n handler) []
  | denied {route : Route} (hhands : handler.hands = (s.handlers n).hands)
      (hreads : handler.visitorId = none) :
      StepCase config s a { s.setHandler n handler with
        limits := (consumeRateLimits s.limits (route.createRules visitorId clientIp) s.now).2 } []
  | asked (hreading : s.handlers n = .reading route identity clientIp body)
      (hvalid : route.validate value = .ok request)
      (hallowed : (consumeRateLimits s.limits (route.createRules identity.id clientIp)
        s.now).1.allowed = true) :
      StepCase config s a { s.setHandler n (.waiting route identity) with
        limits := (consumeRateLimits s.limits (route.createRules identity.id clientIp) s.now).2 }
        [⟨s.now, route, identity.id, clientIp, request identity.id clientIp⟩]

section

variable {config : WebConfig} {s s' : Gateway} {a : GatewayAction} {n : Nat} {route : Route}
  {request : NextRequest} {random clientIp : JsString} {identity : VisitorIdentity}
  {body : List UInt8}

theorem Gateway.receive_cases (hidle : s.handlers n = .idle) (hvisitor : isVisitorId random = true)
    (hfresh : random ∉ s.drawn) :
    StepCase config s (.post n route request random)
      { s.setHandler n (receive config route s.limits s.now request random).1 with
        limits := (receive config route s.limits s.now request random).2
        drawn := s.drawn ++ [random] } [] := by
  unfold receive
  split
  · exact .turnedAway hidle
  · exact .turnedAway hidle
  · next signer hvalid hsigner =>
    dsimp only
    split
    · refine .received request random hidle hvisitor hfresh hsigner rfl rfl fun id hid => ?_
      cases hid
    · split
      · refine .received request random hidle hvisitor hfresh hsigner rfl rfl fun id hid => ?_
        cases hid
      · refine .received request random hidle hvisitor hfresh hsigner rfl rfl fun id hid => ?_
        exact (Option.some.inj hid).symm

theorem Gateway.forward_cases (hreading : s.handlers n = .reading route identity clientIp body) :
    StepCase config s a
      { s.setHandler n (afterBody route identity
          (forward config route identity clientIp body s.limits s.now).1) with
        limits := (forward config route identity clientIp body s.limits s.now).2 }
      (forward config route identity clientIp body s.limits s.now).1.toOption.toList := by
  have hhands (response : Response) :
      (withVisitorCookie response identity).hands = (s.handlers n).hands := by rw [hreading]; rfl
  unfold forward
  split
  · exact .continued (hhands _) fun id hid => by cases hid
  · split
    · exact .continued (hhands _) fun id hid => by cases hid
    · next request hvalid =>
      dsimp only
      split
      · exact .denied (hhands _) rfl
      · next hallowed =>
        split
        · exact .denied (hhands _) rfl
        · exact .asked hreading hvalid (by simpa using hallowed)

theorem Gateway.step_cases (h : step config s a = some s') :
    StepCase config s a s' (fetches config s a) := by
  cases a with
  | pass ms =>
    rw [step] at h
    split at h <;> cases h
    next hms => exact .passed hms
  | post n route request random =>
    simp only [step] at h
    split at h
    · next hidle =>
      split at h <;> cases h
      next hrandom => exact receive_cases hidle hrandom.1 hrandom.2
    · cases h
  | chunk n bytes =>
    simp only [step] at h
    split at h
    · next hreading =>
      split at h <;> cases h
      · exact .continued (by rw [hreading]; rfl) fun id hid => by cases hid
      · exact .continued (by rw [hreading]; rfl) fun id hid => by rwa [hreading]
    · cases h
  | bodyEnds n =>
    simp only [step] at h
    split at h
    · next hreading =>
      cases h
      rw [fetches, hreading]
      exact forward_cases hreading
    · cases h
  | bodyFails n =>
    simp only [step] at h
    split at h <;> cases h
    next hreading => exact .continued (by rw [hreading]; rfl) fun id hid => by cases hid
  | answer n answer =>
    simp only [step] at h
    split at h <;> cases h
    next hwaiting => exact .continued (by rw [hwaiting]; rfl) fun id hid => by cases hid

end

/-! ### A page and its server -/

def localSigner : VisitorSigner := ⟨Encodings.tag⟩

def localWeb : WebConfig where
  webOrigin := js "http://localhost:8080"
  originOf := some
  toFinite := fun _ => none
  toNumber := JsonParse.decimal
  decode := List.map UInt8.toUInt16
  isDate := fun _ => true
  signer := some localSigner
  token := fun _ => some (js "token")

namespace GatewayAction

def pageRequest (cookie : Option JsString) : NextRequest :=
  ⟨some (js "application/json"), none, some (js "http://localhost:8080"), some (js "192.0.2.1"),
    cookie, true⟩

def sourceBody : List UInt8 :=
  toUtf8 (js ("\x7b\"files\":[\x7b\"name\":\"main.c\",\"content\":\"\"\x7d]," ++
    "\"terminal\":\x7b\"cols\":80,\"rows\":24\x7d\x7d"))

def spare (n : Nat) : JsString :=
  js "00000000-0000-4000-8000-0000000000" ++ [n / 10, n % 10].map fun k => UInt16.ofNat (0x30 + k)

def run (cookie : Option JsString) (n : Nat) : List GatewayAction :=
  [.post n .executions (pageRequest cookie) (spare n), .chunk n sourceBody, .bodyEnds n]

end GatewayAction

end SmartC.Web
