import SmartC.Lsp.Ticket
import SmartC.Lsp.Workspace
import SmartC.Timers

/-!
# The session manager

`LspSessionManager` of `session-manager.ts`. A step runs until every promise
that has settled was followed up, so what happens between two steps is that a
file operation settles, a timer fires, a process exits or a caller comes in.
The calls of `createSession`, `closeSession` and `shutdown` that have not
returned are part of the state, and so are the timers, the clangd processes and
the workspace directories. The socket of a session is left to its adapter.
-/

namespace SmartC.Lsp

inductive SessionLimitKind
  | global
  | visitor
  | ip
  | shuttingDown
  deriving DecidableEq, Repr

structure SessionManagerOptions where
  ticketService : TicketService
  maxSessions : Nat := 8
  maxSessionsPerVisitor : Nat := 1
  maxSessionsPerIp : Nat := 2
  idleTtlMs : Nat := 10 * 60 * 1000
  absoluteTtlMs : Nat := 30 * 60 * 1000
  ticketTtlMs : Nat := 30000

inductive AuthorizationCode
  | missingTicket
  | invalidTicket
  | expiredTicket
  | sessionNotFound
  | ticketUsed
  deriving DecidableEq, Repr

inductive SessionState
  | waiting
  | authorized
  | connected
  | disposing
  deriving DecidableEq, Repr

/-- Which deadline of a session a timer enforces. A timer acts for a session and a kind: it
closes the session. -/
inductive TimerKind
  | idle
  | absolute
  | ticket
  deriving DecidableEq, Repr

def TimerKind.reason : TimerKind → String
  | .idle => "Idle timeout"
  | .absolute => "Absolute timeout"
  | .ticket => "Ticket expired"

structure ManagedSession where
  id : JsString
  visitorId : JsString
  clientIp : JsString
  files : List CSourceFile
  ticketNonce : JsString
  state : SessionState
  idleTimer : Nat
  absoluteTimer : Nat
  ticketTimer : Nat
  clangd : Option Nat
  deriving DecidableEq, Repr

structure InternalCreateLspSessionRequest where
  files : List CSourceFile
  visitorId : JsString
  clientIp : JsString
  deriving DecidableEq, Repr

/-- What a call of `createSession` awaits: `mkdir`, the writes of `Promise.all`, or the `rm` after
one of them has failed. -/
inductive CreateAt
  | mkdir
  | writes (pending : Nat)
  | removing
  deriving DecidableEq, Repr

structure Creation where
  sessionId : JsString
  request : InternalCreateLspSessionRequest
  at_ : CreateAt
  deriving DecidableEq, Repr

/-- What `performCleanup` awaits: the exit of clangd after SIGTERM or after SIGKILL, each for its
grace period at most, or `rm`. -/
inductive CleanupAt
  | terminating
  | killing
  | removing
  deriving DecidableEq, Repr

structure Cleanup where
  session : ManagedSession
  at_ : CleanupAt
  deriving DecidableEq, Repr

inductive Shutdown
  | waiting (sessionIds : List JsString)
  | resolved
  | rejected
  deriving DecidableEq, Repr

/-- A ticket that was issued, and when by the clock of the timers. -/
structure Issue where
  payload : TicketPayload
  time : Nat
  deriving DecidableEq, Repr

/-- `time` is the clock of the timers and `now` that of `Date.now`. `running` are the clangd
processes that have not exited and `workspaces` the directories that exist. `issued` records the
sessions that were created and is read by no operation. -/
structure LspSessionManager where
  sessions : OrderedMap JsString ManagedSession
  cleanupPromises : OrderedMap JsString Cleanup
  pendingVisitors : OrderedMap JsString Int
  pendingIps : OrderedMap JsString Int
  pendingCount : Int
  shuttingDown : Bool
  creating : OrderedMap JsString Creation
  shutdowns : List Shutdown
  timers : Timers (JsString × TimerKind)
  running : List Nat
  nextPid : Nat
  workspaces : List JsString
  time : Nat
  now : Int
  issued : List Issue

inductive SpawnResult
  | running
  /-- The process runs, but `createProcessStreamConnection` has no streams for it. -/
  | withoutStreams
  /-- There is no process, and the child reports an error. -/
  | failed
  /-- `spawn` throws. -/
  | throws
  deriving DecidableEq, Repr

/-- What callers and the outside see. With an authorization go the payload of the ticket and the
time, and with an attached socket the clangd process that was spawned for it. -/
inductive ManagerEvent
  | limited (kind : SessionLimitKind)
  | created (payload : TicketPayload) (ticket : JsString) (expiresAt : Int)
  | creationFailed (sessionId : JsString)
  | authorized (sessionId : JsString) (payload : TicketPayload) (now : Int)
  | unauthorized (sessionId : JsString) (status : Nat) (code : AuthorizationCode)
  | discarded (sessionId : JsString) (accepted : Bool)
  | attached (sessionId : JsString) (clangd : Option Nat)
  | unattached (sessionId : JsString)
  | cleanup (sessionId : JsString) (closeCode : Nat) (closeReason : String)
  deriving DecidableEq, Repr

def incrementCount (counts : OrderedMap JsString Int) (key : JsString) : OrderedMap JsString Int :=
  counts.set key ((counts.get key).getD 0 + 1)

def decrementCount (counts : OrderedMap JsString Int) (key : JsString) : OrderedMap JsString Int :=
  let nextCount := (counts.get key).getD 1 - 1
  if nextCount ≤ 0 then counts.delete key else counts.set key nextCount

def countWhere {β : Type} (entries : OrderedMap JsString β) (predicate : β → Bool) : Int :=
  entries.total fun entry => if predicate entry then 1 else 0

def size {β : Type} (entries : OrderedMap JsString β) : Int := countWhere entries fun _ => true

namespace LspSessionManager

def new (now : Int) : LspSessionManager where
  sessions := .empty
  cleanupPromises := .empty
  pendingVisitors := .empty
  pendingIps := .empty
  pendingCount := 0
  shuttingDown := false
  creating := .empty
  shutdowns := []
  timers := .empty
  running := []
  nextPid := 0
  workspaces := []
  time := 0
  now := now
  issued := []

variable (o : SessionManagerOptions) (m : LspSessionManager)

/-! ### Timers -/

def setTimeout (callback : Option (JsString × TimerKind)) (delayMs : Nat) :
    LspSessionManager × Nat :=
  let (timers, handle) := m.timers.set callback (m.time + delayMs)
  ({ m with timers := timers }, handle)

def clearTimeout (handle : Nat) : LspSessionManager :=
  { m with timers := m.timers.clear handle }

def scheduleClose (sessionId : JsString) (kind : TimerKind) (delayMs : Nat) :
    LspSessionManager × Nat :=
  m.setTimeout (some (sessionId, kind)) delayMs

def update (sessionId : JsString) (session : ManagedSession) : LspSessionManager :=
  { m with sessions := m.sessions.set sessionId session }

def refreshIdleTimer (sessionId : JsString) (session : ManagedSession) : LspSessionManager :=
  let (m, idleTimer) := (m.clearTimeout session.idleTimer).scheduleClose session.id .idle o.idleTtlMs
  m.update sessionId { session with idleTimer := idleTimer }

def touchSession (sessionId : JsString) : LspSessionManager :=
  match m.sessions.get sessionId with
  | some session => if session.state = .connected then m.refreshIdleTimer o sessionId session else m
  | none => m

/-! ### closeSession -/

/-- A session leaves the map, its timers are cleared, and clangd is signalled; where there is
nothing to stop, `rm` starts. -/
def dispose (sessionId : JsString) (session : ManagedSession) : LspSessionManager :=
  let session := { session with state := .disposing }
  let m := { m with sessions := m.sessions.delete sessionId }
  let m := ((m.clearTimeout session.idleTimer).clearTimeout session.absoluteTimer).clearTimeout
    session.ticketTimer
  let stopping := session.clangd.any fun pid => m.running.contains pid
  let at_ := if stopping then CleanupAt.terminating else .removing
  { m with cleanupPromises := m.cleanupPromises.set sessionId ⟨session, at_⟩ }

/-- `performCleanup` up to its first `await`, and `closeSession` with its promise. -/
def performCleanup (sessionId : JsString) (closeCode : Nat) (closeReason : String) :
    LspSessionManager × List ManagerEvent :=
  match m.sessions.get sessionId with
  | none => (m, [])
  | some session => (m.dispose sessionId session, [.cleanup sessionId closeCode closeReason])

/-- `closeSession` up to its `await`. The entry for the promise of an unknown session is deleted
again in the same step. -/
def closeSession (sessionId : JsString) (closeCode : Nat) (closeReason : String) :
    LspSessionManager × List ManagerEvent :=
  if m.cleanupPromises.has sessionId then (m, [])
  else m.performCleanup sessionId closeCode closeReason

/-- `stopChildProcess` is done with the child, and `rm` starts. -/
def startRemoval (sessionId : JsString) : LspSessionManager :=
  match m.cleanupPromises.get sessionId with
  | none => m
  | some cleanup =>
    { m with cleanupPromises := m.cleanupPromises.set sessionId { cleanup with at_ := .removing } }

def gracePeriodEnds (sessionId : JsString) : Option LspSessionManager :=
  match m.cleanupPromises.get sessionId with
  | some ⟨session, .terminating⟩ =>
    if session.clangd.any fun pid => m.running.contains pid then
      some { m with cleanupPromises := m.cleanupPromises.set sessionId ⟨session, .killing⟩ }
    else some (m.startRemoval sessionId)
  | some ⟨_, .killing⟩ => some (m.startRemoval sessionId)
  | _ => none

def settleShutdown (sessionId : JsString) (succeeds : Bool) : Shutdown → Shutdown
  | .waiting sessionIds =>
    if sessionIds.contains sessionId then
      if !succeeds then .rejected
      else
        let rest := sessionIds.filter (· ≠ sessionId)
        if rest.isEmpty then .resolved else .waiting rest
    else .waiting sessionIds
  | call => call

def removalSettles (sessionId : JsString) (succeeds : Bool) : Option LspSessionManager :=
  match m.cleanupPromises.get sessionId with
  | some ⟨_, .removing⟩ => some { m with
      cleanupPromises := m.cleanupPromises.delete sessionId
      workspaces := if succeeds then m.workspaces.filter (· ≠ sessionId) else m.workspaces
      shutdowns := m.shutdowns.map (settleShutdown sessionId succeeds) }
  | _ => none

/-- A clangd process exits. Its session is closed, and a cleanup that waits for it goes on. -/
def processExits (pid : Nat) : Option (LspSessionManager × List ManagerEvent) :=
  if m.running.contains pid then
    let m := { m with running := m.running.filter (· ≠ pid) }
    match m.sessions.entries.find? fun entry => entry.2.clangd = some pid with
    -- the listener for the exit closes the session, whose cleanup finds nothing to stop
    | some (sessionId, _) => some (m.closeSession sessionId 1011 "clangd stopped")
    | none =>
      match m.cleanupPromises.entries.find? fun entry => entry.2.session.clangd = some pid with
      | some (sessionId, _) => some (m.startRemoval sessionId, [])
      | none => some (m, [])
  else none

/-! ### createSession -/

def reserve (visitorId clientIp : JsString) : Except SessionLimitKind LspSessionManager :=
  let activeVisitorCount := countWhere m.sessions (fun session => session.visitorId = visitorId) +
    (m.pendingVisitors.get visitorId).getD 0
  let activeIpCount := countWhere m.sessions (fun session => session.clientIp = clientIp) +
    (m.pendingIps.get clientIp).getD 0
  if m.shuttingDown then .error .shuttingDown
  else if size m.sessions + m.pendingCount ≥ o.maxSessions then .error .global
  else if activeVisitorCount ≥ o.maxSessionsPerVisitor then .error .visitor
  else if activeIpCount ≥ o.maxSessionsPerIp then .error .ip
  else .ok { m with
    pendingCount := m.pendingCount + 1
    pendingVisitors := incrementCount m.pendingVisitors visitorId
    pendingIps := incrementCount m.pendingIps clientIp }

def release (sessionId visitorId clientIp : JsString) : LspSessionManager :=
  { m with
    creating := m.creating.delete sessionId
    pendingCount := m.pendingCount - 1
    pendingVisitors := decrementCount m.pendingVisitors visitorId
    pendingIps := decrementCount m.pendingIps clientIp }

/-- `createSession` up to its first `await`; `sessionId` is what `randomUUID` draws. -/
def createSession (request : InternalCreateLspSessionRequest) (sessionId : JsString) :
    LspSessionManager × List ManagerEvent :=
  match m.reserve o request.visitorId request.clientIp with
  | .error kind => (m, [.limited kind])
  | .ok m => ({ m with creating := m.creating.set sessionId ⟨sessionId, request, .mkdir⟩ }, [])

def createManagedSession (sessionId : JsString) (request : InternalCreateLspSessionRequest)
    (ticketNonce : JsString) : LspSessionManager × ManagedSession :=
  let (m, idleTimer) := m.setTimeout none o.idleTtlMs
  let (m, absoluteTimer) := m.setTimeout none o.absoluteTtlMs
  let (m, ticketTimer) := m.setTimeout none o.ticketTtlMs
  -- the placeholders are cleared as soon as the session exists
  let m := ((m.clearTimeout idleTimer).clearTimeout absoluteTimer).clearTimeout ticketTimer
  let (m, idleTimer) := m.scheduleClose sessionId .idle o.idleTtlMs
  let (m, absoluteTimer) := m.scheduleClose sessionId .absolute o.absoluteTtlMs
  let (m, ticketTimer) := m.scheduleClose sessionId .ticket o.ticketTtlMs
  (m, ⟨sessionId, request.visitorId, request.clientIp, request.files, ticketNonce, .waiting,
    idleTimer, absoluteTimer, ticketTimer, none⟩)

/-- `createSession` after its last write; `nonce` is what `randomBytes` draws. -/
def finishCreation (sessionId : JsString) (request : InternalCreateLspSessionRequest)
    (nonce : JsString) : LspSessionManager × List ManagerEvent :=
  let payload : TicketPayload := ⟨sessionId, request.visitorId, js "/ws/lsp/" ++ sessionId, nonce,
    m.now, m.now + o.ticketTtlMs⟩
  let (m, session) := m.createManagedSession o sessionId request nonce
  let m := { m with
    sessions := m.sessions.set sessionId session
    issued := m.issued ++ [Issue.mk payload m.time] }
  (m.release sessionId request.visitorId request.clientIp,
    [.created payload (o.ticketService.ticket payload) (m.now + o.absoluteTtlMs)])

/-- The promise that a call of `createSession` awaits settles, or one of the writes does. A write
that is still under way when another one has failed finds no directory in the end. -/
def creationSettles (sessionId : JsString) (succeeds : Bool) (nonce : JsString) :
    Option (LspSessionManager × List ManagerEvent) :=
  match m.creating.get sessionId with
  | none => none
  | some ⟨_, request, at_⟩ =>
    let goto (m : LspSessionManager) (next : CreateAt) : LspSessionManager :=
      { m with creating := m.creating.set sessionId ⟨sessionId, request, next⟩ }
    match at_ with
    | .mkdir =>
      if succeeds then
        some (goto { m with workspaces := m.workspaces ++ [sessionId] }
          (.writes (request.files.length + 1)), [])
      else some (goto m .removing, [])
    | .writes pending =>
      if !succeeds then some (goto m .removing, [])
      else if 1 < pending then some (goto m (.writes (pending - 1)), [])
      else some (m.finishCreation o sessionId request nonce)
    | .removing =>
      let m := if succeeds then { m with workspaces := m.workspaces.filter (· ≠ sessionId) } else m
      some (m.release sessionId request.visitorId request.clientIp, [.creationFailed sessionId])

/-! ### The handshake -/

def authorizeWebSocket (sessionId path : JsString) (ticket : Option JsString) :
    LspSessionManager × List ManagerEvent :=
  let refuse (status : Nat) (code : AuthorizationCode) : LspSessionManager × List ManagerEvent :=
    (m, [.unauthorized sessionId status code])
  match m.sessions.get sessionId, ticket with
  | none, _ => refuse 404 .sessionNotFound
  | some _, none => refuse 401 .missingTicket
  | some session, some ticket =>
    if session.state ≠ .waiting then refuse 409 .ticketUsed
    else match o.ticketService.verify m.now ticket sessionId session.visitorId path with
      | .error .expired => refuse 410 .expiredTicket
      | .error .invalid => refuse 401 .invalidTicket
      | .ok payload =>
        if payload.nonce ≠ session.ticketNonce then refuse 401 .invalidTicket
        else
          let session := { session with state := .authorized }
          let m := (m.update sessionId session).clearTimeout session.ticketTimer
          (m.refreshIdleTimer o sessionId session,
            [.authorized sessionId payload m.now])

def discardSessionAfterInvalidHandshake (sessionId path : JsString) (ticket : Option JsString) :
    LspSessionManager × List ManagerEvent :=
  match m.sessions.get sessionId, ticket with
  | some session, some ticket =>
    if session.state ≠ .waiting then (m, [.discarded sessionId false])
    else match o.ticketService.verify m.now ticket sessionId session.visitorId path with
      | .error _ => (m, [.discarded sessionId false])
      | .ok payload =>
        if payload.nonce ≠ session.ticketNonce then (m, [.discarded sessionId false])
        else
          let (m, events) := m.closeSession sessionId 1008 "Invalid WebSocket handshake"
          (m, .discarded sessionId true :: events)
  | _, _ => (m, [.discarded sessionId false])

/-- A child gets its handle, whether or not there is a process behind it. -/
def spawnClangd (runs : Bool) : LspSessionManager :=
  { m with
    running := if runs then m.running ++ [m.nextPid] else m.running
    nextPid := m.nextPid + 1 }

/-- The socket gets its adapter, and clangd is spawned and connected to it. -/
def attachWebSocket (sessionId : JsString) (result : SpawnResult) :
    LspSessionManager × List ManagerEvent :=
  match m.sessions.get sessionId with
  | none => (m, [.unattached sessionId])
  | some session =>
    if session.state ≠ .authorized then (m, [.unattached sessionId])
    else
      let session := { session with state := .connected }
      let spawned := { session with clangd := some m.nextPid }
      match result with
      | .throws => (m.update sessionId session, [.attached sessionId none])
      | .running =>
        (((m.spawnClangd true).update sessionId spawned).refreshIdleTimer o sessionId spawned,
          [.attached sessionId (some m.nextPid)])
      | .withoutStreams =>
        let (m', events) := ((m.spawnClangd true).update sessionId spawned).closeSession
          sessionId 1011 "clangd streams are unavailable"
        (m', .attached sessionId (some m.nextPid) :: events)
      | .failed =>
        -- the listeners are in place when the child reports its error
        let m' := ((m.spawnClangd false).update sessionId spawned).refreshIdleTimer o sessionId spawned
        let (m', events) := m'.closeSession sessionId 1011 "clangd failed to start"
        (m', .attached sessionId none :: events)

/-! ### Timers and shutdown -/

def timerFires (handle : Nat) : Option (LspSessionManager × List ManagerEvent) :=
  match m.timers.armed.find? fun timer => timer.handle = handle with
  | none => none
  | some timer =>
    if m.time < timer.deadline then none
    else
      let m := m.clearTimeout handle
      match timer.callback with
      | none => some (m, [])
      | some (sessionId, kind) => some (m.closeSession sessionId 1008 kind.reason)

def closeAll (closeCode : Nat) (closeReason : String) :
    List JsString → LspSessionManager → LspSessionManager × List ManagerEvent
  | [], m => (m, [])
  | sessionId :: rest, m =>
    let (m, events) := m.closeSession sessionId closeCode closeReason
    let (m, more) := closeAll closeCode closeReason rest m
    (m, events ++ more)

def shutdown : LspSessionManager × List ManagerEvent :=
  let sessionIds := m.sessions.entries.map Prod.fst
  closeAll 1012 "Service is restarting" sessionIds { m with
    shuttingDown := true
    -- `Promise.all` of the sessions that are in the map now
    shutdowns := m.shutdowns ++ [if sessionIds.isEmpty then .resolved else .waiting sessionIds] }

end LspSessionManager

inductive ManagerAction
  | createSession (request : InternalCreateLspSessionRequest) (sessionId : JsString)
  | creationSettles (sessionId : JsString) (succeeds : Bool) (nonce : JsString)
  | authorizeWebSocket (sessionId path : JsString) (ticket : Option JsString)
  | discardSessionAfterInvalidHandshake (sessionId path : JsString) (ticket : Option JsString)
  | attachWebSocket (sessionId : JsString) (result : SpawnResult)
  /-- There was activity on the adapter of the session. -/
  | touchSession (sessionId : JsString)
  /-- The socket, the adapter, clangd or a caller closes the session. -/
  | closeSession (sessionId : JsString) (closeCode : Nat) (closeReason : String)
  | timerFires (handle : Nat)
  | processExits (pid : Nat)
  | gracePeriodEnds (sessionId : JsString)
  | removalSettles (sessionId : JsString) (succeeds : Bool)
  | shutdown
  | tick (ms : Nat)
  | setClock (now : Int)

namespace LspSessionManager

/-- The id is new: no call of `createSession` has it, and no session ever had it. -/
def isFresh (m : LspSessionManager) (sessionId : JsString) : Bool :=
  !m.creating.has sessionId && m.issued.all fun issue => issue.payload.sessionId ≠ sessionId

/-- The manager after an action, and what can be seen of it; `none` if the action is not
possible. -/
def react (o : SessionManagerOptions) (m : LspSessionManager) :
    ManagerAction → Option (LspSessionManager × List ManagerEvent)
  | .createSession request sessionId =>
    if m.isFresh sessionId then some (m.createSession o request sessionId) else none
  | .creationSettles sessionId succeeds nonce => m.creationSettles o sessionId succeeds nonce
  | .authorizeWebSocket sessionId path ticket => some (m.authorizeWebSocket o sessionId path ticket)
  | .discardSessionAfterInvalidHandshake sessionId path ticket =>
    some (m.discardSessionAfterInvalidHandshake o sessionId path ticket)
  | .attachWebSocket sessionId result => some (m.attachWebSocket o sessionId result)
  | .touchSession sessionId => some (m.touchSession o sessionId, [])
  | .closeSession sessionId closeCode closeReason =>
    some (m.closeSession sessionId closeCode closeReason)
  | .timerFires handle => m.timerFires handle
  | .processExits pid => m.processExits pid
  | .gracePeriodEnds sessionId => (m.gracePeriodEnds sessionId).map fun m => (m, [])
  | .removalSettles sessionId succeeds => (m.removalSettles sessionId succeeds).map fun m => (m, [])
  | .shutdown => some m.shutdown
  | .tick ms => some ({ m with time := m.time + ms }, [])
  | .setClock now => some ({ m with now := now }, [])

def step (o : SessionManagerOptions) (m : LspSessionManager) (a : ManagerAction) :
    Option LspSessionManager :=
  (m.react o a).map Prod.fst

def events (o : SessionManagerOptions) (m : LspSessionManager) (a : ManagerAction) :
    List ManagerEvent :=
  ((m.react o a).map Prod.snd).getD []

end LspSessionManager

def managerSystem (o : SessionManagerOptions) (now : Int) :
    Transition.System LspSessionManager ManagerAction :=
  .ofStep (.new now) (LspSessionManager.step o)

/-! ### Two sessions, to run the manager with -/

namespace Sample

def payload (sessionId visitorId nonce : String) : TicketPayload :=
  ⟨js sessionId, js visitorId, js "/ws/lsp/" ++ js sessionId, js nonce, 0, 30000⟩

def ticketService : TicketService where
  hmac := Encodings.tag
  lenient _ := []
  lossy _ := []
  toNumber := JsonParse.decimal
  rounded n k h := by
    rw [JsonParse.decimal_integerText] at h
    exact JsNumber.safeInteger_finite h

def options (maxSessions : Nat) : SessionManagerOptions where
  ticketService := ticketService
  maxSessions := maxSessions

def create (sessionId visitorId nonce : String) : List ManagerAction :=
  [.createSession ⟨[], js visitorId, js "ip"⟩ (js sessionId),
    .creationSettles (js sessionId) true [], .creationSettles (js sessionId) true (js nonce)]

def open_ (sessionId visitorId nonce : String) : List ManagerAction :=
  [.authorizeWebSocket (js sessionId) (js "/ws/lsp/" ++ js sessionId)
      (some (ticketService.ticket (payload sessionId visitorId nonce))),
    .attachWebSocket (js sessionId) .running]

end Sample

end SmartC.Lsp
