import Mathlib.Data.Finset.Erase
import Mathlib.Data.Finset.Insert
import SmartC.Lsp.Json
import SmartC.Web.Playground

/-!
# The transport of the language client

`WebSocketLspTransport` of `lsp-transport.ts`, together with what it uses of the
browser: the `readyState` of the socket, which changes on its own, the listeners
on it, and the pending timeouts. A subscriber may call the transport while it
is given a message, so a fan-out is a list of deliveries that are made one by
one. `history` has everything that happened and everything that the transport
did; no method reads it.
-/

namespace SmartC.Web

open Lsp (JsString)
open Transition (System EachAfter Reachable)

inductive LspDisconnectReason
  | error | close | timeout
  deriving DecidableEq, Repr

inductive SocketEvent
  | opened | message | error | closed
  deriving DecidableEq, Repr

/-- A number of milliseconds; `none` is not finite. -/
abbrev TimeoutMs := Option ℚ

/-- A message on its way to a subscriber. `event` is the place of its event in the history. -/
structure Delivery where
  event : Nat
  subscriber : Nat
  message : JsString
  deriving DecidableEq, Repr

/-- What happens to a transport. The data of a message that is not a string is `none`. -/
inductive TransportAction
  | readyStateChanges (readyState : ReadyState)
  | openEvent
  | messageEvent (data : Option JsString)
  | callSubscriber (throws : Bool)
  | errorEvent
  | closeEvent
  | timerExpires (timer : Nat)
  | waitUntilOpen (timeoutMs : TimeoutMs)
  | send (message : JsString)
  | subscribe (subscriber : Nat)
  | unsubscribe (subscriber : Nat)
  | dispose
  deriving DecidableEq

inductive TransportEffect
  | resolveOpen
  | rejectOpen (message : String)
  | resolveClosed
  | onUnexpectedDisconnect (reason : LspDisconnectReason)
  | deliver (delivery : Delivery)
  | sendSocket (message : JsString)
  | closeSocket (code : Nat) (reason : String)
  | throwError (message : String)
  deriving DecidableEq

inductive TransportEntry
  | happened (a : TransportAction)
  | effect (e : TransportEffect)
  deriving DecidableEq

/-- `resolveOpen`, `rejectOpen` and `resolveClosed` say whether the functions are defined. -/
structure WebSocketLspTransport where
  readyState : ReadyState
  listeners : Finset SocketEvent
  timers : List Nat
  timersStarted : Nat
  fanOut : List Delivery
  subscribers : List Nat
  resolveOpen : Bool
  rejectOpen : Bool
  resolveClosed : Bool
  openTimer : Option Nat
  openSettled : Bool
  unavailableNotified : Bool
  disposed : Bool
  history : List TransportEntry

namespace WebSocketLspTransport

section

variable (t : WebSocketLspTransport)

def emit (e : TransportEffect) : WebSocketLspTransport :=
  { t with history := t.history ++ [.effect e] }

def happen (a : TransportAction) : WebSocketLspTransport :=
  { t with history := t.history ++ [.happened a] }

def emitIf (defined : Bool) (e : TransportEffect) : WebSocketLspTransport :=
  if defined then t.emit e else t

def removeEventListener (event : SocketEvent) : WebSocketLspTransport :=
  { t with listeners := t.listeners.erase event }

/-! ### The private methods -/

def clearOpenTimer : WebSocketLspTransport :=
  match t.openTimer with
  | none => t
  | some timer => { t with timers := t.timers.erase timer, openTimer := none }

/-- `settleOpen` and `failOpen`, which differ in the function that they call. -/
def settle (defined : Bool) (e : TransportEffect) : WebSocketLspTransport :=
  if t.openSettled then t
  else
    let cleared := { t.clearOpenTimer with openSettled := true }
    { cleared.emitIf defined e with resolveOpen := false, rejectOpen := false }

def settleOpen : WebSocketLspTransport := t.settle t.resolveOpen .resolveOpen

def failOpen (message : String) : WebSocketLspTransport :=
  t.settle t.rejectOpen (.rejectOpen message)

def notifyUnexpectedDisconnect (reason : LspDisconnectReason) : WebSocketLspTransport :=
  if t.unavailableNotified then t
  else { t with unavailableNotified := true }.emit (.onUnexpectedDisconnect reason)

def detachSocketListeners : WebSocketLspTransport :=
  (((t.removeEventListener .opened).removeEventListener .message).removeEventListener
    .error).removeEventListener .closed

def settleClosed : WebSocketLspTransport :=
  { t.emitIf t.resolveClosed .resolveClosed with resolveClosed := false }.detachSocketListeners

/-! ### The handlers -/

def handleOpen : WebSocketLspTransport := if t.disposed then t else t.settleOpen

/-- The subscribers of this moment will be called, whatever they do. -/
def handleMessage (event : Nat) (data : Option JsString) : WebSocketLspTransport :=
  if t.disposed then t
  else
    match data with
    | none => t
    | some message =>
      let deliveries := t.subscribers.map fun subscriber => ⟨event, subscriber, message⟩
      { t with fanOut := deliveries ++ t.fanOut }

def handleError : WebSocketLspTransport :=
  if t.disposed then t
  else (t.failOpen "LSP WebSocketの接続に失敗しました。").notifyUnexpectedDisconnect .error

def handleClose : WebSocketLspTransport :=
  if t.settleClosed.disposed then t.settleClosed
  else
    (t.settleClosed.failOpen "LSP WebSocketが接続前に切断されました。").notifyUnexpectedDisconnect
      .close

/-- The callback of the timeout that `waitUntilOpen` starts. -/
def openTimedOut : WebSocketLspTransport :=
  ({ t with openTimer := none }.failOpen
    "LSP WebSocketの接続がtimeoutしました。").notifyUnexpectedDisconnect .timeout

/-! ### The methods -/

def waitUntilOpen (timeoutMs : TimeoutMs) : WebSocketLspTransport :=
  if t.openSettled || t.openTimer.isSome then t
  else if timeoutMs.all (· < 0) then
    t.emit (.throwError "LSP WebSocketの接続timeoutは0以上の有限値で指定してください。")
  else
    { t with
      timers := t.timersStarted :: t.timers
      timersStarted := t.timersStarted + 1
      openTimer := some t.timersStarted }

def send (message : JsString) : WebSocketLspTransport :=
  if t.disposed || t.readyState != .opened then
    t.emit (.throwError "LSP WebSocketは送信可能な状態ではありません。")
  else t.emit (.sendSocket message)

def subscribe (subscriber : Nat) : WebSocketLspTransport :=
  if subscriber ∈ t.subscribers then t else { t with subscribers := t.subscribers ++ [subscriber] }

def unsubscribe (subscriber : Nat) : WebSocketLspTransport :=
  { t with subscribers := t.subscribers.erase subscriber }

def closeSocket (code : Nat) (reason : String) : WebSocketLspTransport :=
  { t with readyState := .closing }.emit (.closeSocket code reason)

def detach : WebSocketLspTransport :=
  ((({ t with disposed := true, subscribers := [] } : WebSocketLspTransport).removeEventListener
    .opened).removeEventListener .message).removeEventListener .error

def abandonOpen : WebSocketLspTransport :=
  if t.openSettled then t
  else t.failOpen "LSP WebSocketの接続待機中にTransportが破棄されました。"

def dispose : WebSocketLspTransport :=
  if t.disposed then t
  else
    match t.detach.abandonOpen.readyState with
    | .connecting | .opened => t.detach.abandonOpen.closeSocket 1000 "client dispose"
    | .closed => t.detach.abandonOpen.settleClosed
    | .closing => t.detach.abandonOpen

/-- The next delivery of a fan-out. A subscriber that throws ends the loop. -/
def callSubscriber (throws : Bool) : Option WebSocketLspTransport :=
  match t.fanOut with
  | [] => none
  | delivery :: rest =>
    let rest := if throws then rest.dropWhile (·.event == delivery.event) else rest
    some ({ t with fanOut := rest }.emit (.deliver delivery))

/-- An event reaches the transport if its listener is attached. -/
def dispatch (event : SocketEvent) (handle : WebSocketLspTransport → WebSocketLspTransport) :
    WebSocketLspTransport :=
  if event ∈ t.listeners then handle t else t

end

def new (readyState : ReadyState) : WebSocketLspTransport :=
  let t : WebSocketLspTransport := {
    readyState := readyState
    listeners := {.opened, .message, .error, .closed}
    timers := []
    timersStarted := 0
    fanOut := []
    subscribers := []
    resolveOpen := true
    rejectOpen := true
    resolveClosed := true
    openTimer := none
    openSettled := false
    unavailableNotified := false
    disposed := false
    history := [] }
  match readyState with
  | .opened => t.settleOpen
  | .connecting => t
  | .closing =>
    (t.failOpen "LSP WebSocketは接続を開始できない状態です。").notifyUnexpectedDisconnect .close
  | .closed =>
    ((t.failOpen "LSP WebSocketは接続を開始できない状態です。").notifyUnexpectedDisconnect
      .close).settleClosed

/-- An action is written down first. `none` means that it cannot happen now. -/
def step (t : WebSocketLspTransport) (a : TransportAction) : Option WebSocketLspTransport :=
  let event := t.history.length
  let t := t.happen a
  match a with
  | .readyStateChanges readyState => some { t with readyState := readyState }
  | .openEvent => some (t.dispatch .opened handleOpen)
  | .messageEvent data => some (t.dispatch .message fun t => t.handleMessage event data)
  | .callSubscriber throws => t.callSubscriber throws
  | .errorEvent => some (t.dispatch .error handleError)
  | .closeEvent => some (t.dispatch .closed handleClose)
  | .timerExpires timer =>
    if timer ∈ t.timers then some { t with timers := t.timers.erase timer }.openTimedOut else none
  | .waitUntilOpen timeoutMs => some (t.waitUntilOpen timeoutMs)
  | .send message => some (t.send message)
  | .subscribe subscriber => some (t.subscribe subscriber)
  | .unsubscribe subscriber => some (t.unsubscribe subscriber)
  | .dispose => some t.dispose

end WebSocketLspTransport

def transportSystem (readyState : ReadyState) : System WebSocketLspTransport TransportAction :=
  .ofStep (.new readyState) WebSocketLspTransport.step

/-! ### What is seen of a transport -/

namespace TransportEffect

def isOutcome : TransportEffect → Bool
  | .resolveOpen | .rejectOpen _ => true
  | _ => false

def isNotice : TransportEffect → Bool
  | .onUnexpectedDisconnect _ => true
  | _ => false

def isClose : TransportEffect → Bool
  | .closeSocket .. => true
  | _ => false

end TransportEffect

def TransportAction.isFault : TransportAction → Bool
  | .errorEvent | .closeEvent | .timerExpires _ => true
  | _ => false

def TransportEntry.effect? : TransportEntry → Option TransportEffect
  | .happened _ => none
  | .effect e => some e

namespace WebSocketLspTransport

open TransportEffect

def Faulted (readyState : ReadyState) (history : List TransportEntry) : Prop :=
  readyState = .closing ∨ readyState = .closed ∨
    ∃ before a after, history = before ++ .happened a :: after ∧ a.isFault ∧
      .happened .dispose ∉ before

def Handled (history : List TransportEntry) (delivery : Delivery) : Prop :=
  ∃ before after, history = before ++ .happened (.messageEvent (some delivery.message)) :: after ∧
    before.length = delivery.event ∧ .happened .dispose ∉ before

def effects (t : WebSocketLspTransport) : List TransportEffect :=
  t.history.filterMap TransportEntry.effect?

/-! ### The promise, its timeout and the notice -/

variable {t t' t'' : WebSocketLspTransport} {es es' : List TransportEffect}

/-- The functions of the open promise and its timeout are there until it is settled. -/
structure Armed (t : WebSocketLspTransport) : Prop where
  resolvable : t.resolveOpen = !t.openSettled
  rejectable : t.rejectOpen = !t.openSettled
  timers : t.timers = t.openTimer.toList
  settled : t.openSettled → t.openTimer = none

theorem Armed.frame (h : Armed t) (readyState : ReadyState) (listeners : Finset SocketEvent)
    (timersStarted : Nat) (fanOut : List Delivery) (subscribers : List Nat)
    (resolveClosed unavailableNotified disposed : Bool) (history : List TransportEntry) :
    Armed { t with readyState, listeners, timersStarted, fanOut, subscribers, resolveClosed,
                   unavailableNotified, disposed, history } :=
  ⟨h.resolvable, h.rejectable, h.timers, h.settled⟩

/-- A private method did `es`, and each flag that it set has its effect among them. -/
structure Advance (t : WebSocketLspTransport) (es : List TransportEffect)
    (t' : WebSocketLspTransport) : Prop where
  history : t'.history = t.history ++ es.map .effect
  outcomes : es.countP isOutcome + t.openSettled.toNat = t'.openSettled.toNat
  notices : es.countP isNotice + t.unavailableNotified.toNat = t'.unavailableNotified.toNat
  closes : es.countP isClose = 0
  deliveries : ∀ d, .deliver d ∉ es
  disposed : t'.disposed = t.disposed
  fanOut : t'.fanOut = t.fanOut

theorem Advance.trans (h : Advance t es t') (h' : Advance t' es' t'') :
    Advance t (es ++ es') t'' where
  history := by rw [h'.history, h.history, List.map_append, List.append_assoc]
  outcomes := by
    rw [List.countP_append, ← h'.outcomes, ← h.outcomes]
    omega
  notices := by
    rw [List.countP_append, ← h'.notices, ← h.notices]
    omega
  closes := by rw [List.countP_append, h.closes, h'.closes]
  deliveries d := by simp [h.deliveries d, h'.deliveries d]
  disposed := h'.disposed.trans h.disposed
  fanOut := h'.fanOut.trans h.fanOut

section

variable (t)

@[simp] theorem settle_openSettled (defined : Bool) (e : TransportEffect) :
    (t.settle defined e).openSettled = true := by
  unfold settle emitIf
  split
  · assumption
  · split <;> rfl

@[simp] theorem settle_listeners (defined : Bool) (e : TransportEffect) :
    (t.settle defined e).listeners = t.listeners := by
  unfold settle emitIf clearOpenTimer
  repeat' split
  all_goals rfl

@[simp] theorem settle_unavailableNotified (defined : Bool) (e : TransportEffect) :
    (t.settle defined e).unavailableNotified = t.unavailableNotified := by
  unfold settle emitIf clearOpenTimer
  repeat' split
  all_goals rfl

@[simp] theorem notifyUnexpectedDisconnect_unavailableNotified (reason : LspDisconnectReason) :
    (t.notifyUnexpectedDisconnect reason).unavailableNotified = true := by
  unfold notifyUnexpectedDisconnect
  split
  · assumption
  · rfl

@[simp] theorem notifyUnexpectedDisconnect_listeners (reason : LspDisconnectReason) :
    (t.notifyUnexpectedDisconnect reason).listeners = t.listeners := by
  unfold notifyUnexpectedDisconnect
  split <;> rfl

end

theorem Armed.settle (h : Armed t) {defined : Bool} {e : TransportEffect}
    (hdefined : defined = !t.openSettled) (he : e.isOutcome) :
    Armed (t.settle defined e) ∧ ∃ es, Advance t es (t.settle defined e) := by
  have hkinds : e.isNotice = false ∧ e.isClose = false ∧ ∀ d, e ≠ .deliver d := by
    cases e <;> simp_all [isOutcome, isNotice, isClose]
  by_cases hs : t.openSettled
  · have hsame : t.settle defined e = t := if_pos hs
    rw [hsame]
    exact ⟨h, [], by simp, by simp, by simp, rfl, by simp, rfl, rfl⟩
  · have hnew : t.settle defined e =
        { t with
          timers := []
          openTimer := none
          openSettled := true
          resolveOpen := false
          rejectOpen := false
          history := t.history ++ [.effect e] } := by
      have htimers := h.timers
      unfold WebSocketLspTransport.settle clearOpenTimer emitIf emit
      cases ho : t.openTimer <;> simp_all
    rw [hnew]
    refine ⟨⟨rfl, rfl, rfl, fun _ => rfl⟩, [e], rfl, ?_, ?_, ?_, ?_, rfl, rfl⟩
    · simp [he, hs]
    · simp [hkinds.1]
    · simp [hkinds.2.1]
    · intro d
      simpa using (hkinds.2.2 d).symm

theorem Armed.failOpen (h : Armed t) (message : String) :
    Armed (t.failOpen message) ∧ ∃ es, Advance t es (t.failOpen message) :=
  h.settle h.rejectable rfl

theorem Armed.notifyUnexpectedDisconnect (h : Armed t) (reason : LspDisconnectReason) :
    Armed (t.notifyUnexpectedDisconnect reason) ∧
      ∃ es, Advance t es (t.notifyUnexpectedDisconnect reason) := by
  unfold WebSocketLspTransport.notifyUnexpectedDisconnect
  split
  · exact ⟨h, [], by simp, by simp, by simp, rfl, by simp, rfl, rfl⟩
  · next hn =>
    refine ⟨h.frame .., [.onUnexpectedDisconnect reason],
      rfl, ?_, ?_, rfl, by simp, rfl, rfl⟩
    · simp [emit, isOutcome]
    · simp [emit, isNotice, hn]

theorem Armed.fail (h : Armed t) (message : String) (reason : LspDisconnectReason) :
    Armed ((t.failOpen message).notifyUnexpectedDisconnect reason) ∧
      ∃ es, Advance t es ((t.failOpen message).notifyUnexpectedDisconnect reason) := by
  obtain ⟨hfailed, _, hes⟩ := h.failOpen message
  obtain ⟨hnotified, _, hes'⟩ := hfailed.notifyUnexpectedDisconnect reason
  exact ⟨hnotified, _, hes.trans hes'⟩

theorem fail_listeners (t : WebSocketLspTransport) (message : String)
    (reason : LspDisconnectReason) :
    ((t.failOpen message).notifyUnexpectedDisconnect reason).listeners = t.listeners := by
  rw [notifyUnexpectedDisconnect_listeners]
  exact settle_listeners ..

theorem Armed.settleClosed (h : Armed t) :
    Armed t.settleClosed ∧ ∃ es, Advance t es t.settleClosed := by
  unfold WebSocketLspTransport.settleClosed emitIf
  split
  · exact ⟨h.frame .., [.resolveClosed], rfl,
      by simp [detachSocketListeners, removeEventListener, emit, isOutcome],
      by simp [detachSocketListeners, removeEventListener, emit, isNotice], rfl, by simp, rfl, rfl⟩
  · exact ⟨h.frame .., [], (List.append_nil _).symm,
      Nat.zero_add _, Nat.zero_add _, rfl, by simp, rfl, rfl⟩

@[simp] theorem settleClosed_listeners (t : WebSocketLspTransport) :
    t.settleClosed.listeners = ∅ := by
  ext event
  cases event <;> simp [settleClosed, detachSocketListeners, removeEventListener]

@[simp] theorem settleClosed_openSettled (t : WebSocketLspTransport) :
    t.settleClosed.openSettled = t.openSettled := by
  unfold settleClosed emitIf
  split <;> rfl

@[simp] theorem settleClosed_unavailableNotified (t : WebSocketLspTransport) :
    t.settleClosed.unavailableNotified = t.unavailableNotified := by
  unfold settleClosed emitIf
  split <;> rfl

/-! ### One step -/

structure Wired (t : WebSocketLspTransport) : Prop where
  armed : Armed t
  settled : t.disposed → t.openSettled
  attached : t.disposed = false →
    t.listeners = {.opened, .message, .error, .closed} ∨
      t.listeners = ∅ ∧ t.unavailableNotified
  detached : t.disposed → t.listeners ⊆ {.closed}

structure Stepped (t : WebSocketLspTransport) (a : TransportAction) (es : List TransportEffect)
    (t' : WebSocketLspTransport) : Prop where
  wired : Wired t'
  history : t'.history = t.history ++ .happened a :: es.map .effect
  outcomes : es.countP isOutcome + t.openSettled.toNat = t'.openSettled.toNat
  notices : es.countP isNotice + t.unavailableNotified.toNat = t'.unavailableNotified.toNat
  unnoticed : t'.disposed → t'.unavailableNotified = t.unavailableNotified
  closes : es.countP isClose + t.disposed.toNat ≤ t'.disposed.toNat
  disposed : t'.disposed ↔ t.disposed ∨ a = .dispose
  fault : a.isFault → t.disposed = false → t'.unavailableNotified
  deliveries : ∀ d, .deliver d ∈ es → d ∈ t.fanOut
  fanOut : ∀ d ∈ t'.fanOut, d ∈ t.fanOut ∨
    t.disposed = false ∧ d.event = t.history.length ∧ a = .messageEvent (some d.message)
  listeners : t'.listeners ⊆ t.listeners
  closed : a = .closeEvent → t'.listeners = ∅

variable {a : TransportAction}

theorem Wired.frame (h : Wired t) (readyState : ReadyState) (timersStarted : Nat)
    (fanOut : List Delivery) (subscribers : List Nat) (resolveClosed : Bool)
    (history : List TransportEntry) :
    Wired { t with readyState, timersStarted, fanOut, subscribers, resolveClosed, history } :=
  ⟨h.armed.frame .., h.settled, h.attached, h.detached⟩

theorem Wired.happened (h : Wired t) : Wired (t.happen a) := h.frame ..

theorem Wired.notified (h : Wired t) {event : SocketEvent} (he : event ∉ t.listeners)
    (hd : t.disposed = false) : t.unavailableNotified := by
  rcases h.attached hd with hall | ⟨-, hn⟩
  · cases event <;> simp [hall] at he
  · exact hn

theorem Wired.listeners_eq_empty (h : Wired t) (he : .closed ∉ t.listeners) :
    t.listeners = ∅ := by
  cases hd : t.disposed with
  | false =>
    rcases h.attached hd with hall | ⟨hnone, -⟩
    · simp [hall] at he
    · exact hnone
  | true =>
    rcases Finset.subset_singleton_iff.mp (h.detached hd) with hnone | hclosed
    · exact hnone
    · simp [hclosed] at he

theorem Stepped.of_advance (h : Advance (t.happen a) es t') (wired : Wired t')
    (ha : a ≠ .dispose)
    (unnoticed : t.disposed → t'.unavailableNotified = t.unavailableNotified)
    (fault : a.isFault → t.disposed = false → t'.unavailableNotified)
    (listeners : t'.listeners ⊆ t.listeners)
    (closed : a = .closeEvent → t'.listeners = ∅) : Stepped t a es t' where
  wired := wired
  history := by simp [h.history, happen]
  outcomes := h.outcomes
  notices := h.notices
  unnoticed hd := unnoticed (h.disposed ▸ hd)
  closes := by
    have hd : t'.disposed = t.disposed := h.disposed
    rw [h.closes, hd, Nat.zero_add]
  disposed := by simp [h.disposed, ha, happen]
  fault := fault
  deliveries d hd := absurd hd (h.deliveries d)
  fanOut d hd := .inl (h.fanOut ▸ hd)
  listeners := listeners
  closed := closed

theorem Advance.openSettled (h : Advance t es t') (hs : t.openSettled) : t'.openSettled := by
  have houtcomes := h.outcomes
  cases ht : t'.openSettled <;> simp_all

theorem Advance.unavailableNotified (h : Advance t es t') (hn : t.unavailableNotified) :
    t'.unavailableNotified := by
  have hnotices := h.notices
  cases ht : t'.unavailableNotified <;> simp_all

theorem Wired.advance (h : Wired t) (ha : Advance t es t') (armed : Armed t')
    (hl : t'.listeners = t.listeners) : Wired t' where
  armed := armed
  settled hd := ha.openSettled (h.settled (ha.disposed ▸ hd))
  attached hd := by
    rw [hl]
    exact (h.attached (ha.disposed ▸ hd)).imp_right fun hnone =>
      ⟨hnone.1, ha.unavailableNotified hnone.2⟩
  detached hd := hl ▸ h.detached (ha.disposed ▸ hd)

theorem Wired.stepped_happen (h : Wired t) (ha : a ≠ .dispose)
    (fault : a.isFault → t.disposed = false → t.unavailableNotified)
    (closed : a = .closeEvent → t.listeners = ∅) : Stepped t a [] (t.happen a) :=
  .of_advance ⟨by simp, by simp, by simp, rfl, by simp, rfl, rfl⟩ h.happened ha (fun _ => rfl) fault
    (Finset.Subset.refl _) closed

theorem Stepped.of_quiet (wired : Wired t') (ha : a ≠ .dispose) (hf : a.isFault = false)
    (h : Advance (t.happen a) es t') (hn : t'.unavailableNotified = t.unavailableNotified)
    (hl : t'.listeners = t.listeners) : Stepped t a es t' :=
  .of_advance h wired ha (fun _ => hn) (fun hfault => absurd hfault (by simp [hf])) hl.subset
    fun hclose => by simp [hclose, TransportAction.isFault] at hf

theorem Wired.handleOpen (h : Wired t) :
    ∃ es, Stepped t .openEvent es ((t.happen .openEvent).dispatch .opened handleOpen) := by
  have hsilent := h.stepped_happen (a := .openEvent) nofun nofun nofun
  unfold dispatch WebSocketLspTransport.handleOpen
  split
  · split
    · exact ⟨[], hsilent⟩
    · have hw := h.happened (a := .openEvent)
      obtain ⟨harmed, es, hes⟩ := hw.armed.settle hw.armed.resolvable (e := .resolveOpen) rfl
      have hl := settle_listeners (t.happen .openEvent) t.resolveOpen .resolveOpen
      exact ⟨es, .of_quiet (hw.advance hes harmed hl) nofun rfl hes
        (settle_unavailableNotified _ _ _) hl⟩
  · exact ⟨[], hsilent⟩

theorem Wired.handleError (h : Wired t) :
    ∃ es, Stepped t .errorEvent es ((t.happen .errorEvent).dispatch .error handleError) := by
  unfold dispatch
  split
  · unfold WebSocketLspTransport.handleError
    split
    · next hd =>
      have hd : t.disposed = true := hd
      exact ⟨[], h.stepped_happen nofun (fun _ hnot => by simp [hd] at hnot) nofun⟩
    · next hd =>
      have hw := h.happened (a := .errorEvent)
      obtain ⟨harmed, es, hes⟩ := hw.armed.fail "LSP WebSocketの接続に失敗しました。" .error
      have hl := fail_listeners (t.happen .errorEvent) "LSP WebSocketの接続に失敗しました。" .error
      exact ⟨es, .of_advance hes (hw.advance hes harmed hl) nofun (fun hd' => absurd hd' hd)
        (fun _ _ => notifyUnexpectedDisconnect_unavailableNotified _ _) hl.subset nofun⟩
  · next he => exact ⟨[], h.stepped_happen nofun (fun _ hd => h.notified he hd) nofun⟩

theorem Wired.handleClose (h : Wired t) :
    ∃ es, Stepped t .closeEvent es ((t.happen .closeEvent).dispatch .closed handleClose) := by
  unfold dispatch
  split
  · obtain ⟨hclosed, es, hes⟩ := (h.happened (a := .closeEvent)).armed.settleClosed
    have hdisposed : (t.happen .closeEvent).settleClosed.disposed = t.disposed := hes.disposed
    have hnone := settleClosed_listeners (t.happen .closeEvent)
    unfold WebSocketLspTransport.handleClose
    split
    · next hd =>
      have hd : t.disposed = true := hdisposed ▸ hd
      refine ⟨es, .of_advance hes ⟨hclosed, fun _ => ?_, fun hnot => ?_, fun _ => ?_⟩ nofun
        (fun _ => settleClosed_unavailableNotified _) (fun _ hnot => ?_) ?_ fun _ => hnone⟩
      · exact hes.openSettled (h.settled hd)
      · simp [hdisposed, hd] at hnot
      · simp
      · simp [hd] at hnot
      · simp
    · next hd =>
      have hd : ¬ t.disposed = true := hdisposed ▸ hd
      obtain ⟨harmed, es', hes'⟩ := hclosed.fail "LSP WebSocketが接続前に切断されました。" .close
      have hl := (fail_listeners _ "LSP WebSocketが接続前に切断されました。" .close).trans hnone
      have hd' := hes'.disposed.trans hdisposed
      have hnotified := notifyUnexpectedDisconnect_unavailableNotified
        ((t.happen .closeEvent).settleClosed.failOpen "LSP WebSocketが接続前に切断されました。") .close
      refine ⟨es ++ es', .of_advance (hes.trans hes') ⟨harmed, fun hdis => ?_,
        fun _ => .inr ⟨hl, hnotified⟩, fun hdis => ?_⟩ nofun (fun hdis => absurd hdis hd)
        (fun _ _ => hnotified) ?_ fun _ => hl⟩
      · exact absurd (hd' ▸ hdis) hd
      · exact absurd (hd' ▸ hdis) hd
      · rw [hl]
        exact Finset.empty_subset _
  · next he =>
    exact ⟨[], h.stepped_happen nofun (fun _ hd => h.notified he hd) fun _ =>
      h.listeners_eq_empty he⟩

theorem Wired.timerExpires (h : Wired t) {timer : Nat} (ht : timer ∈ t.timers) :
    ∃ es, Stepped t (.timerExpires timer) es
      ({ t.happen (.timerExpires timer) with timers := t.timers.erase timer }.openTimedOut) := by
  have hopen : t.openTimer = some timer := by
    rw [h.armed.timers] at ht
    exact Option.mem_toList.mp ht
  have hunsettled : t.openSettled = false := by
    by_contra hs
    simp [h.armed.settled (by simpa using hs)] at hopen
  have hd : t.disposed = false := by
    by_contra hd
    simp [h.settled (by simpa using hd)] at hunsettled
  have htimers : t.timers.erase timer = [] := by simp [h.armed.timers, hopen]
  unfold openTimedOut
  rw [htimers]
  set cleared : WebSocketLspTransport :=
    { t.happen (.timerExpires timer) with timers := [], openTimer := none } with hcleared
  have hc : Armed cleared := ⟨h.armed.resolvable, h.armed.rejectable, rfl, fun _ => rfl⟩
  have hcw : Wired cleared := ⟨hc, h.settled, h.attached, h.detached⟩
  obtain ⟨harmed, es, hes⟩ := hc.fail "LSP WebSocketの接続がtimeoutしました。" .timeout
  have hl := fail_listeners cleared "LSP WebSocketの接続がtimeoutしました。" .timeout
  refine ⟨es, .of_advance ⟨hes.history, hes.outcomes, hes.notices, hes.closes, hes.deliveries,
    hes.disposed, hes.fanOut⟩ (hcw.advance hes harmed hl) nofun (fun hdis => ?_)
    (fun _ _ => notifyUnexpectedDisconnect_unavailableNotified _ _) hl.subset nofun⟩
  simp [hd] at hdis

theorem Wired.messageEvent (h : Wired t) (data : Option JsString) :
    ∃ es, Stepped t (.messageEvent data) es
      ((t.happen (.messageEvent data)).dispatch .message
        fun s => s.handleMessage t.history.length data) := by
  have hsilent := h.stepped_happen (a := .messageEvent data) nofun nofun nofun
  refine ⟨[], ?_⟩
  unfold dispatch
  split
  · change Stepped t _ [] ((t.happen _).handleMessage t.history.length data)
    unfold handleMessage
    split
    · exact hsilent
    · next hlive =>
      have hd : t.disposed = false := by simpa [happen] using hlive
      split
      · exact hsilent
      · next message =>
        refine { hsilent with
          wired := h.frame ..
          fanOut := ?_ }
        intro d hmem
        rcases List.mem_append.mp hmem with hnew | hold
        · obtain ⟨subscriber, -, rfl⟩ := List.mem_map.mp hnew
          exact .inr ⟨hd, rfl, rfl⟩
        · exact .inl hold
  · exact hsilent

theorem Wired.callSubscriber (h : Wired t) {throws : Bool}
    (hcall : (t.happen (.callSubscriber throws)).callSubscriber throws = some t') :
    ∃ es, Stepped t (.callSubscriber throws) es t' := by
  have hsilent := h.stepped_happen (a := .callSubscriber throws) nofun nofun nofun
  unfold WebSocketLspTransport.callSubscriber at hcall
  split at hcall
  · cases hcall
  · next delivery rest hf =>
    have hf : t.fanOut = delivery :: rest := hf
    injection hcall with hcall
    subst hcall
    refine ⟨[.deliver delivery], { hsilent with
      wired := h.frame ..
      history := by simp [emit, happen]
      deliveries := by simp [hf]
      fanOut := fun d hmem => .inl ?_ }⟩
    rw [hf]
    refine List.mem_cons_of_mem _ ?_
    cases throws with
    | false => exact hmem
    | true => exact (List.dropWhile_sublist _).mem hmem

theorem Wired.stepped_emit (h : Wired t) (ha : a ≠ .dispose) (hf : a.isFault = false)
    {e : TransportEffect} (ho : e.isOutcome = false) (hn : e.isNotice = false)
    (hc : e.isClose = false) (hd : ∀ d, e ≠ .deliver d) :
    Stepped t a [e] ((t.happen a).emit e) := by
  have hadvance : Advance (t.happen a) [e] ((t.happen a).emit e) :=
    ⟨rfl, by simp [ho, emit], by simp [hn, emit], by simp [hc],
      fun d hmem => hd d (List.mem_singleton.mp hmem).symm, rfl, rfl⟩
  exact .of_quiet (h.frame ..) ha hf hadvance rfl rfl

theorem Wired.waitUntilOpen (h : Wired t) (timeoutMs : TimeoutMs) :
    ∃ es, Stepped t (.waitUntilOpen timeoutMs) es
      ((t.happen (.waitUntilOpen timeoutMs)).waitUntilOpen timeoutMs) := by
  unfold WebSocketLspTransport.waitUntilOpen
  split
  · exact ⟨[], h.stepped_happen nofun nofun nofun⟩
  · next hnew =>
    have hnew : t.openSettled = false ∧ t.openTimer = none := by simpa [happen] using hnew
    split
    · exact ⟨_, h.stepped_emit (a := .waitUntilOpen _) (e := .throwError _) nofun rfl rfl rfl rfl
        nofun⟩
    · refine ⟨[], .of_quiet ⟨⟨h.armed.resolvable, h.armed.rejectable, ?_, ?_⟩, h.settled,
        h.attached, h.detached⟩ nofun rfl ⟨(List.append_nil _).symm, Nat.zero_add _,
        Nat.zero_add _, rfl, by simp, rfl, rfl⟩ rfl rfl⟩
      · simp [happen, h.armed.timers, hnew.2]
      · simp [happen, hnew.1]

theorem Wired.send (h : Wired t) (message : JsString) :
    ∃ es, Stepped t (.send message) es ((t.happen (.send message)).send message) := by
  unfold WebSocketLspTransport.send
  split
  · exact ⟨_, h.stepped_emit (a := .send _) (e := .throwError _) nofun rfl rfl rfl rfl nofun⟩
  · exact ⟨_, h.stepped_emit (a := .send _) (e := .sendSocket _) nofun rfl rfl rfl rfl nofun⟩

theorem Wired.stepped_same (h : Wired t) (ha : a ≠ .dispose) (hf : a.isFault = false)
    (readyState : ReadyState) (subscribers : List Nat) :
    Stepped t a [] { t.happen a with readyState := readyState, subscribers := subscribers } :=
  .of_quiet (h.frame ..) ha hf
    ⟨(List.append_nil _).symm, Nat.zero_add _, Nat.zero_add _, rfl, by simp, rfl, rfl⟩ rfl rfl

theorem abandonOpen_eq (t : WebSocketLspTransport) :
    t.abandonOpen = t.failOpen "LSP WebSocketの接続待機中にTransportが破棄されました。" := by
  unfold abandonOpen
  split
  · next hs => exact (if_pos hs).symm
  · rfl

theorem Stepped.of_detach (hd : t.disposed = false)
    (h : Advance (t.happen .dispose).detach es t') (armed : Armed t') (hs : t'.openSettled)
    (hn : t'.unavailableNotified = t.unavailableNotified)
    (hl : t'.listeners ⊆ (t.happen .dispose).detach.listeners) : Stepped t .dispose es t' where
  wired := by
    refine ⟨armed, fun _ => hs, fun hnot => ?_, fun _ => hl.trans ?_⟩
    · simp [h.disposed, detach, removeEventListener] at hnot
    · intro event
      cases event <;> simp [detach, removeEventListener]
  history := by
    rw [h.history]
    simp [detach, removeEventListener, happen]
  outcomes := h.outcomes
  notices := h.notices
  unnoticed _ := hn
  closes := by simp [h.closes, hd]
  disposed := by simp [h.disposed, detach, removeEventListener]
  fault := nofun
  deliveries d hmem := absurd hmem (h.deliveries d)
  fanOut d hmem := .inl (h.fanOut ▸ hmem)
  listeners := by
    intro event hmem
    have hdetach := hl hmem
    simp only [detach, removeEventListener, Finset.mem_erase] at hdetach
    exact hdetach.2.2.2
  closed := nofun

theorem Stepped.closeSocket (h : Stepped t .dispose es t') (hes : es.countP isClose = 0)
    (hd : t.disposed = false) (code : Nat) (reason : String) :
    Stepped t .dispose (es ++ [.closeSocket code reason]) (t'.closeSocket code reason) := by
  have hd' : t'.disposed = true := h.disposed.mpr (.inr rfl)
  exact { h with
    wired := h.wired.frame ..
    history := by simp [WebSocketLspTransport.closeSocket, emit, h.history]
    outcomes := by simpa [WebSocketLspTransport.closeSocket, emit, isOutcome] using h.outcomes
    notices := by simpa [WebSocketLspTransport.closeSocket, emit, isNotice] using h.notices
    closes := by simp [hes, hd, WebSocketLspTransport.closeSocket, emit, hd', isClose]
    deliveries := by simpa using h.deliveries }

theorem Wired.dispose (h : Wired t) :
    ∃ es, Stepped t .dispose es (t.happen .dispose).dispose := by
  unfold WebSocketLspTransport.dispose
  split
  · next hd =>
    have hd : t.disposed = true := hd
    exact ⟨[], h.happened, rfl, Nat.zero_add _, Nat.zero_add _, fun _ => rfl, (Nat.zero_add _).le,
      by simp [hd, happen], nofun, nofun, fun _ hmem => .inl hmem, Finset.Subset.refl _, nofun⟩
  · next hlive =>
    have hd : t.disposed = false := by simpa [happen] using hlive
    have hdetach : Armed (t.happen .dispose).detach := h.armed.frame ..
    obtain ⟨harmed, es, hes⟩ :=
      hdetach.failOpen "LSP WebSocketの接続待機中にTransportが破棄されました。"
    rw [abandonOpen_eq]
    set failed := (t.happen .dispose).detach.failOpen
      "LSP WebSocketの接続待機中にTransportが破棄されました。"
    have hs : failed.openSettled := settle_openSettled ..
    have hn : failed.unavailableNotified = t.unavailableNotified := settle_unavailableNotified ..
    have hl : failed.listeners = (t.happen .dispose).detach.listeners := settle_listeners ..
    have hstep := Stepped.of_detach hd hes harmed hs hn hl.subset
    cases failed.readyState with
    | connecting => exact ⟨_, hstep.closeSocket hes.closes hd _ _⟩
    | opened => exact ⟨_, hstep.closeSocket hes.closes hd _ _⟩
    | closing => exact ⟨es, hstep⟩
    | closed =>
      obtain ⟨hclosed, es', hes'⟩ := harmed.settleClosed
      refine ⟨_, .of_detach hd (hes.trans hes') hclosed ?_ ?_ ?_⟩
      · simpa using hs
      · simpa using hn
      · simp

theorem Wired.step (h : Wired t) (hstep : t.step a = some t') : ∃ es, Stepped t a es t' := by
  unfold WebSocketLspTransport.step at hstep
  cases a with
  | callSubscriber throws => exact h.callSubscriber hstep
  | timerExpires timer =>
    obtain ⟨ht, rfl⟩ := Option.ite_some_none_eq_some.mp hstep
    exact h.timerExpires ht
  | readyStateChanges readyState =>
    cases hstep
    exact ⟨_, h.stepped_same (a := .readyStateChanges _) nofun rfl readyState t.subscribers⟩
  | openEvent =>
    cases hstep
    exact h.handleOpen
  | messageEvent data =>
    cases hstep
    exact h.messageEvent data
  | errorEvent =>
    cases hstep
    exact h.handleError
  | closeEvent =>
    cases hstep
    exact h.handleClose
  | waitUntilOpen timeoutMs =>
    cases hstep
    exact h.waitUntilOpen timeoutMs
  | send message =>
    cases hstep
    exact h.send message
  | subscribe subscriber =>
    cases hstep
    unfold WebSocketLspTransport.subscribe
    split
    · exact ⟨_, h.stepped_happen nofun nofun nofun⟩
    · exact ⟨_, h.stepped_same (a := .subscribe _) nofun rfl t.readyState _⟩
  | unsubscribe subscriber =>
    cases hstep
    exact ⟨_, h.stepped_same (a := .unsubscribe _) nofun rfl t.readyState _⟩
  | dispose =>
    cases hstep
    exact h.dispose

/-! ### A whole run -/

variable {r : ReadyState} {history before after : List TransportEntry} {b : TransportAction}
  {d : Delivery} {reason : LspDisconnectReason}

theorem Handled.append (h : Handled history d) (more : List TransportEntry) :
    Handled (history ++ more) d := by
  obtain ⟨before, after, rfl, hevent, hd⟩ := h
  exact ⟨before, after ++ more, by simp, hevent, hd⟩

theorem split_history
    (h : history ++ .happened a :: es.map .effect = before ++ .happened b :: after) :
    (∃ rest, history = before ++ .happened b :: rest) ∨ before = history ∧ b = a := by
  rcases List.append_eq_append_iff.mp h with ⟨more, rfl, hmore⟩ | ⟨more, rfl, hmore⟩
  · cases more with
    | nil =>
      injection hmore with hb
      injection hb with hb
      exact .inr ⟨List.append_nil _, hb.symm⟩
    | cons x more =>
      injection hmore with _ hes
      have hmem : TransportEntry.happened b ∈ es.map .effect := by simp [hes]
      simp at hmem
  · cases more with
    | nil =>
      injection hmore with hb
      injection hb with hb
      exact .inr ⟨(List.append_nil _).symm, hb⟩
    | cons x more =>
      injection hmore with hx
      exact .inl ⟨more, by rw [hx]⟩

structure Sound (r : ReadyState) (t : WebSocketLspTransport) : Prop where
  wired : Wired t
  outcomes : t.effects.countP isOutcome = t.openSettled.toNat
  notices : t.effects.countP isNotice = t.unavailableNotified.toNat
  closes : t.effects.countP isClose ≤ t.disposed.toNat
  disposed : t.disposed ↔ .happened .dispose ∈ t.history
  faults : Faulted r t.history → t.unavailableNotified
  noticed : EachAfter (fun before entry => ∀ reason,
    entry = .effect (.onUnexpectedDisconnect reason) → .happened .dispose ∉ before) t.history
  delivered : EachAfter (fun before entry => ∀ delivery,
    entry = .effect (.deliver delivery) → Handled before delivery) t.history
  pending : ∀ delivery ∈ t.fanOut, Handled t.history delivery
  closed : .happened .closeEvent ∈ t.history → t.listeners = ∅

theorem Stepped.effects (h : Stepped t a es t') : t'.effects = t.effects ++ es := by
  simp [WebSocketLspTransport.effects, h.history, List.filterMap_cons, List.filterMap_map,
    TransportEntry.effect?, Function.comp_def]

theorem Stepped.unavailableNotified (h : Stepped t a es t') (hn : t.unavailableNotified) :
    t'.unavailableNotified := by
  have hnotices := h.notices
  cases ht : t'.unavailableNotified <;> simp_all

theorem Stepped.not_disposed (h : Stepped t a es t') (hmem : .onUnexpectedDisconnect reason ∈ es) :
    ¬ t'.disposed := by
  intro hd
  have hpos : 0 < es.countP isNotice := List.countP_pos_iff.mpr ⟨_, hmem, rfl⟩
  have hnotices := h.notices
  rw [h.unnoticed hd] at hnotices
  omega

theorem Sound.step (h : Sound r t) (hstep : t.step a = some t') : Sound r t' := by
  obtain ⟨es, hs⟩ := h.wired.step hstep
  have hdisposed : t'.disposed ↔ .happened .dispose ∈ t'.history := by
    rw [hs.disposed, h.disposed, hs.history]
    simp [eq_comm]
  refine ⟨hs.wired, ?_, ?_, ?_, hdisposed, ?_, ?_, ?_, ?_, ?_⟩
  · rw [hs.effects, List.countP_append, h.outcomes, ← hs.outcomes, Nat.add_comm]
  · rw [hs.effects, List.countP_append, h.notices, ← hs.notices, Nat.add_comm]
  · have hcloses := h.closes
    have hmore := hs.closes
    rw [hs.effects, List.countP_append]
    omega
  -- a fault is in the history before the step, or it is the step
  · rintro (hr | hr | ⟨before, b, after, hsplit, hb, hbefore⟩)
    · exact hs.unavailableNotified (h.faults (.inl hr))
    · exact hs.unavailableNotified (h.faults (.inr (.inl hr)))
    · rw [hs.history] at hsplit
      rcases split_history hsplit with ⟨rest, hrest⟩ | ⟨rfl, rfl⟩
      · exact hs.unavailableNotified (h.faults (.inr (.inr ⟨before, b, rest, hrest, hb, hbefore⟩)))
      · refine hs.fault hb ?_
        rw [← Bool.not_eq_true, h.disposed]
        exact hbefore
  · rw [hs.history]
    refine h.noticed.append_all ?_
    rintro before _ after hsplit reason rfl
    have hmem : TransportEffect.onUnexpectedDisconnect reason ∈ es := by
      have hin : TransportEntry.effect (.onUnexpectedDisconnect reason) ∈
          TransportEntry.happened a :: es.map .effect := by simp [hsplit]
      simpa using hin
    have hnot := hs.not_disposed hmem
    rw [hdisposed, hs.history, hsplit, ← List.append_assoc, List.mem_append] at hnot
    exact fun hin => hnot (.inl hin)
  · rw [hs.history]
    refine h.delivered.append_all ?_
    rintro before _ after hsplit d rfl
    have hin : TransportEntry.effect (.deliver d) ∈
        TransportEntry.happened a :: es.map .effect := by simp [hsplit]
    exact (h.pending d (hs.deliveries d (by simpa using hin))).append before
  · intro d hmem
    rw [hs.history]
    rcases hs.fanOut d hmem with hold | ⟨hd, hevent, rfl⟩
    · exact (h.pending d hold).append _
    · refine ⟨t.history, es.map .effect, rfl, hevent.symm, ?_⟩
      rw [← h.disposed]
      simp [hd]
  · rw [hs.history]
    intro hmem
    rcases List.mem_append.mp hmem with hold | hnew
    · exact Finset.subset_empty.mp (h.closed hold ▸ hs.listeners)
    · exact hs.closed (by simpa [eq_comm] using hnew)

theorem wired_new (r : ReadyState) : Wired (.new r) := by
  cases r with
  | connecting => exact ⟨⟨rfl, rfl, rfl, fun _ => rfl⟩, nofun, fun _ => .inl rfl, nofun⟩
  | opened => exact ⟨⟨rfl, rfl, rfl, fun _ => rfl⟩, nofun, fun _ => .inl rfl, nofun⟩
  | closing => exact ⟨⟨rfl, rfl, rfl, fun _ => rfl⟩, nofun, fun _ => .inl rfl, nofun⟩
  | closed => exact ⟨⟨rfl, rfl, rfl, fun _ => rfl⟩, nofun, fun _ => .inr ⟨rfl, rfl⟩, nofun⟩

theorem mem_history_new {x : TransportEntry}
    (h : x ∈ (WebSocketLspTransport.new r).history) :
    ∃ e, x = .effect e ∧ ∀ d, e ≠ .deliver d := by
  have hall : (WebSocketLspTransport.new r).history.all fun entry =>
      entry.effect?.any fun e => e.isOutcome || e.isNotice || e = .resolveClosed := by
    cases r <;> rfl
  have he := List.all_eq_true.mp hall x h
  cases x with
  | happened a => simp [TransportEntry.effect?] at he
  | effect e =>
    refine ⟨e, rfl, ?_⟩
    rintro d rfl
    simp [TransportEntry.effect?, isOutcome, isNotice] at he

theorem happened_notMem_new : .happened a ∉ (WebSocketLspTransport.new r).history := by
  intro h
  obtain ⟨e, he, -⟩ := mem_history_new h
  cases he

theorem sound_new (r : ReadyState) : Sound r (.new r) := by
  refine ⟨wired_new r, ?_, ?_, ?_, ?_, ?_, ?_, ?_, ?_, ?_⟩
  · cases r <;> rfl
  · cases r <;> rfl
  · cases r <;> exact Nat.le_refl 0
  · have hlive : (WebSocketLspTransport.new r).disposed = false := by cases r <;> rfl
    simp [hlive, happened_notMem_new]
  · rintro (rfl | rfl | ⟨before, a, after, hsplit, -⟩)
    · rfl
    · rfl
    · exact absurd (by simp [hsplit]) (happened_notMem_new (r := r) (a := a))
  · rintro before _ after hsplit reason - hmem
    exact happened_notMem_new (r := r) (a := .dispose) (by simp [hsplit, hmem])
  · rintro before _ after hsplit d rfl
    obtain ⟨e, he, hd⟩ := mem_history_new (r := r) (x := .effect (.deliver d)) (by simp [hsplit])
    cases he
    exact absurd rfl (hd d)
  · cases r <;> exact nofun
  · exact fun h => absurd h happened_notMem_new

theorem sound (h : Reachable (transportSystem r) t) : Sound r t :=
  h.invariant (sound_new r) fun _ ih _ hstep => ih.step hstep

/-- Each outcome is reported once, whatever happens to the socket and in which order. -/
theorem each_outcome_is_reported_once (readyState : ReadyState) (t : WebSocketLspTransport)
    (h : Reachable (transportSystem readyState) t) :
    t.effects.countP isOutcome ≤ 1 ∧
    t.effects.countP isNotice ≤ 1 ∧
    (Faulted readyState t.history → t.effects.countP isNotice = 1) ∧
    EachAfter (fun before entry => ∀ reason,
      entry = .effect (.onUnexpectedDisconnect reason) → .happened .dispose ∉ before) t.history ∧
    EachAfter (fun before entry => ∀ delivery,
      entry = .effect (.deliver delivery) → Handled before delivery) t.history ∧
    t.effects.countP isClose ≤ 1 ∧
    (.happened .closeEvent ∈ t.history → t.listeners = ∅) := by
  have hs := sound h
  refine ⟨?_, ?_, ?_, hs.noticed, hs.delivered, ?_, hs.closed⟩
  · exact hs.outcomes ▸ Bool.toNat_le _
  · exact hs.notices ▸ Bool.toNat_le _
  · intro hf
    rw [hs.notices, hs.faults hf]
    rfl
  · exact hs.closes.trans (Bool.toNat_le _)

/-- The events that follow a timeout are not reported again. -/
theorem timeout_is_the_only_notice :
    ∃ t, Reachable (transportSystem .connecting) t ∧ .happened .closeEvent ∈ t.history ∧
      t.effects.countP isNotice = 1 ∧ t.listeners = ∅ := by
  obtain ⟨t, hreach, ht⟩ := Transition.reachable_of_execute
    (i := .new .connecting) (f := WebSocketLspTransport.step)
    [.waitUntilOpen (some 10), .timerExpires 0, .openEvent, .errorEvent, .subscribe 0,
      .messageEvent (some []), .callSubscriber false, .dispose, .closeEvent]
    (p := fun t => t.history.contains (.happened .closeEvent) &&
      t.history.take 2 == [.happened (.waitUntilOpen (some 10)), .happened (.timerExpires 0)])
    (by decide +kernel)
  obtain ⟨hclose, hfirst⟩ := Bool.and_eq_true_iff.mp ht
  have hclose : .happened .closeEvent ∈ t.history := by simpa using hclose
  have hfault : Faulted .connecting t.history :=
    .inr (.inr ⟨[.happened (.waitUntilOpen (some 10))], .timerExpires 0, t.history.drop 2,
      by rw [← List.take_append_drop 2 t.history, eq_of_beq hfirst]; simp, rfl, by simp⟩)
  obtain ⟨-, -, hnotice, -, -, -, hnone⟩ := each_outcome_is_reported_once .connecting t hreach
  exact ⟨t, hreach, hclose, hnotice hfault, hnone hclose⟩

end WebSocketLspTransport

end SmartC.Web
