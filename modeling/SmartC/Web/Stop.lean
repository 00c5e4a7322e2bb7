import SmartC.Web.Playground

/-!
# Stop means stop

The part of the page that decides about its phase, and what each action does to
it (`Move`). After `stop` a run is quiet: nothing that is still to come from it
can make the page active again. The exception is the time between the creation
of the socket and the first phase of the server, in which `stop` neither aborts
the request nor reaches the socket.
-/

namespace SmartC.Web

open Function (update)
open Transition (Reachable ReachableWhen)

/-- A socket as far as it matters here: its state, and whether the page has sent `terminate` on it
or closed it. -/
structure Line where
  readyState : ReadyState
  ended : Bool
  deriving DecidableEq, Repr

structure Control where
  phase : PagePhase
  abortRef : Option RunId
  socketRef : Option RunId
  runs : Nat
  request : RunId → PageRequest
  line : RunId → Option Line

def PageSocket.line (socket : PageSocket) : Line :=
  ⟨socket.readyState, decide (.terminate ∈ socket.sent) || socket.closed.isSome⟩

def Page.control (s : Page) : Control where
  phase := s.phase
  abortRef := s.abortRef
  socketRef := s.socketRef
  runs := s.runs
  request := s.request
  line r := (s.socket r).map PageSocket.line

def Control.setLine (c : Control) (r : RunId) (line : Line) : Control :=
  { c with line := update c.line r (some line) }

def ReadyState.isLive : ReadyState → Bool
  | .connecting | .opened => true
  | .closing | .closed => false

def Control.hangUp (c : Control) : RunId → Option Line :=
  match c.socketRef with
  | some r => if (c.line r).any (·.readyState.isLive) then update c.line r (some ⟨.closing, true⟩) else c.line
  | none => c.line

def Control.settle (c : Control) (r : RunId) : Control :=
  { c with
    request := update c.request r { c.request r with pending := false }
    abortRef := if c.abortRef = some r then none else c.abortRef }

inductive Move (c : Control) : PageAction → Control → Prop
  | nothing {a} (other : a ≠ .stop) : Move c a c
  | run (inactive : c.phase.isActive = false) : Move c .run
      { c with
        phase := .creating
        abortRef := some c.runs
        socketRef := none
        runs := c.runs + 1
        request := update c.request c.runs ⟨true, false⟩
        line := c.hangUp }
  | abort {r} (creating : c.phase = .creating) (current : c.abortRef = some r) : Move c .stop
      { c with
        phase := .wire .cancelled
        request := update c.request r { c.request r with aborted := true } }
  | late (creating : c.phase = .creating) (current : c.abortRef = none) : Move c .stop
      { c with phase := .wire .cancelled }
  | terminate {r line} (current : c.socketRef = some r) (known : c.line r = some line)
      (opened : line.readyState = .opened) (other : c.phase ≠ .creating) :
      Move c .stop (c.setLine r ⟨.opened, true⟩)
  | unheard (other : c.phase ≠ .creating)
      (dead : ∀ r line, c.socketRef = some r → c.line r = some line → line.readyState ≠ .opened) :
      Move c .stop { c with phase := .wire .cancelled }
  | ignore {r settled} (old : (c.request r).aborted = true ∨ c.abortRef ≠ some r) :
      Move c (.settled r settled) (c.settle r)
  | fail {r settled phase} (current : c.abortRef = some r) (inactive : phase.isActive = false) :
      Move c (.settled r settled) { c.settle r with phase := phase }
  | connect {r settled} (current : c.abortRef = some r) (kept : (c.request r).aborted = false) :
      Move c (.settled r settled)
        { (c.settle r).setLine r ⟨.connecting, false⟩ with socketRef := some r }
  | opened {r line} (known : c.line r = some line) (connecting : line.readyState = .connecting) :
      Move c (.opened r) (c.setLine r { line with readyState := .opened })
  | closing {r line} (known : c.line r = some line) :
      Move c (.closing r) (c.setLine r { line with readyState := .closing })
  | hear {r data line phase} (current : c.socketRef = some r) (known : c.line r = some line)
      (opened : line.readyState = .opened) (heard : phase ≠ .creating) :
      Move c (.message r data) { c with phase := phase }
  | refuse {r data line} (current : c.socketRef = some r) (known : c.line r = some line)
      (opened : line.readyState = .opened) :
      Move c (.message r data) { c.setLine r ⟨.closing, true⟩ with phase := .disconnected }
  | gone {r line} (old : c.socketRef ≠ some r) (known : c.line r = some line) :
      Move c (.closed r) (c.setLine r { line with readyState := .closed })
  | lost {r line phase} (current : c.socketRef = some r) (known : c.line r = some line)
      (inactive : phase = c.phase ∨ phase.isActive = false) :
      Move c (.closed r)
        { c.setLine r { line with readyState := .closed } with socketRef := none, phase := phase }

/-! ### The page makes these moves -/

section

variable {s s' : Page} {r : RunId} {socket : PageSocket} {event : ClientEvent} {a : PageAction}

theorem control_setSocket : (s.setSocket r socket).control = s.control.setLine r socket.line := by
  have hline : (fun q => (update s.socket r (some socket) q).map PageSocket.line) =
      update (fun q => (s.socket q).map PageSocket.line) r (some socket.line) :=
    Function.comp_update (Option.map PageSocket.line) s.socket r (some socket)
  rw [Page.control, Control.setLine]
  exact congrArg (fun line => { s.control with line := line }) hline

theorem line_of_socket (h : s.socket r = some socket) : s.control.line r = some socket.line :=
  congrArg (Option.map PageSocket.line) h

theorem setLine_self {c : Control} {line : Line} (h : c.line r = some line) :
    c.setLine r line = c := by
  rw [Control.setLine, ← h, Function.update_eq_self]

theorem send_cases (s : Page) (r : Option RunId) (event : ClientEvent) :
    (∃ q socket, r = some q ∧ s.socket q = some socket ∧ socket.readyState = .opened ∧
      s.send r event = (true, s.setSocket q { socket with sent := socket.sent ++ [event] })) ∨
    s.send r event = (false, s) ∧
      ∀ q socket, r = some q → s.socket q = some socket → socket.readyState ≠ .opened := by
  unfold Page.send
  cases r with
  | none => exact .inr ⟨rfl, nofun⟩
  | some q =>
    cases hsocket : s.socket q with
    | none =>
      refine .inr ⟨by simp [hsocket], ?_⟩
      rintro _ _ ⟨⟩ hsome
      rw [hsocket] at hsome
      cases hsome
    | some socket =>
      by_cases hopened : socket.readyState = .opened
      · exact .inl ⟨q, socket, rfl, hsocket, hopened, by simp [hsocket, hopened]⟩
      · refine .inr ⟨by simp [hsocket, hopened], ?_⟩
        rintro _ _ ⟨⟩ hsome
        rw [hsocket] at hsome
        cases hsome
        exact hopened

theorem control_send (s : Page) (r : Option RunId) (h : event ≠ .terminate) :
    (s.send r event).2.control = s.control := by
  obtain ⟨q, socket, -, hsocket, -, hsend⟩ | ⟨hsend, -⟩ := send_cases s r event
  · have hline : { socket with sent := socket.sent ++ [event] }.line = socket.line := by
      simp [PageSocket.line, Ne.symm h]
    rw [hsend, control_setSocket, hline]
    exact setLine_self (line_of_socket hsocket)
  · rw [hsend]

theorem isLive_iff : s.isLive r = (s.control.line r).any (·.readyState.isLive) := by
  simp only [Page.isLive, Page.control]
  cases s.socket r with
  | none => rfl
  | some socket =>
    obtain ⟨_, readyState, _, _⟩ := socket
    cases readyState <;> rfl

theorem control_closeSocket {code : Nat} {reason : String} (hlive : s.isLive r = true) :
    (s.closeSocket r code reason).control = s.control.setLine r ⟨.closing, true⟩ := by
  simp only [Page.isLive] at hlive
  cases hsocket : s.socket r with
  | none => simp [hsocket] at hlive
  | some socket =>
    simp only [Page.closeSocket, hsocket]
    cases hstate : socket.readyState with
    | connecting | opened =>
      rw [control_setSocket]
      simp [PageSocket.line]
    | closing | closed => simp [hsocket, hstate] at hlive

theorem control_closeExecutionSocket : s.closeExecutionSocket.control =
    { s.control with socketRef := none, line := s.control.hangUp } := by
  have hsame : s.control.socketRef = s.socketRef := rfl
  simp only [Page.closeExecutionSocket, Control.hangUp, hsame]
  cases s.socketRef with
  | none => rfl
  | some r =>
    simp only [← isLive_iff]
    by_cases hlive : s.isLive r = true
    · rw [if_pos hlive, if_pos hlive, control_closeSocket]
      · rfl
      · exact hlive
    · rw [if_neg hlive, if_neg hlive]
      rfl

theorem run_move : Move s.control .run s.run.control := by
  unfold Page.run
  split
  · exact .nothing nofun
  · next hactive =>
    show Move s.control .run { s.closeExecutionSocket.control with
      phase := .creating
      abortRef := some s.runs
      runs := s.runs + 1
      request := update s.closeExecutionSocket.control.request s.runs ⟨true, false⟩ }
    rw [control_closeExecutionSocket]
    exact .run (Bool.eq_false_iff.2 hactive)

theorem stop_move : Move s.control .stop s.stop.control := by
  unfold Page.stop
  split
  · next hcreating =>
    show Move s.control .stop { s.abort.control with phase := .wire .cancelled }
    cases habort : s.abortRef with
    | none =>
      have hsame : s.abort = s := by simp [Page.abort, habort]
      rw [hsame]
      exact .late hcreating habort
    | some r =>
      have haborted : s.abort.control = { s.control with
          request := update s.request r { s.request r with aborted := true } } := by
        simp [Page.abort, Page.control, habort]
      rw [haborted]
      exact .abort hcreating habort
  · next hcreating =>
    obtain ⟨q, socket, hcurrent, hsocket, hopened, hsend⟩ | ⟨hsend, hdead⟩ :=
      send_cases s s.socketRef .terminate
    · rw [hsend]
      show Move s.control .stop (s.setSocket q _).control
      rw [control_setSocket]
      have hline : { socket with sent := socket.sent ++ [ClientEvent.terminate] }.line =
          ⟨.opened, true⟩ := by
        simp [PageSocket.line, hopened]
      rw [hline]
      exact .terminate hcurrent (line_of_socket hsocket) hopened hcreating
    · rw [hsend]
      refine .unheard hcreating fun r line hr hline => ?_
      obtain ⟨socket, hsocket, rfl⟩ := Option.map_eq_some_iff.1 hline
      exact hdead r socket hr hsocket

theorem control_finishRun : (s.finishRun r).control =
    { s.control with abortRef := if s.abortRef = some r then none else s.abortRef } := by
  unfold Page.finishRun
  split <;> rfl

theorem failRun_move {error : RunError} {settled : Page.Settled} :
    Move s.control (.settled r settled) (((s.endRequest r).failRun r error).finishRun r).control := by
  unfold Page.failRun
  split
  · next hold =>
    rw [control_finishRun]
    exact .ignore (.inr hold)
  · next hcurrent =>
    have hcurrent : s.control.abortRef = some r := not_not.1 hcurrent
    cases error with
    | abort =>
      rw [control_finishRun]
      exact .fail hcurrent rfl
    | api | other =>
      rw [control_finishRun]
      exact .fail hcurrent rfl

theorem aborted_endRequest : ((s.endRequest r).request r).aborted = (s.request r).aborted := by
  simp [Page.endRequest]

theorem settle_move {settled : Page.Settled} :
    Move s.control (.settled r settled) (s.settle r settled).control := by
  cases settled with
  | error error => exact failRun_move
  | session response constructed =>
    simp only [Page.settle, aborted_endRequest]
    split
    · next hold =>
      rw [control_finishRun]
      exact .ignore hold
    · next hnew =>
      obtain ⟨hkept, hcurrent⟩ := not_or.1 hnew
      split
      · rw [control_finishRun]
        show Move s.control _
          { ((s.endRequest r).setSocket r ⟨response, .connecting, [], none⟩).control with
            socketRef := some r
            abortRef := if s.abortRef = some r then none else s.abortRef }
        rw [control_setSocket]
        exact .connect (not_not.1 hcurrent) (Bool.eq_false_iff.2 hkept)
      · exact failRun_move

theorem hello_move {data : Page.SocketData} {protocol : Nat} {sessionId : Uuid}
    (hsocket : s.socket r = some socket)
    (hopened : socket.readyState = .opened) (hcurrent : s.socketRef = some r) :
    Move s.control (.message r data)
      (s.handleExecutionEvent r socket.session (.hello protocol sessionId)).control := by
  simp only [Page.handleExecutionEvent]
  split
  · rw [control_closeSocket]
    · exact .refuse hcurrent (line_of_socket hsocket) hopened
    · show s.isLive r = true
      simp [Page.isLive, hsocket, hopened]
  · exact .nothing nofun

theorem message_move {data : Page.SocketData} (hsocket : s.socket r = some socket)
    (hopened : socket.readyState = .opened) (hcurrent : s.socketRef = some r) :
    Move s.control (.message r data) (s.handleSocketMessage r socket.session data).control := by
  have hline := line_of_socket hsocket
  cases data with
  | binary data => exact .nothing nofun
  | text event =>
    cases event with
    | none => exact .nothing nofun
    | some event =>
      simp only [Page.handleSocketMessage]
      cases event with
      | hello protocol sessionId => exact hello_move hsocket hopened hcurrent
      | phase phase position =>
        have hresize : ClientEvent.resize s.size.cols.toNat s.size.rows.toNat ≠ .terminate := nofun
        have hsent := control_send (s.updateExecutionPhase (.wire phase)) (some r) hresize
        simp only [Page.handleExecutionEvent]
        split
        · exact .hear hcurrent hline hopened nofun
        · split
          · exact .hear hcurrent hline hopened nofun
          · split
            · show Move s.control _ (Page.send _ _ _).2.control
              rw [hsent]
              exact .hear hcurrent hline hopened nofun
            · exact .hear hcurrent hline hopened nofun
      | compilerOutput stream data => exact .nothing nofun
      | exit code signal reason => exact .hear hcurrent hline hopened nofun
      | error code message retryable => exact .hear hcurrent hline hopened nofun
      | pong nonce => exact .nothing nofun

theorem closed_move (hsocket : s.socket r = some socket) : Move s.control (.closed r)
    ((s.setSocket r { socket with readyState := .closed }).onclose r).control := by
  have hline := line_of_socket hsocket
  unfold Page.onclose
  split
  · next hold =>
    rw [control_setSocket]
    exact .gone hold hline
  · next hcurrent =>
    have hcurrent : s.control.socketRef = some r := not_not.1 hcurrent
    split
    · show Move s.control (.closed r)
        { (s.setSocket r { socket with readyState := .closed }).control with
          socketRef := none, phase := .disconnected }
      rw [control_setSocket]
      exact .lost hcurrent hline (.inr rfl)
    · show Move s.control (.closed r)
        { (s.setSocket r { socket with readyState := .closed }).control with
          socketRef := none, phase := s.phase }
      rw [control_setSocket]
      exact .lost hcurrent hline (.inl rfl)

theorem step_move (h : s.step a = some s') : Move s.control a s'.control := by
  cases a with
  | run =>
    cases h
    exact run_move
  | stop =>
    cases h
    exact stop_move
  | settled r settled =>
    simp only [Page.step] at h
    split at h <;> cases h
    exact settle_move
  | opened r =>
    simp only [Page.step] at h
    split at h
    · next socket hsocket =>
      split at h <;> cases h
      next hstate =>
        rw [control_setSocket]
        exact .opened (line_of_socket hsocket) hstate
    · cases h
  | message r data =>
    simp only [Page.step] at h
    split at h
    · next socket hsocket =>
      split at h
      · next hopened =>
        split at h <;> cases h
        · next hcurrent => exact message_move hsocket hopened hcurrent
        · exact .nothing nofun
      · cases h
    · cases h
  | error r =>
    obtain ⟨socket, -, rfl⟩ := Option.map_eq_some_iff.1 h
    unfold Page.onerror
    split <;> exact .nothing nofun
  | closing r =>
    simp only [Page.step] at h
    split at h
    · next socket hsocket =>
      split at h <;> cases h
      rw [control_setSocket]
      exact .closing (line_of_socket hsocket)
    · cases h
  | closed r =>
    simp only [Page.step] at h
    split at h
    · next socket hsocket =>
      split at h <;> cases h
      exact closed_move hsocket
    · cases h
  -- of all that is sent, only `terminate` matters
  | ping nonce =>
    obtain ⟨r, -, rfl⟩ := Option.map_eq_some_iff.1 h
    have hping : ClientEvent.ping nonce ≠ .terminate := nofun
    rw [control_send s _ hping]
    exact .nothing nofun
  | input data =>
    have hinput : ClientEvent.input (utf8 data) ≠ .terminate := nofun
    simp only [Page.step] at h
    split at h <;> cases h
    · rw [control_send s _ hinput]
      exact .nothing nofun
    · exact .nothing nofun
  | resize size =>
    have hresize : ClientEvent.resize (min 240 (max 20 size.cols.toNat))
        (min 80 (max 5 size.rows.toNat)) ≠ .terminate := nofun
    simp only [Page.step] at h
    split at h <;> cases h
    · rw [control_send _ _ hresize]
      exact .nothing nofun
    · exact .nothing nofun

end

/-! ### What holds of every page -/

section

variable {c c' : Control} {a : PageAction} {r : RunId} {line : Line}

/-- The socket and the request that the page refers to belong to the latest run, and there is at
most one of them. Before the socket is open, the page is in the phase `creating` if it is active
at all; and before it leaves that phase, it has not ended the run. -/
structure Control.Coherent (c : Control) : Prop where
  socket : ∀ r, c.socketRef = some r → r + 1 = c.runs ∧ c.abortRef = none
  connecting : ∀ r line, c.socketRef = some r → c.line r = some line →
    line.readyState = .connecting → c.phase.isActive = true → c.phase = .creating
  abort : ∀ r, c.abortRef = some r → r + 1 = c.runs ∧
    ((c.request r).aborted = false → c.phase = .creating)
  fresh : ∀ r line, c.socketRef = some r → c.line r = some line → c.phase = .creating →
    line.ended = false

theorem Control.line_setLine {q : RunId} {line' : Line}
    (h : (c.setLine r line).line q = some line') :
    q = r ∧ line' = line ∨ q ≠ r ∧ c.line q = some line' := by
  by_cases hq : q = r
  · subst hq
    have hself : (c.setLine q line).line q = some line := Function.update_self ..
    exact .inl ⟨rfl, Option.some.inj (h.symm.trans hself)⟩
  · have hother : (c.setLine r line).line q = c.line q := Function.update_of_ne hq ..
    exact .inr ⟨hq, hother.symm.trans h⟩

theorem Control.settle_abortRef {q : RunId} (h : (c.settle r).abortRef = some q) :
    c.abortRef = some q := by
  simp only [Control.settle] at h
  split at h
  · cases h
  · exact h

theorem Control.settle_none (h : c.abortRef = some r) : (c.settle r).abortRef = none := if_pos h

theorem Control.settle_aborted {q : RunId} :
    ((c.settle r).request q).aborted = (c.request q).aborted := by
  simp only [Control.settle]
  by_cases hq : q = r
  · subst hq
    rw [Function.update_self]
  · rw [Function.update_of_ne hq]

theorem Control.Coherent.settle (h : c.Coherent) : (c.settle r).Coherent where
  socket q hq := by
    obtain ⟨hruns, hnone⟩ := h.socket q hq
    refine ⟨hruns, ?_⟩
    simp only [Control.settle, hnone]
    split <;> rfl
  connecting := h.connecting
  abort q hq := by
    obtain ⟨hruns, hphase⟩ := h.abort q (Control.settle_abortRef hq)
    rw [Control.settle_aborted]
    exact ⟨hruns, hphase⟩
  fresh := h.fresh

theorem Control.Coherent.setLine (h : c.Coherent) (hline : line.readyState ≠ .connecting)
    (hended : c.socketRef = some r → c.phase = .creating → line.ended = false) :
    (c.setLine r line).Coherent where
  socket := h.socket
  connecting q line' hq hknown hstate := by
    obtain ⟨-, rfl⟩ | ⟨-, hknown⟩ := Control.line_setLine hknown
    · exact absurd hstate hline
    · exact h.connecting q line' hq hknown hstate
  abort := h.abort
  fresh q line' hq hknown hcreating := by
    obtain ⟨rfl, rfl⟩ | ⟨-, hknown⟩ := Control.line_setLine hknown
    · exact hended hq hcreating
    · exact h.fresh q line' hq hknown hcreating

theorem Control.Coherent.inactive {phase : PagePhase} (h : c.Coherent)
    (hphase : phase.isActive = false)
    (habort : ∀ r, c.abortRef = some r → (c.request r).aborted = true) :
    { c with phase := phase }.Coherent where
  socket := h.socket
  connecting _ _ _ _ _ hactive := by
    rw [hphase] at hactive
    cases hactive
  abort r hr := by
    refine ⟨(h.abort r hr).1, fun hkept => ?_⟩
    rw [habort r hr] at hkept
    cases hkept
  fresh _ _ _ _ hcreating := by
    have hcreating : phase = .creating := hcreating
    rw [hcreating] at hphase
    cases hphase

theorem Control.Coherent.no_request (h : c.Coherent) (hcurrent : c.socketRef = some r) (q : RunId)
    (hq : c.abortRef = some q) : False := by
  rw [(h.socket r hcurrent).2] at hq
  cases hq

theorem Control.Coherent.move (h : c.Coherent) (hm : Move c a c') : c'.Coherent := by
  cases hm with
  | nothing => exact h
  | run inactive =>
    refine ⟨nofun, nofun, ?_, nofun⟩
    rintro r ⟨⟩
    exact ⟨rfl, fun _ => rfl⟩
  | @abort r creating current =>
    refine ⟨h.socket, fun _ _ _ _ _ => nofun, fun q hq => ⟨(h.abort q hq).1, fun hkept => ?_⟩,
      fun _ _ _ _ => nofun⟩
    obtain rfl : r = q := Option.some.inj (current.symm.trans hq)
    have haborted : (update c.request r { c.request r with aborted := true } r).aborted = true := by
      rw [Function.update_self]
    cases hkept.symm.trans haborted
  -- the request is done and its socket is kept
  | late creating current =>
    refine h.inactive rfl fun r hr => ?_
    rw [current] at hr
    cases hr
  | terminate current known opened other =>
    exact h.setLine nofun fun _ hcreating => absurd hcreating other
  | unheard other dead =>
    refine h.inactive rfl fun r hr => ?_
    by_contra hkept
    exact other ((h.abort r hr).2 (Bool.eq_false_iff.2 hkept))
  | ignore old => exact h.settle
  | fail current inactive =>
    refine h.settle.inactive inactive fun r hr => ?_
    rw [Control.settle_none current] at hr
    cases hr
  | @connect r settled current kept =>
    -- the socket takes the place of the request
    obtain ⟨hruns, hcreating⟩ := h.abort r current
    refine ⟨?_, fun _ _ _ _ _ _ => hcreating kept, fun q hq => ?_, fun q line hq hknown _ => ?_⟩
    · rintro q ⟨⟩
      exact ⟨hruns, Control.settle_none current⟩
    · have hq : (c.settle r).abortRef = some q := hq
      rw [Control.settle_none current] at hq
      cases hq
    · obtain ⟨-, rfl⟩ | ⟨hne, -⟩ := Control.line_setLine hknown
      · rfl
      · exact absurd (Option.some.inj hq).symm hne
  | @opened r line known connecting =>
    exact h.setLine nofun fun hcurrent => h.fresh r line hcurrent known
  | @closing r line known => exact h.setLine nofun fun hcurrent => h.fresh r line hcurrent known
  | @hear r data line phase current known opened heard =>
    refine ⟨h.socket, fun q line' hq hknown hstate => ?_,
      fun q hq => (h.no_request current q hq).elim, fun _ _ _ _ hcreating => absurd hcreating heard⟩
    obtain rfl : r = q := Option.some.inj (current.symm.trans hq)
    obtain rfl : line = line' := Option.some.inj (known.symm.trans hknown)
    rw [opened] at hstate
    cases hstate
  | @refuse r data line current known opened =>
    have hrefused : { c with phase := .disconnected }.Coherent :=
      h.inactive rfl fun q hq => (h.no_request current q hq).elim
    exact hrefused.setLine nofun fun _ => nofun
  | gone old known => exact h.setLine nofun fun hcurrent => absurd hcurrent old
  | lost current known inactive =>
    exact ⟨nofun, nofun, fun q hq => (h.no_request current q hq).elim, nofun⟩

theorem Page.coherent {s : Page} {C : Page → PageAction → Prop} (h : ReachableWhen pageSystem C s) :
    s.control.Coherent := by
  refine h.invariant (I := fun s => s.control.Coherent) ⟨nofun, nofun, nofun, nofun⟩ ?_
  intro s s' a _ hcoherent _ hs
  exact hcoherent.move (step_move hs)

/-! ### After stop -/

/-- Nothing that is still to come makes the page active. -/
structure Control.Quiet (c : Control) : Prop where
  phase : c.phase.isActive = false
  line : ∀ r line, c.socketRef = some r → c.line r = some line → line.readyState.isLive = false
  request : ∀ r, c.abortRef = some r → (c.request r).aborted = true

def Control.ended (c : Control) (r : RunId) : Bool := (c.line r).any (·.ended)

theorem Control.Quiet.setLine (h : c.Quiet)
    (hline : c.socketRef = some r → line.readyState.isLive = false) : (c.setLine r line).Quiet where
  phase := h.phase
  line q line' hq hknown := by
    obtain ⟨rfl, rfl⟩ | ⟨-, hknown⟩ := Control.line_setLine hknown
    · exact hline hq
    · exact h.line q line' hq hknown
  request := h.request

theorem Control.Quiet.settle (h : c.Quiet) : (c.settle r).Quiet where
  phase := h.phase
  line := h.line
  request q hq := by
    rw [Control.settle_aborted]
    exact h.request q (Control.settle_abortRef hq)

theorem Control.Quiet.inactive {phase : PagePhase} (h : c.Quiet)
    (hphase : phase.isActive = false) : { c with phase := phase }.Quiet :=
  ⟨hphase, h.line, h.request⟩

theorem Control.Quiet.unheard (h : c.Quiet) (hcurrent : c.socketRef = some r)
    (hknown : c.line r = some line) : line.readyState ≠ .opened := by
  intro hopened
  have hdead := h.line r line hcurrent hknown
  rw [hopened] at hdead
  cases hdead

theorem Control.Quiet.move (h : c.Quiet) (hm : Move c a c') (hrun : a ≠ .run) : c'.Quiet := by
  cases hm with
  | nothing => exact h
  | run => exact absurd rfl hrun
  | abort creating current =>
    have hphase := h.phase
    rw [creating] at hphase
    cases hphase
  | late => exact h.inactive rfl
  | terminate current known opened => exact absurd opened (h.unheard current known)
  | unheard => exact h.inactive rfl
  | ignore => exact h.settle
  | fail current inactive => exact h.settle.inactive inactive
  | @connect r settled current kept =>
    rw [h.request r current] at kept
    cases kept
  | opened known connecting =>
    refine h.setLine fun hcurrent => ?_
    have hdead := h.line _ _ hcurrent known
    rw [connecting] at hdead
    cases hdead
  | closing => exact h.setLine fun _ => rfl
  | hear current known opened => exact absurd opened (h.unheard current known)
  | refuse current known opened => exact absurd opened (h.unheard current known)
  | gone => exact h.setLine fun _ => rfl
  | lost current known inactive =>
    refine ⟨?_, nofun, h.request⟩
    obtain rfl | hinactive := inactive
    · exact h.phase
    · exact hinactive

/-- The page has ended run `r`, and waits for no request. -/
structure Control.Ended (c : Control) (r : RunId) : Prop where
  ended : c.ended r = true
  request : c.abortRef = none

theorem Control.Ended.setLine {q : RunId} {old : Line} (h : c.Ended q) (hold : c.line r = some old)
    (hline : old.ended = true → line.ended = true) : (c.setLine r line).Ended q := by
  refine ⟨?_, h.request⟩
  have hended := h.ended
  simp only [Control.ended] at hended ⊢
  by_cases hq : q = r
  · subst hq
    have hself : (c.setLine q line).line q = some line := Function.update_self ..
    rw [hold] at hended
    rw [hself]
    exact hline hended
  · have hother : (c.setLine r line).line q = c.line q := Function.update_of_ne hq ..
    rw [hother]
    exact hended

theorem Control.Ended.move {q : RunId} (h : c.Ended q) (hm : Move c a c') (hrun : a ≠ .run) :
    c'.Ended q := by
  have hnone : ∀ r, c.abortRef ≠ some r := by
    intro r hr
    cases h.request.symm.trans hr
  cases hm with
  | nothing => exact h
  | run => exact absurd rfl hrun
  | abort creating current => exact absurd current (hnone _)
  | late => exact ⟨h.ended, h.request⟩
  | terminate current known opened => exact h.setLine known fun _ => rfl
  | unheard => exact ⟨h.ended, h.request⟩
  | ignore => exact ⟨h.ended, by simp [Control.settle, h.request]⟩
  | fail current inactive => exact absurd current (hnone _)
  | connect current kept => exact absurd current (hnone _)
  | opened known connecting => exact h.setLine known id
  | closing known => exact h.setLine known id
  | hear => exact ⟨h.ended, h.request⟩
  | @refuse r data line current known opened =>
    have hset : (c.setLine r ⟨.closing, true⟩).Ended q := h.setLine known fun _ => rfl
    exact ⟨hset.ended, hset.request⟩
  | gone old known => exact h.setLine known id
  | @lost r line phase current known inactive =>
    have hset : (c.setLine r { line with readyState := .closed }).Ended q := h.setLine known id
    exact ⟨hset.ended, hset.request⟩

def Control.reaches (c : Control) : Bool :=
  decide (c.phase ≠ .creating) || c.abortRef.isSome ||
    !(c.socketRef.bind c.line).any (·.readyState.isLive)

/-- After `stop` the page has ended the run, or is quiet. -/
theorem Control.Coherent.stop (h : c.Coherent) (hactive : c.phase.isActive = true)
    (hreaches : c.reaches = true) (hm : Move c .stop c') : c'.Ended (c.runs - 1) ∨ c'.Quiet := by
  cases hm with
  | nothing other => exact absurd rfl other
  | @abort r creating current =>
    refine .inr ⟨rfl, fun q line hq _ => (h.no_request hq r current).elim, fun q hq => ?_⟩
    obtain rfl : r = q := Option.some.inj (current.symm.trans hq)
    show (update c.request r { c.request r with aborted := true } r).aborted = true
    rw [Function.update_self]
  | late creating current =>
    refine .inr ⟨rfl, fun q line hq hline => ?_, fun q hq => ?_⟩
    · have hq : c.socketRef = some q := hq
      have hline : c.line q = some line := hline
      simpa [Control.reaches, creating, current, hq, hline] using hreaches
    · cases current.symm.trans hq
  | @terminate r line current known opened =>
    obtain ⟨hruns, hnone⟩ := h.socket r current
    obtain rfl : c.runs - 1 = r := Nat.sub_eq_of_eq_add hruns.symm
    have hself : (c.setLine (c.runs - 1) ⟨.opened, true⟩).line (c.runs - 1) =
        some ⟨.opened, true⟩ := Function.update_self ..
    exact .inl ⟨by rw [Control.ended, hself]; rfl, hnone⟩
  | unheard other dead =>
    refine .inr ⟨rfl, fun q line hq hline => ?_, fun q hq => ?_⟩
    · cases hstate : line.readyState with
      | connecting => exact absurd (h.connecting q line hq hline hstate hactive) other
      | opened => exact absurd hstate (dead q line hq hline)
      | closing | closed => rfl
    · by_contra hkept
      exact other ((h.abort q hq).2 (Bool.eq_false_iff.2 hkept))

/-- An action of an older run finds neither its request nor its socket referred to. -/
theorem Control.Coherent.older (h : c.Coherent) (hm : Move c a c') (horigin : a.origin = some r)
    (holder : r + 1 < c.runs) : c'.phase = c.phase := by
  have hrequest : c.abortRef ≠ some r := fun hr => absurd (h.abort r hr).1 (Nat.ne_of_lt holder)
  have hsocket : c.socketRef ≠ some r := fun hr => absurd (h.socket r hr).1 (Nat.ne_of_lt holder)
  cases hm with
  | nothing | ignore | opened | closing | gone => rfl
  | run | abort | late | terminate | unheard => cases horigin
  | fail current =>
    cases horigin
    exact absurd current hrequest
  | connect current =>
    cases horigin
    exact absurd current hrequest
  | hear current =>
    cases horigin
    exact absurd current hsocket
  | refuse current =>
    cases horigin
    exact absurd current hsocket
  | lost current =>
    cases horigin
    exact absurd current hsocket

end

/-! ### Whole runs -/

namespace Page

variable {s s' : Page} {a : PageAction} {r : RunId}

def current (s : Page) : RunId := s.runs - 1

/-- The page has sent `terminate` on the socket of the run, or has closed it. -/
def ended (s : Page) (r : RunId) : Bool :=
  (s.socket r).any fun socket => decide (.terminate ∈ socket.sent) || socket.closed.isSome

theorem ended_iff : s.ended r = s.control.ended r := by
  simp only [Page.ended, Control.ended, Page.control]
  cases s.socket r <;> rfl

/-- Whether `stop` finds a request to abort, or no socket on which the server may still be heard.
In the other phases than `creating` it sends `terminate`. -/
def stopReaches (s : Page) : Bool :=
  decide (s.phase ≠ .creating) || s.abortRef.isSome || !s.socketRef.any s.isLive

theorem stopReaches_iff : s.stopReaches = s.control.reaches := by
  have hlive : s.socketRef.any s.isLive =
      (s.control.socketRef.bind s.control.line).any (·.readyState.isLive) := by
    show s.socketRef.any s.isLive = (s.socketRef.bind s.control.line).any (·.readyState.isLive)
    cases s.socketRef with
    | none => rfl
    | some r => exact isLive_iff
  rw [stopReaches, hlive]
  rfl

theorem ended_or_quiet {C : Page → PageAction → Prop}
    (h : ReachableWhen (.ofStep s Page.step) C s') (hC : ∀ s a, C s a → a ≠ .run)
    (hs : s.control.Ended r ∨ s.control.Quiet) : s'.control.Ended r ∨ s'.control.Quiet := by
  refine h.invariant (I := fun s => s.control.Ended r ∨ s.control.Quiet) hs ?_
  intro s s' a _ hs hc hstep
  have hmove := step_move hstep
  exact hs.imp (fun h => h.move hmove (hC s a hc)) fun h => h.move hmove (hC s a hc)

theorem queued_is_shown {socket : PageSocket} (hsocket : s.socket r = some socket)
    (hopened : socket.readyState = .opened) (hcurrent : s.socketRef = some r) :
    ∃ s', s.step (.message r (.text (some (.phase .queued none)))) = some s' ∧
      s'.phase = .wire .queued ∧ s'.socket = s.socket := by
  refine ⟨s.handleSocketMessage r socket.session (.text (some (.phase .queued none))), ?_, ?_⟩
  · simp only [Page.step, hsocket, hopened, hcurrent, if_true]
  · simp only [handleSocketMessage, handleExecutionEvent]
    split
    · exact ⟨rfl, rfl⟩
    · exact ⟨rfl, rfl⟩

theorem live_socket_is_heard {socket : PageSocket} (hsocket : s.socket r = some socket)
    (hlive : s.isLive r = true) (hcurrent : s.socketRef = some r) :
    ∃ s', ReachableWhen (.ofStep s Page.step) (fun _ a => a ≠ .run) s' ∧
      s'.phase = .wire .queued ∧ s'.socket r = some { socket with readyState := .opened } := by
  simp only [Page.isLive, hsocket, Bool.or_eq_true, decide_eq_true_eq] at hlive
  rcases hlive with hconnecting | hopened
  · let opened := s.setSocket r { socket with readyState := .opened }
    have hopen : s.step (.opened r) = some opened := by
      simp only [Page.step, hsocket, hconnecting, if_true]
      rfl
    have hself : opened.socket r = some { socket with readyState := .opened } :=
      Function.update_self ..
    obtain ⟨s', hstep, hphase, hsame⟩ := queued_is_shown (s := opened) hself rfl hcurrent
    have hreach : ReachableWhen (.ofStep s Page.step) (fun _ a => a ≠ .run) opened :=
      .step (a := .opened r) .init PageAction.noConfusion hopen
    exact ⟨s', hreach.step PageAction.noConfusion hstep, hphase, hsame ▸ hself⟩
  · obtain ⟨s', hstep, hphase, hsame⟩ := queued_is_shown hsocket hopened hcurrent
    refine ⟨s', .step .init PageAction.noConfusion hstep, hphase, ?_⟩
    rw [hsame, hsocket, ← hopened]

/-- A `stop` that reaches neither the request nor the socket leaves a run that comes back. -/
theorem stop_comes_back (h : s.control.Coherent) (hreaches : s.stopReaches = false) :
    ∃ s', ReachableWhen (.ofStep s.stop Page.step) (fun _ a => a ≠ .run) s' ∧
      s'.ended s.current = false ∧ s'.phase.isActive = true := by
  simp only [stopReaches, Bool.or_eq_false_iff, decide_eq_false_iff_not, not_not, Bool.not_eq_false',
    Option.isSome_eq_false_iff, Option.isNone_iff_eq_none] at hreaches
  obtain ⟨⟨hcreating, habort⟩, hlive⟩ := hreaches
  obtain ⟨r, hcurrent, hlive⟩ := (Option.any_eq_true ..).1 hlive
  cases hsocket : s.socket r with
  | none => simp [isLive, hsocket] at hlive
  | some socket =>
    have hstop : s.stop.socket = s.socket ∧ s.stop.socketRef = s.socketRef := by
      have hsame : s.abort = s := by simp [Page.abort, habort]
      rw [Page.stop, if_pos hcreating, hsame]
      exact ⟨rfl, rfl⟩
    obtain ⟨s', hreach, hphase, hline⟩ := live_socket_is_heard (s := s.stop) (r := r)
      (hstop.1 ▸ hsocket) (by rw [isLive, hstop.1]; exact hlive) (hstop.2.trans hcurrent)
    refine ⟨s', hreach, ?_, by rw [hphase]; rfl⟩
    have hr : s.current = r := Nat.sub_eq_of_eq_add (h.socket r hcurrent).1.symm
    rw [ended, hr, hline, Option.any_some]
    exact h.fresh r _ hcurrent (line_of_socket hsocket) hcreating

end Page

/-- Of every page that can be reached: after `stop` of an execution that is active, and until the
next `run`, the page does not become active unless it has sent `terminate` on the socket or closed
it, exactly if `stop` is not used between the creation of the socket and the first phase of the
server; and no action of an older run changes the phase. -/
theorem stop_means_stop (s : Page) (h : Reachable pageSystem s) :
    (∀ s', s.phase.isActive = true → s.step .stop = some s' →
      ((∀ s'', ReachableWhen (.ofStep s' Page.step) (fun _ a => a ≠ .run) s'' →
        s''.ended s.current = true ∨ s''.phase.isActive = false) ↔ s.stopReaches = true)) ∧
    ∀ a s' r, a.origin = some r → r + 1 < s.runs → s.step a = some s' → s'.phase = s.phase := by
  have hcoherent := Page.coherent h
  constructor
  · intro s' hactive hstop
    constructor
    · intro hall
      by_contra hmissed
      cases hstop
      obtain ⟨s'', hafter, hended, hback⟩ :=
        Page.stop_comes_back hcoherent (Bool.eq_false_iff.2 hmissed)
      rcases hall s'' hafter with hall | hall
      · cases hended.symm.trans hall
      · cases hback.symm.trans hall
    · intro hreaches s'' hafter
      have hstopped := hcoherent.stop hactive (Page.stopReaches_iff ▸ hreaches) (step_move hstop)
      obtain hended | hquiet := Page.ended_or_quiet hafter (fun _ _ hrun => hrun) hstopped
      · exact .inl (Page.ended_iff ▸ hended.ended)
      · exact .inr hquiet.phase
  · intro a s' r horigin holder hs
    exact hcoherent.older (step_move hs) horigin holder

def PageAction.isOther : PageAction → Bool
  | .run => false
  | _ => true

theorem PageAction.ne_run {a : PageAction} (h : a.isOther = true) : a ≠ .run := by
  rintro rfl
  cases h

/-- The first request is stopped, and completes when a second one is pending, which is then
stopped too. -/
theorem two_stopped_requests :
    ∃ s s' s'' s₀, Reachable pageSystem s ∧ s.phase.isActive = true ∧ s.stopReaches = true ∧
      s.step .stop = some s' ∧ ReachableWhen (.ofStep s' Page.step) (fun _ a => a ≠ .run) s'' ∧
      (s''.ended s.current = true ∨ s''.phase.isActive = false) ∧
      s.step (.settled 0 (.session ⟨7, "/ws/executions/7"⟩ true)) = some s₀ ∧
      s₀.phase = s.phase := by
  obtain ⟨s, hr, hp⟩ := Transition.reachable_of_execute (f := Page.step) (i := .new)
    [.run, .stop, .run]
    (p := fun s => s.phase.isActive && s.stopReaches && decide (0 + 1 < s.runs) &&
      (s.request 0).pending &&
      ((s.step .stop).bind fun s' => (Transition.execute
        (Transition.guarded (fun _ a => a.isOther) Page.step) s' [.settled 1 (.error .abort)]).map
          fun _ => true) == some true)
    (by decide +kernel)
  simp only [Bool.and_eq_true, beq_iff_eq, decide_eq_true_eq] at hp
  obtain ⟨⟨⟨⟨hactive, hreaches⟩, holder⟩, hpending⟩, hp⟩ := hp
  obtain ⟨s', hstop, hp⟩ := Option.bind_eq_some_iff.1 hp
  obtain ⟨s'', hafter, -⟩ := Option.map_eq_some_iff.1 hp
  have hafter := ReachableWhen.execute (i := s') (f := Page.step) (C := fun _ a => a ≠ .run) .init
    (fun _ _ _ => PageAction.ne_run) _ hafter
  obtain ⟨hstopped, hold⟩ := stop_means_stop s hr
  have hsettled : s.step (.settled 0 (.session ⟨7, "/ws/executions/7"⟩ true)) =
      some (s.settle 0 (.session ⟨7, "/ws/executions/7"⟩ true)) := if_pos hpending
  exact ⟨s, s', s'', _, hr, hactive, hreaches, hstop, hafter,
    (hstopped s' hactive hstop).2 hreaches s'' hafter, hsettled, hold _ _ 0 rfl holder hsettled⟩

/-- The request has completed and the socket is being opened when `stop` is used. The server is
not told, and its first phase makes the page active again. -/
theorem stopped_run_comes_back :
    ∃ s s' s'', Reachable pageSystem s ∧ s.phase.isActive = true ∧ s.step .stop = some s' ∧
      s'.phase = .wire .cancelled ∧
      ReachableWhen (.ofStep s' Page.step) (fun _ a => a ≠ .run) s'' ∧
      s''.ended s.current = false ∧ s''.phase = .wire .queued := by
  obtain ⟨s, hr, hp⟩ := Transition.reachable_of_execute (f := Page.step) (i := .new)
    [.run, .settled 0 (.session ⟨7, "/ws/executions/7"⟩ true)]
    (p := fun s => s.phase.isActive &&
      ((s.step .stop).bind fun s' => (Transition.execute
        (Transition.guarded (fun _ a => a.isOther) Page.step) s'
          [.opened 0, .message 0 (.text (some (.hello 1 7))),
            .message 0 (.text (some (.phase .queued none)))]).map fun s'' =>
        decide (s'.phase = .wire .cancelled ∧ s''.ended s.current = false ∧
          s''.phase = .wire .queued)) == some true)
    (by decide +kernel)
  simp only [Bool.and_eq_true, beq_iff_eq] at hp
  obtain ⟨hactive, hp⟩ := hp
  obtain ⟨s', hstop, hp⟩ := Option.bind_eq_some_iff.1 hp
  obtain ⟨s'', hafter, hp⟩ := Option.map_eq_some_iff.1 hp
  have hafter := ReachableWhen.execute (i := s') (f := Page.step) (C := fun _ a => a ≠ .run) .init
    (fun _ _ _ => PageAction.ne_run) _ hafter
  obtain ⟨hcancelled, hended, hqueued⟩ := of_decide_eq_true hp
  exact ⟨s, s', s'', hr, hactive, hstop, hcancelled, hafter, hended, hqueued⟩

end SmartC.Web
