import SmartC.Executor.Refinement
import SmartC.Executor.Sessions
import SmartC.Executor.Ticket
import SmartC.Executor.Writes

/-!
# A ticket opens its session once

The step model together with the tickets that it issues. `createExecution` signs
a ticket for the id that it draws, before it knows whether there is room for the
session; `consumeTicket` reads the clock once, when it verifies the ticket, and
the checks under the locks come later. A log has every `Ok` of `consume_ticket`,
with the text that was presented and the second at which it was verified.
-/

namespace SmartC.Executor

open Function (update)
open Transition (System RecordedWhen executeRecording guarded)

/-! ### The model -/

/-- A ticket as `consume_ticket` was given it, and the second at which it was verified. -/
structure Presentation where
  ticket : String
  second : Nat
  deriving DecidableEq, Repr

structure Acceptance where
  session : Uuid
  presentation : Presentation
  deriving DecidableEq, Repr

/-- `presented` has the latest ticket of every task. -/
structure TicketState where
  state : State
  issued : List IssuedTicket
  presented : Tid → Presentation

/-- A step, and the bytes that the random generator yields if it issues a ticket. -/
structure TicketAction where
  action : Action
  random : Fin 24 → UInt8

def State.draws (s : State) : Action → Option (Uuid × CreateExecutionRequest × Nat)
  | .run t (.fresh id) =>
    match (s.task t).pc with
    | .createExecutionInsert request expires => some (id, request, expires)
    | _ => none
  | _ => none

def State.presents (s : State) (presented : Tid → Presentation) (a : Action) (u : Tid) :
    Presentation :=
  match a with
  | .run t _ =>
    match (s.task t).pc with
    | .consumeTicket _ ticket => if u = t then ⟨ticket, s.shared.unixNow⟩ else presented u
    | _ => presented u
  | _ => presented u

namespace TicketState

def new : TicketState := ⟨.new, [], fun _ => ⟨"", 0⟩⟩

/-- The tickets after a step. An id has 128 bits and is never drawn again, not even if the
request that it was drawn for was refused. -/
def issue (signer : TicketSigner) (s : TicketState) (a : TicketAction) :
    Option (List IssuedTicket) :=
  match s.state.draws a.action with
  | none => some s.issued
  | some (id, request, expires) =>
    if id < 2 ^ 128 ∧ id ∉ s.issued.map (·.sessionId) then
      some (s.issued ++
        [signer.issue id request.visitorId (executionPath id) expires a.random])
    else none

def step (signer : TicketSigner) (env : Env) (s : TicketState) (a : TicketAction) :
    Option TicketState :=
  match s.issue signer a, s.state.step env a.action with
  | some issued, some state => some ⟨state, issued, s.state.presents s.presented a.action⟩
  | _, _ => none

/-- The MAC is ideal: where a ticket is verified, a signature that is right was made by `issue`. -/
def unforged (signer : TicketSigner) (s : TicketState) (a : TicketAction) : Bool :=
  match a.action with
  | .run t _ =>
    match (s.state.task t).pc with
    | .consumeTicket j ticket =>
      signer.unforged s.issued ticket j (s.state.shared.data j).visitorId (executionPath j)
    | _ => true
  | _ => true

def accepted (env : Env) (s : TicketState) (a : TicketAction) : List Acceptance :=
  match a.action with
  | .run t _ =>
    match (s.state.task t).pc with
    | .consumeTicketLimits j =>
      match consumeTicketLimits env s.state.shared j with
      | some ⟨_, .done .unit, _⟩ => [⟨j, s.presented t⟩]
      | _ => []
    | _ => []
  | _ => []

/-- The text carries the nonce and the expiry of the one ticket that was issued for the id,
visitor and path of session `j`, and that ticket had not expired when it was verified. -/
def Genuine (s : TicketState) (j : Uuid) (p : Presentation) : Prop :=
  ∃ ticket ∈ s.issued, ticket.sessionId = j ∧
    ticket.visitorId = (s.state.shared.data j).visitorId ∧ ticket.path = executionPath j ∧
    (∀ other ∈ s.issued, other.sessionId = j → other = ticket) ∧
    ticket.CarriedBy p.ticket ∧ p.second < ticket.expiresUnix

end TicketState

def ticketSystem (signer : TicketSigner) (config : AppConfig) (fromUtf8Lossy : Bytes → String) :
    System TicketState TicketAction :=
  .ofStep .new (TicketState.step signer (signer.env config fromUtf8Lossy))

/-! ### One step of an operation -/

/-- The session whose ticket a `consume_ticket` has verified. -/
def Pc.checked : Pc → Option Uuid
  | .consumeTicketInner j | .consumeTicketQueue j | .consumeTicketLimits j => some j
  | _ => none

def Pc.expiry : Pc → Option Nat
  | .createExecutionInsert _ expires => some expires
  | _ => none

inductive TicketStep (env : Env) (sh : Shared) : Choice → Pc → Outcome → Prop
  | validated {choice request expires} (bound : expires < 2 ^ 64) : TicketStep env sh choice
      (.createExecution request) ⟨sh, .createExecutionInsert request expires, none⟩
  | inserted {id request expires o} (checked : o.pc.checked = none) (expiry : o.pc.expiry = none)
      (data : o.shared.data = update sh.data id
        ⟨request.files, request.visitorId, request.clientIp, request.terminal, expires⟩)
      (created : o.shared.created = insert id sh.created) (fresh : id ∉ sh.created) :
      TicketStep env sh (.fresh id) (.createExecutionInsert request expires) o
  | verified {choice j ticket}
      (ok : env.verify ticket j (sh.data j).visitorId sh.unixNow = .ok ()) :
      TicketStep env sh choice (.consumeTicket j ticket) ⟨sh, .consumeTicketInner j, none⟩
  | passed {choice pc o} (checked : o.pc.checked = pc.checked) (verified : pc.checked ≠ none)
      (expiry : o.pc.expiry = none) (data : o.shared.data = sh.data)
      (created : o.shared.created = sh.created) : TicketStep env sh choice pc o
  | other {choice pc o} (checked : o.pc.checked = none) (expiry : o.pc.expiry = none)
      (data : o.shared.data = sh.data) (created : o.shared.created = sh.created) :
      TicketStep env sh choice pc o

theorem exec_ticketStep (h : exec env t choice sh pc = some o) : TicketStep env sh choice pc o := by
  cases exec_branch h with
  | validated => exact .validated (Nat.lt_of_le_of_lt (Nat.min_le_right _ _) (by decide))
  | inserted drawn fresh room =>
    subst drawn
    exact .inserted rfl rfl rfl rfl fresh
  | verified ok => exact .verified ok
  | unused | queueTaken => exact .passed rfl (Option.some_ne_none _) rfl rfl rfl
  | _ => exact .other rfl rfl rfl rfl

section

variable {env : Env} {sh : Shared} {choice : Choice} {pc : Pc} {o : Outcome} {j : Uuid}

theorem TicketStep.data_eq (h : TicketStep env sh choice pc o) (hj : j ∈ sh.created) :
    o.shared.data j = sh.data j := by
  cases h with
  | validated _ => rfl
  | @inserted id request expires o _ _ data _ fresh =>
    have hne : j ≠ id := fun heq => fresh (heq ▸ hj)
    exact (congrFun data j).trans (Function.update_of_ne hne ..)
  | verified _ => rfl
  | passed _ _ _ data _ => exact congrFun data j
  | other _ _ data _ => exact congrFun data j

theorem TicketStep.mem_created (h : TicketStep env sh choice pc o) (hj : j ∈ o.shared.created) :
    j ∈ sh.created ∨ ∃ request expires, choice = .fresh j ∧
      pc = .createExecutionInsert request expires ∧
      (o.shared.data j).visitorId = request.visitorId := by
  cases h with
  | validated _ => exact .inl hj
  | @inserted id request expires o _ _ data created _ =>
    rcases Finset.mem_insert.1 (created ▸ hj) with rfl | hj
    · have hdata := (congrFun data j).trans (Function.update_self ..)
      exact .inr ⟨request, expires, rfl, rfl, congrArg SessionData.visitorId hdata⟩
    · exact .inl hj
  | verified _ => exact .inl hj
  | passed _ _ _ _ created => exact .inl (created ▸ hj)
  | other _ _ _ created => exact .inl (created ▸ hj)

theorem TicketStep.expiry_lt (h : TicketStep env sh choice pc o)
    (ho : o.pc.expiry = some expires) : expires < 2 ^ 64 := by
  cases h with
  | validated bound =>
    cases ho
    exact bound
  | inserted _ expiry _ _ _ => cases expiry.symm.trans ho
  | verified _ => cases ho
  | passed _ _ expiry _ _ => cases expiry.symm.trans ho
  | other _ expiry _ _ => cases expiry.symm.trans ho

theorem TicketStep.checked_cases (h : TicketStep env sh choice pc o)
    (ho : o.pc.checked = some j) : pc.checked = some j ∨ ∃ ticket, pc = .consumeTicket j ticket ∧
      env.verify ticket j (sh.data j).visitorId sh.unixNow = .ok () := by
  cases h with
  | validated _ => cases ho
  | inserted checked _ _ _ _ => cases checked.symm.trans ho
  | verified ok =>
    cases ho
    exact .inr ⟨_, rfl, ok⟩
  | passed checked _ _ _ _ => exact .inl (checked.symm.trans ho)
  | other checked _ _ _ => cases checked.symm.trans ho

end

theorem Frame.resume_checked (r : Ret) (f : Frame) : (f.resume r).checked = none := by
  cases f <;> simp only [Frame.resume] <;> (try split) <;> rfl

theorem Frame.resume_expiry (r : Ret) (f : Frame) : (f.resume r).expiry = none := by
  cases f <;> simp only [Frame.resume] <;> (try split) <;> rfl

theorem Op.start_checked (op : Op) : op.start.pc.checked = none := by
  cases op <;> rfl

theorem Op.start_expiry (op : Op) : op.start.pc.expiry = none := by
  cases op <;> rfl

theorem Pc.mem_arcs_of_checked {pc : Pc} (h : pc.checked = some j) : j ∈ pc.arcs := by
  cases pc <;> cases h <;> exact List.mem_singleton_self _

/-! ### One step of the system -/

section

variable {env : Env} {s s' : State} {a : Action} {u : Tid} {j : Uuid}

theorem State.step_task (h : s.step env a = some s') (u : Tid) :
    s'.task u = s.task u ∨ ((s'.task u).pc.checked = none ∧ (s'.task u).pc.expiry = none) ∨
      ∃ choice o, a = .run u choice ∧ TicketStep env s.shared choice (s.task u).pc o ∧
        (s'.task u).pc = o.pc := by
  cases State.step_cases h with
  | @start n op _ _ =>
    by_cases hu : u = .task n
    · subst hu
      simp only [State.setTask, Function.update_self]
      exact .inr (.inl ⟨op.start_checked, op.start_expiry⟩)
    · exact .inl (Function.update_of_ne hu ..)
  | @resume t choice r f frames at_ =>
    by_cases hu : u = t
    · subst hu
      simp only [State.setTask, Function.update_self]
      exact .inr (.inl ⟨f.resume_checked r, f.resume_expiry r⟩)
    · exact .inl (Function.update_of_ne hu ..)
  | @exec t choice o he =>
    by_cases hu : u = t
    · subst hu
      refine .inr (.inr ⟨choice, o, rfl, exec_ticketStep he, ?_⟩)
      simp only [Function.update_self]
    · exact .inl (Function.update_of_ne hu ..)
  | outside ho => exact .inl rfl

theorem State.step_expiry (h : s.step env a = some s')
    (hu : (s'.task u).pc.expiry = some expires) :
    expires < 2 ^ 64 ∨ (s.task u).pc.expiry = some expires := by
  rcases State.step_task h u with heq | ⟨-, hnone⟩ | ⟨choice, o, -, hstep, hpc⟩
  · exact .inr (heq ▸ hu)
  · cases hnone.symm.trans hu
  · exact .inl (hstep.expiry_lt (hpc ▸ hu))

theorem State.step_checked (h : s.step env a = some s') (hu : (s'.task u).pc.checked = some j) :
    (s.task u).pc.checked = some j ∨ ∃ choice ticket, a = .run u choice ∧
      (s.task u).pc = .consumeTicket j ticket ∧
      env.verify ticket j (s.shared.data j).visitorId s.shared.unixNow = .ok () := by
  rcases State.step_task h u with heq | ⟨hnone, -⟩ | ⟨choice, o, ha, hstep, hpc⟩
  · exact .inl (heq ▸ hu)
  · cases hnone.symm.trans hu
  · exact (hstep.checked_cases (hpc ▸ hu)).imp_right fun ⟨ticket, hticket⟩ =>
      ⟨choice, ticket, ha, hticket⟩

theorem State.step_data (h : s.step env a = some s') (hj : j ∈ s.shared.created) :
    j ∈ s'.shared.created ∧ s'.shared.data j = s.shared.data j := by
  cases State.step_cases h with
  | start _ _ => exact ⟨hj, rfl⟩
  | resume _ => exact ⟨hj, rfl⟩
  | exec he => exact ⟨(exec_continues he).created hj, (exec_ticketStep he).data_eq hj⟩
  | outside ho => cases ho <;> exact ⟨hj, rfl⟩

theorem State.step_created (h : s.step env a = some s') (hj : j ∈ s'.shared.created) :
    j ∈ s.shared.created ∨ ∃ request expires, s.draws a = some (j, request, expires) ∧
      (s'.shared.data j).visitorId = request.visitorId := by
  cases State.step_cases h with
  | start _ _ => exact .inl hj
  | resume _ => exact .inl hj
  | exec he =>
    refine ((exec_ticketStep he).mem_created hj).imp_right ?_
    rintro ⟨request, expires, rfl, hpc, hvisitor⟩
    exact ⟨request, expires, by simp only [State.draws, hpc], hvisitor⟩
  | outside ho => cases ho <;> exact .inl hj

theorem State.draws_eq_some (h : s.draws a = some (j, request, expires)) :
    ∃ t, (s.task t).pc = .createExecutionInsert request expires := by
  unfold State.draws at h
  split at h
  · next t id =>
    split at h <;> cases h
    exact ⟨t, ‹_›⟩
  · cases h

theorem State.presents_of_checked (presented : Tid → Presentation)
    (hu : (s.task u).pc.checked = some j) : s.presents presented a u = presented u := by
  unfold State.presents
  split
  · next t _ =>
    split
    · next hpc =>
      refine if_neg ?_
      rintro rfl
      rw [hpc] at hu
      cases hu
    · rfl
  · rfl

theorem State.presents_of_verified (presented : Tid → Presentation) (choice : Choice)
    (hu : (s.task u).pc = .consumeTicket j ticket) :
    s.presents presented (.run u choice) u = ⟨ticket, s.shared.unixNow⟩ := by
  simp only [State.presents, hu, if_true]

theorem InnerWrite.keeps_consumed {i i' : SessionInner} (h : InnerWrite pc i i')
    (hi : i.ticketConsumed = true) : i'.ticketConsumed = true := by
  cases h <;> first | exact hi | rfl

theorem State.step_consumed (h : s.step env a = some s') (hj : j ∈ s.shared.created)
    (hconsumed : (s.shared.inner j).ticketConsumed = true) :
    (s'.shared.inner j).ticketConsumed = true := by
  cases State.step_cases h with
  | start _ _ => exact hconsumed
  | resume _ => exact hconsumed
  | exec he =>
    cases exec_writes he with
    | nothing inner => exact inner ▸ hconsumed
    | @one k i inner write =>
      by_cases hk : j = k
      · subst hk
        simp only [inner, Function.update_self]
        exact write.keeps_consumed hconsumed
      · simp only [inner, Function.update_of_ne hk]
        exact hconsumed
    | @new k fresh inner =>
      have hk : j ≠ k := fun heq => fresh (heq ▸ hj)
      simp only [inner, Function.update_of_ne hk]
      exact hconsumed
  | outside ho => cases ho <;> exact hconsumed

end

/-! ### The issued tickets -/

structure TicketSigner.Issued (signer : TicketSigner) (ticket : IssuedTicket) : Prop where
  session : ticket.sessionId < 2 ^ 128
  expires : ticket.expiresUnix < 2 ^ 64
  made : ∃ random, signer.issue ticket.sessionId ticket.visitorId (executionPath ticket.sessionId)
    ticket.expiresUnix random = ticket

/-- Every session has the one ticket that was issued for it, and a task that has verified a ticket
for a session has verified that one. -/
structure Ticketed (signer : TicketSigner) (s : TicketState) : Prop where
  issued : ∀ ticket ∈ s.issued, signer.Issued ticket
  distinct : (s.issued.map (·.sessionId)).Nodup
  created : ∀ j ∈ s.state.shared.created, ∃ ticket ∈ s.issued, ticket.sessionId = j ∧
    ticket.visitorId = (s.state.shared.data j).visitorId
  expiries : ∀ t expires, (s.state.task t).pc.expiry = some expires → expires < 2 ^ 64
  checked : ∀ t j, (s.state.task t).pc.checked = some j → s.Genuine j (s.presented t)

section

variable {signer : TicketSigner} {config : AppConfig} {fromUtf8Lossy : Bytes → String} {env : Env}
  {s s' : TicketState} {a : TicketAction} {j : Uuid} {p : Presentation}

theorem TicketSigner.Issued.path_eq {ticket : IssuedTicket} (h : signer.Issued ticket) :
    ticket.path = executionPath ticket.sessionId := by
  obtain ⟨random, hmade⟩ := h.made
  exact (congrArg IssuedTicket.path hmade).symm

theorem TicketSigner.Issued.parse_value {ticket : IssuedTicket} (h : signer.Issued ticket) :
    TicketParts.parse ticket.value = some ⟨ticket.nonce, ticket.expiresUnix, signer.sign
      ticket.sessionId ticket.visitorId ticket.path ticket.expiresUnix ticket.nonce⟩ := by
  obtain ⟨random, hmade⟩ := h.made
  have hparse : TicketParts.parse (signer.issue ticket.sessionId ticket.visitorId
      (executionPath ticket.sessionId) ticket.expiresUnix random).value = _ :=
    TicketSigner.parse_issue h.expires
  rw [hmade] at hparse
  rw [hparse, h.path_eq]

theorem TicketState.step_inv (h : s.step signer env a = some s') :
    s.issue signer a = some s'.issued ∧ s.state.step env a.action = some s'.state ∧
      s'.presented = s.state.presents s.presented a.action := by
  unfold TicketState.step at h
  split at h <;> cases h
  exact ⟨‹_›, ‹_›, rfl⟩

theorem TicketState.issue_of_draws (h : s.issue signer a = some tickets)
    (hdraws : s.state.draws a.action = some (j, request, expires)) :
    j < 2 ^ 128 ∧ j ∉ s.issued.map (·.sessionId) ∧ tickets = s.issued ++
      [signer.issue j request.visitorId (executionPath j) expires a.random] := by
  simp only [TicketState.issue, hdraws] at h
  split at h <;> cases h
  next hfresh => exact ⟨hfresh.1, hfresh.2, rfl⟩

theorem TicketState.issue_cases (h : s.issue signer a = some tickets) :
    tickets = s.issued ∨ ∃ id request expires, s.state.draws a.action = some (id, request, expires) ∧
      id < 2 ^ 128 ∧ id ∉ s.issued.map (·.sessionId) ∧ tickets = s.issued ++
        [signer.issue id request.visitorId (executionPath id) expires a.random] := by
  cases hdraws : s.state.draws a.action with
  | none =>
    simp only [TicketState.issue, hdraws] at h
    cases h
    exact .inl rfl
  | some drawn =>
    obtain ⟨id, request, expires⟩ := drawn
    exact .inr ⟨id, request, expires, rfl, TicketState.issue_of_draws h hdraws⟩

theorem TicketState.subset_issue (h : s.issue signer a = some tickets) : s.issued ⊆ tickets := by
  rcases TicketState.issue_cases h with rfl | ⟨id, request, expires, -, -, -, rfl⟩
  · exact List.Subset.refl _
  · exact List.subset_append_left _ _

theorem Ticketed.issue_issued (h : Ticketed signer s) (hi : s.issue signer a = some tickets) :
    ∀ ticket ∈ tickets, signer.Issued ticket := by
  rcases TicketState.issue_cases hi with rfl | ⟨id, request, expires, hdraws, hid, -, rfl⟩
  · exact h.issued
  · intro ticket hmem
    rcases List.mem_append.1 hmem with hmem | hmem
    · exact h.issued ticket hmem
    · rw [List.mem_singleton] at hmem
      subst hmem
      obtain ⟨t, hpc⟩ := State.draws_eq_some hdraws
      exact ⟨hid, h.expiries t expires (by rw [hpc]; rfl), a.random, rfl⟩

theorem Ticketed.issue_distinct (h : Ticketed signer s) (hi : s.issue signer a = some tickets) :
    (tickets.map (·.sessionId)).Nodup := by
  rcases TicketState.issue_cases hi with rfl | ⟨id, request, expires, -, -, hfresh, rfl⟩
  · exact h.distinct
  · rw [List.map_append, List.map_singleton]
    exact List.Nodup.append h.distinct (List.nodup_singleton _)
      (List.disjoint_singleton.2 hfresh)

theorem TicketState.Genuine.step (h : s.Genuine j p) (hj : j ∈ s.state.shared.created)
    (hstate : s.state.step env a.action = some s'.state) (hissued : s.issued ⊆ s'.issued)
    (hdistinct : (s'.issued.map (·.sessionId)).Nodup) : s'.Genuine j p := by
  obtain ⟨ticket, hmem, hsession, hvisitor, hpath, -, hcarried⟩ := h
  rw [← (State.step_data hstate hj).2] at hvisitor
  refine ⟨ticket, hissued hmem, hsession, hvisitor, hpath, fun other hother heq => ?_, hcarried⟩
  exact List.inj_on_of_nodup_map hdistinct hother (hissued hmem) (heq.trans hsession.symm)

/-- An accepted text that was not forged is the ticket of the session. -/
theorem Ticketed.genuine_of_verify (h : Ticketed signer s) (hj : j ∈ s.state.shared.created)
    (hunforged : signer.unforged s.issued value j (s.state.shared.data j).visitorId
      (executionPath j) = true)
    (hverify : signer.verify value j (s.state.shared.data j).visitorId (executionPath j) now =
      .ok ()) : s.Genuine j ⟨value, now⟩ := by
  obtain ⟨ticket, hmem, rfl, hvisitor⟩ := h.created j hj
  have hissued := h.issued ticket hmem
  have honly : ∀ other ∈ s.issued, other.sessionId = ticket.sessionId → other = ticket :=
    fun other hother heq => List.inj_on_of_nodup_map h.distinct hother hmem heq
  rw [← hvisitor, ← hissued.path_eq] at hunforged hverify
  exact ⟨ticket, hmem, rfl, hvisitor, hissued.path_eq, honly,
    TicketSigner.carriedBy_of_verify hunforged (fun other hother => (h.issued other hother).session)
      honly hissued.session hverify⟩

theorem Ticketed.step (h : Ticketed signer s) (ho : Orderly s.state)
    (hunforged : s.unforged signer a = true)
    (hs : s.step signer (signer.env config fromUtf8Lossy) a = some s') : Ticketed signer s' := by
  obtain ⟨hissue, hstate, hpresented⟩ := TicketState.step_inv hs
  have hsubset := TicketState.subset_issue hissue
  have hdistinct := h.issue_distinct hissue
  refine ⟨h.issue_issued hissue, hdistinct, fun j hj => ?_, fun t expires ht => ?_,
    fun t j ht => ?_⟩
  · rcases State.step_created hstate hj with hold | ⟨request, expires, hdraws, hvisitor⟩
    · obtain ⟨ticket, hmem, hsession, hvisitor⟩ := h.created j hold
      exact ⟨ticket, hsubset hmem, hsession, by rw [hvisitor, (State.step_data hstate hold).2]⟩
    · obtain ⟨-, -, hissued⟩ := TicketState.issue_of_draws hissue hdraws
      rw [hissued]
      exact ⟨_, List.mem_append_right _ (List.mem_singleton_self _), rfl, hvisitor.symm⟩
  · exact (State.step_expiry hstate ht).elim id (h.expiries t expires)
  · rw [hpresented]
    rcases State.step_checked hstate ht with hchecked | ⟨choice, value, ha, hpc, hverify⟩
    · have hj := ho.arcs t j (List.mem_append_left _ (Pc.mem_arcs_of_checked hchecked))
      rw [State.presents_of_checked s.presented hchecked]
      exact (h.checked t j hchecked).step hj hstate hsubset hdistinct
    · have hj := ho.arcs t j (List.mem_append_left _ (by rw [hpc]; exact List.mem_singleton_self _))
      have hgenuine : s.Genuine j ⟨value, s.state.shared.unixNow⟩ := by
        refine h.genuine_of_verify hj ?_ hverify
        simpa only [TicketState.unforged, ha, hpc] using hunforged
      rw [ha, State.presents_of_verified s.presented choice hpc]
      exact hgenuine.step hj hstate hsubset hdistinct

theorem Ticketed.new : Ticketed signer .new where
  issued := nofun
  distinct := List.nodup_nil
  created := nofun
  expiries t expires ht := by cases t <;> cases ht
  checked t j ht := by cases t <;> cases ht

theorem reachable_ticketState {C : TicketState → TicketAction → Prop}
    (h : Transition.ReachableWhen (ticketSystem signer config fromUtf8Lossy) C s) :
    Reachable (signer.env config fromUtf8Lossy) s.state :=
  h.simulate TicketState.state rfl fun _ _ hs => .inr ⟨_, trivial, (TicketState.step_inv hs).2.1⟩

theorem ticketed (h : Transition.ReachableWhen (ticketSystem signer config fromUtf8Lossy)
    (fun s a => s.unforged signer a = true) s) : Ticketed signer s :=
  h.invariant .new fun hr hi hc hs =>
    hi.step (Reachable.orderly (reachable_ticketState hr)) hc hs

/-! ### The log -/

theorem consumeTicketLimits_ok {sh sh' : Shared} {frame : Option Frame}
    (h : consumeTicketLimits env sh j = some ⟨sh', .done .unit, frame⟩) :
    (sh'.inner j).ticketConsumed = true := by
  simp only [consumeTicketLimits, fail, goto] at h
  repeat' split at h
  all_goals cases h
  simp only [Shared.setInner, Function.update_self]

theorem TicketState.accepted_cases (env : Env) (s : TicketState) (a : TicketAction) :
    s.accepted env a = [] ∨ ∃ t choice j sh frame, a.action = .run t choice ∧
      (s.state.task t).pc = .consumeTicketLimits j ∧
      consumeTicketLimits env s.state.shared j = some ⟨sh, .done .unit, frame⟩ ∧
      s.accepted env a = [⟨j, s.presented t⟩] := by
  unfold TicketState.accepted
  split
  · next t choice ha =>
    split
    · next j hpc =>
      split
      · next sh frame hlimits => exact .inr ⟨t, choice, j, sh, frame, ha, hpc, hlimits, rfl⟩
      · exact .inl rfl
    · exact .inl rfl
  · exact .inl rfl

/-- The log has no session twice, and all of its sessions were opened by their own tickets. -/
structure Redeemed (s : TicketState) (log : List Acceptance) : Prop where
  once : (log.map (·.session)).Nodup
  opened : ∀ x ∈ log, x.session ∈ s.state.shared.created ∧
    (s.state.shared.inner x.session).ticketConsumed = true
  genuine : ∀ x ∈ log, s.Genuine x.session x.presentation

theorem Redeemed.step (h : Redeemed s log)
    (hstate : s.state.step env a.action = some s'.state) (hissued : s.issued ⊆ s'.issued)
    (hdistinct : (s'.issued.map (·.sessionId)).Nodup) : Redeemed s' log where
  once := h.once
  opened x hx :=
    ⟨(State.step_data hstate (h.opened x hx).1).1,
      State.step_consumed hstate (h.opened x hx).1 (h.opened x hx).2⟩
  genuine x hx := (h.genuine x hx).step (h.opened x hx).1 hstate hissued hdistinct

theorem Redeemed.append (h : Redeemed s log) (hnew : j ∉ log.map (·.session))
    (hj : j ∈ s.state.shared.created) (hconsumed : (s.state.shared.inner j).ticketConsumed = true)
    (hgenuine : s.Genuine j p) : Redeemed s (log ++ [⟨j, p⟩]) where
  once := by
    rw [List.map_append, List.map_singleton]
    exact List.Nodup.append h.once (List.nodup_singleton _) (List.disjoint_singleton.2 hnew)
  opened := List.forall_mem_append.2 ⟨h.opened, List.forall_mem_singleton.2 ⟨hj, hconsumed⟩⟩
  genuine := List.forall_mem_append.2 ⟨h.genuine, List.forall_mem_singleton.2 hgenuine⟩

/-- While a `consume_ticket` has the session locked, nobody has consumed its ticket. -/
theorem unused_of_admitting {s : State} {t : Tid} (h : Reachable env s)
    (hpc : (s.task t).pc = .consumeTicketLimits j) :
    (s.shared.inner j).ticketConsumed = false := by
  refine (locked (Reachable.overview h)).unused t j ?_
  show ((s.task t).pc.role _).checks = some j
  rw [hpc]
  rfl

theorem redeemed (h : RecordedWhen (ticketSystem signer config fromUtf8Lossy)
    (fun s a => s.unforged signer a = true)
    (TicketState.accepted (signer.env config fromUtf8Lossy)) s log) : Redeemed s log := by
  refine h.invariant ⟨List.nodup_nil, nofun, nofun⟩ ?_
  intro s s' a log hr hi hc hs
  have hticketed := ticketed hr
  have hreach := reachable_ticketState hr
  have hnext : Ticketed signer s' := hticketed.step (Reachable.orderly hreach) hc hs
  obtain ⟨hissue, hstate, -⟩ := TicketState.step_inv hs
  have hold := hi.step hstate (TicketState.subset_issue hissue) hnext.distinct
  rcases TicketState.accepted_cases (signer.env config fromUtf8Lossy) s a with
    hnone | ⟨t, choice, j, sh, frame, ha, hpc, hlimits, hone⟩
  · rw [hnone, List.append_nil]
    exact hold
  · rw [hone]
    have hchecked : (s.state.task t).pc.checked = some j := by rw [hpc]; rfl
    have hj : j ∈ s.state.shared.created :=
      (Reachable.orderly hreach).arcs t j
        (List.mem_append_left _ (Pc.mem_arcs_of_checked hchecked))
    have hnew : j ∉ log.map (·.session) := by
      intro hmem
      obtain ⟨x, hx, rfl⟩ := List.mem_map.1 hmem
      exact Bool.false_ne_true ((unused_of_admitting hreach hpc).symm.trans (hi.opened x hx).2)
    have hconsumed : (s'.state.shared.inner j).ticketConsumed = true := by
      have hexec : exec (signer.env config fromUtf8Lossy) t choice s.state.shared
          (s.state.task t).pc = some ⟨sh, .done .unit, frame⟩ := by rw [hpc]; exact hlimits
      rw [ha] at hstate
      have hstate' := Option.some.inj ((State.run_of_exec hexec).symm.trans hstate)
      rw [← hstate']
      exact consumeTicketLimits_ok hlimits
    exact hold.append hnew (State.step_data hstate hj).1 hconsumed
      ((hticketed.checked t j hchecked).step hj hstate (TicketState.subset_issue hissue)
        hnext.distinct)

/-! ### The ticket of the session -/

def Shared.Admits (config : AppConfig) (sh : Shared) (j : Uuid) : Prop :=
  sh.queue.length + sh.limits.pendingActivations < config.queueCapacity ∧
    (sh.limits.byVisitor (sh.data j).visitorId).getD 0 < config.visitorConcurrency ∧
    (sh.limits.byIp (sh.data j).clientIp).getD 0 < config.ipConcurrency

/-- Why a `consume_ticket` that was given the session's own ticket may return an error from `pc`. -/
def Shared.Refuses (config : AppConfig) (sh : Shared) (ticket : IssuedTicket) : Pc → Prop
  | .consumeTicket _ _ => ticket.expiresUnix ≤ sh.unixNow
  | .consumeTicketInner j => (sh.inner j).ticketConsumed = true ∨ (sh.inner j).finished = true
  | .consumeTicketLimits j => ¬ sh.Admits config j
  | _ => False

theorem consumeTicketLimits_admits (env : Env) {sh : Shared} (hadmits : sh.Admits env.config j) :
    ∃ sh', consumeTicketLimits env sh j = some ⟨sh', .done .unit, none⟩ := by
  obtain ⟨hqueue, hvisitor, hip⟩ := hadmits
  simp only [consumeTicketLimits, if_neg (Nat.not_le.2 hqueue), if_neg (Nat.not_le.2 hvisitor),
    if_neg (Nat.not_le.2 hip), goto]
  exact ⟨_, rfl⟩

theorem Ticketed.visitor_own (h : Ticketed signer s) {ticket : IssuedTicket}
    (hmem : ticket ∈ s.issued) (hj : ticket.sessionId ∈ s.state.shared.created) :
    (s.state.shared.data ticket.sessionId).visitorId = ticket.visitorId := by
  obtain ⟨own, hown, hsession, hvisitor⟩ := h.created ticket.sessionId hj
  obtain rfl : own = ticket := List.inj_on_of_nodup_map h.distinct hown hmem hsession
  exact hvisitor.symm

theorem Ticketed.verify_own (h : Ticketed signer s) {ticket : IssuedTicket}
    (hmem : ticket ∈ s.issued) (hj : ticket.sessionId ∈ s.state.shared.created)
    (hnow : now < ticket.expiresUnix) :
    signer.verify ticket.value ticket.sessionId (s.state.shared.data ticket.sessionId).visitorId
      (executionPath ticket.sessionId) now = .ok () := by
  have hissued := h.issued ticket hmem
  rw [h.visitor_own hmem hj, ← hissued.path_eq]
  exact TicketSigner.verify_ok_iff.2 ⟨_, hissued.parse_value, hnow, rfl⟩

/-- A `consume_ticket` that was given the session's own ticket goes on, returns `Ok`, or returns an
error for one of the reasons. -/
theorem Ticketed.consume_own (h : Ticketed signer s) {ticket : IssuedTicket}
    (hmem : ticket ∈ s.issued) (hj : ticket.sessionId ∈ s.state.shared.created)
    (hpc : pc = .consumeTicket ticket.sessionId ticket.value ∨ pc.checked = some ticket.sessionId)
    (he : exec (signer.env config fromUtf8Lossy) t choice s.state.shared pc = some o) :
    o.pc.checked = some ticket.sessionId ∨ o.pc = .done .unit ∨
      s.state.shared.Refuses config ticket pc := by
  rcases hpc with rfl | hchecked
  · rcases Nat.lt_or_ge s.state.shared.unixNow ticket.expiresUnix with hnow | hexpired
    · have hverify := h.verify_own hmem hj hnow
      simp only [exec, consumeTicket, TicketSigner.env, hverify, goto] at he
      cases he
      exact .inl rfl
    · exact .inr (.inr hexpired)
  · cases pc <;> cases hchecked
    case inr.consumeTicketInner.refl =>
      simp only [exec, consumeTicketInner, goto, fail] at he
      repeat' split at he
      all_goals cases he
      · next hconsumed => exact .inr (.inr (.inl hconsumed))
      · next hfinished => exact .inr (.inr (.inr hfinished))
      · exact .inl rfl
    case inr.consumeTicketQueue.refl =>
      simp only [exec, consumeTicketQueue, goto] at he
      split at he <;> cases he
      exact .inl rfl
    case inr.consumeTicketLimits.refl =>
      by_cases hadmits : s.state.shared.Admits config ticket.sessionId
      · obtain ⟨sh', hlimits⟩ := consumeTicketLimits_admits
          (signer.env config fromUtf8Lossy) hadmits
        cases hlimits.symm.trans he
        exact .inr (.inl rfl)
      · exact .inr (.inr hadmits)

def TicketState.advance (s : TicketState) (t : Tid) (sh : Shared) (pc : Pc) : TicketState :=
  ⟨⟨sh, update s.state.task t ⟨pc, (s.state.task t).frames⟩⟩, s.issued,
    s.state.presents s.presented (.run t .go)⟩

@[simp]
theorem TicketState.advance_pc (t : Tid) (sh : Shared) (pc : Pc) :
    ((s.advance t sh pc).state.task t).pc = pc := by
  simp only [TicketState.advance, Function.update_self]

theorem TicketState.advance_presented (t : Tid) (sh : Shared) (pc : Pc) :
    (s.advance t sh pc).presented = s.state.presents s.presented (.run t .go) := rfl

theorem TicketState.record_exec {sh : Shared} (random : Fin 24 → UInt8)
    (hunforged : s.unforged signer ⟨.run t .go, random⟩ = true)
    (he : exec env t .go s.state.shared (s.state.task t).pc = some ⟨sh, pc, none⟩)
    (hrest : executeRecording (guarded (unforged signer) (step signer env)) (accepted env)
      (s.advance t sh pc) rest = some (s', log)) :
    executeRecording (guarded (unforged signer) (step signer env)) (accepted env) s
        (⟨.run t .go, random⟩ :: rest) =
      some (s', s.accepted env ⟨.run t .go, random⟩ ++ log) := by
  have hissue : s.issue signer ⟨.run t .go, random⟩ = some s.issued := rfl
  have hstate : s.state.step env (.run t .go) = _ := State.run_of_exec he
  have hstep : guarded (unforged signer) (step signer env) s ⟨.run t .go, random⟩ =
      some (s.advance t sh pc) := by
    simp only [guarded, hunforged, if_true, TicketState.step, hissue, hstate]
    rfl
  rw [executeRecording, hstep, Option.bind_some, hrest, Option.map_some]

theorem TicketState.unforged_of_checked {t : Tid} (random : Fin 24 → UInt8)
    (h : (s.state.task t).pc.checked = some j) :
    s.unforged signer ⟨.run t .go, random⟩ = true := by
  simp only [TicketState.unforged]
  split
  · next hpc =>
    rw [hpc] at h
    cases h
  · rfl

theorem Ticketed.unforged_own (h : Ticketed signer s) {ticket : IssuedTicket}
    (hmem : ticket ∈ s.issued) (hj : ticket.sessionId ∈ s.state.shared.created) :
    signer.unforged s.issued ticket.value ticket.sessionId
      (s.state.shared.data ticket.sessionId).visitorId (executionPath ticket.sessionId) = true := by
  have hissued := h.issued ticket hmem
  have hsigned : ticket.signed ∈ s.issued.map IssuedTicket.signed := List.mem_map_of_mem hmem
  rw [h.visitor_own hmem hj, ← hissued.path_eq, TicketSigner.unforged, hissued.parse_value]
  exact Bool.or_eq_true_iff.2 (.inr (List.contains_iff_mem.2 hsigned))

section

variable (signer env) {t : Tid} (random : Fin 24 → UInt8)

theorem TicketState.limits_accepts (hpc : (s.state.task t).pc = .consumeTicketLimits j)
    (hadmits : s.state.shared.Admits env.config j) :
    ∃ s', executeRecording (guarded (unforged signer) (step signer env)) (accepted env) s
      [⟨.run t .go, random⟩] = some (s', [⟨j, s.presented t⟩]) := by
  obtain ⟨sh', hlimits⟩ := consumeTicketLimits_admits env hadmits
  have hexec : exec env t .go s.state.shared (s.state.task t).pc =
      some ⟨sh', .done .unit, none⟩ := by
    rw [hpc]
    exact hlimits
  have haccepted : s.accepted env ⟨.run t .go, random⟩ = [⟨j, s.presented t⟩] := by
    simp only [accepted, hpc, hlimits]
  have hrest : executeRecording (guarded (unforged signer) (step signer env)) (accepted env)
      (s.advance t sh' (.done .unit)) [] = some (s.advance t sh' (.done .unit), []) := rfl
  have hrun := record_exec random (unforged_of_checked random (congrArg Pc.checked hpc)) hexec hrest
  rw [haccepted, List.append_nil] at hrun
  exact ⟨_, hrun⟩

theorem TicketState.queue_accepts (hpc : (s.state.task t).pc = .consumeTicketQueue j)
    (hqueue : s.state.shared.queueLock = none) (hadmits : s.state.shared.Admits env.config j) :
    ∃ s', executeRecording (guarded (unforged signer) (step signer env)) (accepted env) s
      (List.replicate 2 ⟨.run t .go, random⟩) = some (s', [⟨j, s.presented t⟩]) := by
  have hexec : exec env t .go s.state.shared (s.state.task t).pc =
      some ⟨{ s.state.shared with queueLock := some t }, .consumeTicketLimits j, none⟩ := by
    simp [hpc, exec, consumeTicketQueue, hqueue, goto]
  have hpresented : s.state.presents s.presented (.run t .go) t = s.presented t :=
    State.presents_of_checked _ (congrArg Pc.checked hpc)
  have haccepted : s.accepted env ⟨.run t .go, random⟩ = [] := by simp only [accepted, hpc]
  obtain ⟨s', hrest⟩ := limits_accepts signer env random
    (advance_pc (s := s) t { s.state.shared with queueLock := some t } (.consumeTicketLimits j))
    hadmits
  have hrun := record_exec random (unforged_of_checked random (congrArg Pc.checked hpc)) hexec hrest
  rw [haccepted, List.nil_append] at hrun
  exact ⟨s', hrun.trans (by rw [advance_presented, hpresented])⟩

theorem TicketState.inner_accepts (hpc : (s.state.task t).pc = .consumeTicketInner j)
    (hunused : (s.state.shared.inner j).ticketConsumed = false)
    (hlive : (s.state.shared.inner j).finished = false)
    (hinner : s.state.shared.innerLock j = none) (hqueue : s.state.shared.queueLock = none)
    (hadmits : s.state.shared.Admits env.config j) :
    ∃ s', executeRecording (guarded (unforged signer) (step signer env)) (accepted env) s
      (List.replicate 3 ⟨.run t .go, random⟩) = some (s', [⟨j, s.presented t⟩]) := by
  have hexec : exec env t .go s.state.shared (s.state.task t).pc =
      some ⟨s.state.shared.setInnerLock j (some t), .consumeTicketQueue j, none⟩ := by
    simp [hpc, exec, consumeTicketInner, hinner, hunused, hlive, goto]
  have hpresented : s.state.presents s.presented (.run t .go) t = s.presented t :=
    State.presents_of_checked _ (congrArg Pc.checked hpc)
  have haccepted : s.accepted env ⟨.run t .go, random⟩ = [] := by simp only [accepted, hpc]
  obtain ⟨s', hrest⟩ := queue_accepts signer env random
    (advance_pc (s := s) t (s.state.shared.setInnerLock j (some t)) (.consumeTicketQueue j))
    hqueue hadmits
  have hrun := record_exec random (unforged_of_checked random (congrArg Pc.checked hpc)) hexec hrest
  rw [haccepted, List.nil_append] at hrun
  exact ⟨s', hrun.trans (by rw [advance_presented, hpresented])⟩

end

/-- Four steps of a `consume_ticket` that nothing stands in the way of. -/
theorem Ticketed.accepts_own {t : Tid} (random : Fin 24 → UInt8) (h : Ticketed signer s)
    {ticket : IssuedTicket}
    (hmem : ticket ∈ s.issued) (hj : ticket.sessionId ∈ s.state.shared.created)
    (hpc : (s.state.task t).pc = .consumeTicket ticket.sessionId ticket.value)
    (hnow : s.state.shared.unixNow < ticket.expiresUnix)
    (hunused : (s.state.shared.inner ticket.sessionId).ticketConsumed = false)
    (hlive : (s.state.shared.inner ticket.sessionId).finished = false)
    (hinner : s.state.shared.innerLock ticket.sessionId = none)
    (hqueue : s.state.shared.queueLock = none)
    (hadmits : s.state.shared.Admits config ticket.sessionId) :
    ∃ s', executeRecording
        (guarded (TicketState.unforged signer)
          (TicketState.step signer (signer.env config fromUtf8Lossy)))
        (TicketState.accepted (signer.env config fromUtf8Lossy)) s
        (List.replicate 4 ⟨.run t .go, random⟩) =
      some (s', [⟨ticket.sessionId, ⟨ticket.value, s.state.shared.unixNow⟩⟩]) := by
  have hunforged : s.unforged signer ⟨.run t .go, random⟩ = true := by
    simp only [TicketState.unforged, hpc]
    exact h.unforged_own hmem hj
  have hexec : exec (signer.env config fromUtf8Lossy) t .go s.state.shared (s.state.task t).pc =
      some ⟨s.state.shared, .consumeTicketInner ticket.sessionId, none⟩ := by
    simp only [hpc, exec, consumeTicket, TicketSigner.env, h.verify_own hmem hj hnow, goto]
  have haccepted : s.accepted (signer.env config fromUtf8Lossy) ⟨.run t .go, random⟩ = [] := by
    simp only [TicketState.accepted, hpc]
  obtain ⟨s', hrest⟩ := TicketState.inner_accepts signer
    (signer.env config fromUtf8Lossy) random
    (TicketState.advance_pc (s := s) t s.state.shared (.consumeTicketInner ticket.sessionId))
    hunused hlive hinner hqueue hadmits
  have hrun := TicketState.record_exec random hunforged hexec hrest
  rw [haccepted, List.nil_append] at hrun
  exact ⟨s', hrun.trans (by rw [TicketState.advance_presented, State.presents_of_verified _ _ hpc])⟩

/-- A ticket opens its own session, once. With an ideal MAC, in every run and for every text that
is presented: no session is in the log of the `Ok`s of `consume_ticket` twice; each was opened by a
text with the nonce and the expiry of the one ticket issued for it, before that expiry; and the
ticket that `create_execution` returned for a session is never refused for another reason than its
expiry, its use, the end of the session and the limits, and opens the session if nothing stands in
the way. -/
theorem ticket_opens_its_session_once
    (h : RecordedWhen (ticketSystem signer config fromUtf8Lossy)
      (fun s a => s.unforged signer a = true)
      (TicketState.accepted (signer.env config fromUtf8Lossy)) s log) :
    (log.map (·.session)).Nodup ∧
    (∀ x ∈ log, s.Genuine x.session x.presentation) ∧
    ∀ ticket ∈ s.issued, ticket.sessionId ∈ s.state.shared.created →
      (∀ t choice o, ((s.state.task t).pc = .consumeTicket ticket.sessionId ticket.value ∨
          (s.state.task t).pc.checked = some ticket.sessionId) →
        exec (signer.env config fromUtf8Lossy) t choice s.state.shared (s.state.task t).pc =
          some o →
        o.pc.checked = some ticket.sessionId ∨ o.pc = .done .unit ∨
          s.state.shared.Refuses config ticket (s.state.task t).pc) ∧
      ∀ t random, (s.state.task t).pc = .consumeTicket ticket.sessionId ticket.value →
        s.state.shared.unixNow < ticket.expiresUnix →
        (s.state.shared.inner ticket.sessionId).ticketConsumed = false →
        (s.state.shared.inner ticket.sessionId).finished = false →
        s.state.shared.innerLock ticket.sessionId = none → s.state.shared.queueLock = none →
        s.state.shared.Admits config ticket.sessionId →
        ∃ s', executeRecording
            (guarded (TicketState.unforged signer)
              (TicketState.step signer (signer.env config fromUtf8Lossy)))
            (TicketState.accepted (signer.env config fromUtf8Lossy)) s
            (List.replicate 4 ⟨.run t .go, random⟩) =
          some (s', [⟨ticket.sessionId, ⟨ticket.value, s.state.shared.unixNow⟩⟩]) := by
  have hredeemed := redeemed h
  have hticketed := ticketed h.reachable
  refine ⟨hredeemed.once, hredeemed.genuine, fun ticket hmem hj => ⟨?_, ?_⟩⟩
  · intro t choice o hpc he
    exact hticketed.consume_own hmem hj hpc he
  · intro t random hpc hnow hunused hlive hinner hqueue hadmits
    exact hticketed.accepts_own random hmem hj hpc hnow hunused hlive hinner hqueue hadmits

end

def TicketSigner.forTest : TicketSigner := ⟨Encodings.tag⟩

def ticketFor (visitorId : String) : String :=
  (TicketSigner.forTest.issue 7 visitorId (executionPath 7) 30 fun _ => 0).value

/-- A visitor id with a line feed. The ticket that another visitor would have got is refused; their
own is presented twice and opens the session once. -/
theorem visitor_with_line_feed_is_admitted_once :
    ∃ s log, RecordedWhen (ticketSystem .forTest .forTest fun _ => "")
        (fun s a => s.unforged .forTest a = true)
        (TicketState.accepted (TicketSigner.forTest.env .forTest fun _ => "")) s log ∧
      log = [⟨7, ⟨ticketFor "a\nb", 0⟩⟩] ∧ s.Genuine 7 ⟨ticketFor "a\nb", 0⟩ := by
  obtain ⟨s, log, hrun, hlog⟩ := Transition.recordedWhen_of_execute
    (f := TicketState.step .forTest (TicketSigner.forTest.env .forTest fun _ => "")) (i := .new)
    (c := TicketState.unforged .forTest)
    (TicketState.accepted (TicketSigner.forTest.env .forTest fun _ => ""))
    ((Schedule.create 0 7 "a\nb" "ip" ++
      .start 1 (.consumeTicket 7 (ticketFor "a")) :: Schedule.go 1 1 ++
      .start 2 (.consumeTicket 7 (ticketFor "a\nb")) :: Schedule.go 2 4 ++
      .start 3 (.consumeTicket 7 (ticketFor "a\nb")) :: Schedule.go 3 2).map
        fun a => ⟨a, fun _ => 0⟩)
    (p := fun _ log => log = [⟨7, ⟨ticketFor "a\nb", 0⟩⟩])
    (by decide +kernel)
  have hlog := of_decide_eq_true hlog
  have hgenuine := (ticket_opens_its_session_once hrun).2.1 _ (hlog ▸ List.mem_singleton_self _)
  exact ⟨s, log, hrun, hlog, hgenuine⟩

end SmartC.Executor
