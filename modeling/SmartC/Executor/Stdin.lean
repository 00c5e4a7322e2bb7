import SmartC.Counting
import SmartC.Executor.Calls
import SmartC.Executor.Traffic
import SmartC.Executor.Writes

/-!
# The budget of stdin

`send_stdin` adds the size of a frame to the session's `stdin_bytes` before it
calls `send_command`, which may still fail. A frame is `charged` from then on
until it is put into the worker's channel. If that fails, its size is lost: it
is counted and nobody takes it back.
-/

namespace SmartC.Executor

open Function (update)
open Transition (RecordedWhen)

def stdinFrameLimitBytes : Nat := 8 * 1024
def stdinLimitBytes : Nat := 64 * 1024

def stdinTotal (j : Uuid) (frames : List (Uuid × Bytes)) : Nat :=
  ((frames.filter fun frame => frame.1 = j).map fun frame => frame.2.length).sum

/-- The frame that is counted and not in a channel yet. -/
def Pc.charged : Pc → Option (Uuid × Bytes)
  | .sendCommand j (.stdin data) | .sendCommandWorker j (.stdin data) _
  | .sendCommandSend j (.stdin data) _ _ => some (j, data)
  | _ => none

def Pc.stdinCall : Pc → Option (Uuid × Bytes)
  | .sendStdin j data => some (j, data)
  | pc => pc.charged

def Pc.charge (j : Uuid) (pc : Pc) : Nat := stdinTotal j pc.charged.toList

def Pc.enqueues (sh : Shared) : Pc → List (Uuid × Bytes)
  | .sendCommandSend j (.stdin data) _ c =>
    match (sh.channel c).trySend (.command ⟨j, some (.stdin data)⟩) with
    | .ok _ => [(j, data)]
    | .error _ => []
  | _ => []

/-- `send_command` finds a worker for the session, the worker's sender, and room in the channel,
if it is for a stdin frame. -/
def Pc.delivers (sh : Shared) : Pc → Bool
  | .sendCommand j (.stdin _) => (sh.inner j).assignedWorker.isSome
  | .sendCommandWorker _ (.stdin _) w => (sh.workers.lookup w).isSome
  | .sendCommandSend j (.stdin data) w c =>
    !(Pc.enqueues sh (.sendCommandSend j (.stdin data) w c)).isEmpty
  | _ => true

def enqueuedStdin (s : State) : Action → List (Uuid × Bytes)
  | .run t _ => (s.task t).pc.enqueues s.shared
  | _ => []

def State.delivers (s : State) : Action → Bool
  | .run t _ => (s.task t).pc.delivers s.shared
  | _ => true

/-- The bytes of session `j` that the next step leaves counted and does not enqueue. -/
def Pc.loses (sh : Shared) (pc : Pc) (j : Uuid) : Nat :=
  if pc.delivers sh then 0 else pc.charge j

def lostStdin (s : State) : Action → Uuid → Nat
  | .run t _ => (s.task t).pc.loses s.shared
  | _ => fun _ => 0

/-- `send_command` does not fail for a stdin frame, unless the frame is empty. -/
def State.losesNothing (s : State) : Action → Bool
  | .run t _ => (s.task t).pc.delivers s.shared || (s.task t).pc.charged.all (·.2.isEmpty)
  | _ => true

theorem stdinTotal_append (j : Uuid) (frames more : List (Uuid × Bytes)) :
    stdinTotal j (frames ++ more) = stdinTotal j frames + stdinTotal j more := by
  simp [stdinTotal]

/-! ### One step -/

inductive StdinStep (sh : Shared) (j : Uuid) (data : Bytes) : Pc → Outcome → Prop
  | refused {e} : StdinStep sh j data (.sendStdin j data) ⟨sh, .done (.apiError e), none⟩
  | counted (short : data.length ≤ stdinFrameLimitBytes)
      (fits : (sh.inner j).stdinBytes + data.length ≤ stdinLimitBytes) :
      StdinStep sh j data (.sendStdin j data)
        ⟨sh.setInner j { sh.inner j with stdinBytes := (sh.inner j).stdinBytes + data.length },
          .sendCommand j (.stdin data), none⟩
  | named {w} (worker : (sh.inner j).assignedWorker = some w) :
      StdinStep sh j data (.sendCommand j (.stdin data))
        ⟨sh, .sendCommandWorker j (.stdin data) w, none⟩
  | found {w h} (worker : sh.workers.lookup w = some h) :
      StdinStep sh j data (.sendCommandWorker j (.stdin data) w)
        ⟨sh, .sendCommandSend j (.stdin data) w h.connectionId, none⟩
  | sent {w c ch} (sent : (sh.channel c).trySend (.command ⟨j, some (.stdin data)⟩) = .ok ch) :
      StdinStep sh j data (.sendCommandSend j (.stdin data) w c)
        ⟨sh.setChannel c ch, .done .unit, none⟩
  | undelivered {pc o} (charged : pc.charged = some (j, data)) (fails : pc.delivers sh = false)
      (shared : o.shared = sh) (later : o.pc.charged = none) : StdinStep sh j data pc o

section

variable {env : Env} {t : Tid} {choice : Choice} {sh : Shared} {pc : Pc} {o : Outcome} {j k : Uuid}
  {data : Bytes}

theorem saturatingAdd_eq {a b limit : Nat} (hlimit : limit < 2 ^ 64 - 1)
    (h : saturatingAdd a b ≤ limit) : saturatingAdd a b = a + b := by
  rw [saturatingAdd] at h ⊢
  omega

theorem sendStdin_step (h : sendStdin sh j data = some o) :
    StdinStep sh j data (.sendStdin j data) o := by
  simp only [sendStdin, goto, fail] at h
  split at h
  · cases h; exact .refused
  next hframe =>
  split at h
  · cases h
  split at h
  · cases h; exact .refused
  split at h
  · cases h; exact .refused
  next hlimit =>
  have hexact := saturatingAdd_eq (by decide) (Nat.le_of_not_lt hlimit)
  rw [hexact] at hlimit h
  cases h
  exact .counted (Nat.le_of_not_lt hframe) (Nat.le_of_not_lt hlimit)

theorem exec_stdin (h : exec env t choice sh pc = some o)
    (hcall : pc.stdinCall = some (j, data)) : StdinStep sh j data pc o := by
  unfold Pc.stdinCall at hcall
  split at hcall
  · cases hcall
    exact sendStdin_step h
  unfold Pc.charged at hcall
  split at hcall
  · cases hcall
    simp only [exec, sendCommand, goto, fail] at h
    split at h
    · cases h
    split at h
    · next hnone =>
      cases h
      exact .undelivered rfl (by simp [Pc.delivers, hnone]) rfl rfl
    · next hw =>
      cases h
      exact .named hw
  · cases hcall
    simp only [exec, sendCommandWorker, goto, fail] at h
    split at h
    · next hnone =>
      cases h
      exact .undelivered rfl (by simp [Pc.delivers, hnone]) rfl rfl
    · next hw =>
      cases h
      exact .found hw
  · cases hcall
    simp only [exec, sendCommandSend, goto, fail, call] at h
    split at h
    · next hsent =>
      cases h
      exact .sent hsent
    · next hfull =>
      cases h
      exact .undelivered rfl (by simp [Pc.delivers, Pc.enqueues, hfull]) rfl rfl
    · next hclosed =>
      cases h
      exact .undelivered rfl (by simp [Pc.delivers, Pc.enqueues, hclosed]) rfl rfl
  · cases hcall

theorem charged_of_stdinCall (h : pc.stdinCall = none) : pc.charged = none := by
  cases pc <;> first | exact h | rfl

theorem mem_arcs_of_stdinCall (h : pc.stdinCall = some (j, data)) : j ∈ pc.arcs := by
  unfold Pc.stdinCall at h
  split at h
  · cases h
    exact List.mem_singleton_self j
  unfold Pc.charged at h
  split at h
  · cases h
    exact List.mem_singleton_self j
  · cases h
    exact List.mem_singleton_self j
  · cases h
    exact List.mem_singleton_self j
  · cases h

theorem charged_of_intake (h : pc.intake = false) : pc.charged = none := by
  cases pc <;> first | rfl | cases h

theorem exec_charged_of_stdinCall (h : exec env t choice sh pc = some o)
    (hpc : pc.stdinCall = none) : o.pc.charged = none := by
  cases exec_intake h with
  | other accepted later => exact charged_of_intake later
  | stdin => cases hpc
  | @named j action w =>
    cases action with
    | stdin data => cases hpc
    | _ => rfl
  | @found j action w c =>
    cases action with
    | stdin data => cases hpc
    | _ => rfl
  | _ => rfl

theorem exec_stdinBytes (h : exec env t choice sh pc = some o) (hpc : pc.stdinCall = none) :
    (o.shared.inner k).stdinBytes = (sh.inner k).stdinBytes ∨
      k ∉ sh.created ∧ (o.shared.inner k).stdinBytes = 0 := by
  cases exec_writes h with
  | nothing inner => exact .inl (by rw [inner])
  | @one j i inner write =>
    left
    have hkept : i.stdinBytes = (sh.inner j).stdinBytes := by
      cases write with
      | stdin => cases hpc
      | _ => rfl
    rw [inner]
    by_cases hk : k = j
    · rw [hk, Function.update_self, hkept]
    · rw [Function.update_of_ne hk]
  | @new j fresh inner =>
    rw [inner]
    by_cases hk : k = j
    · subst hk
      exact .inr ⟨fresh, by rw [Function.update_self]; rfl⟩
    · exact .inl (by rw [Function.update_of_ne hk])

theorem enqueues_of_charged (h : pc.charged = none) : pc.enqueues sh = [] := by
  unfold Pc.enqueues
  split
  · cases h
  · rfl

theorem charged_of_enqueues {frame : Uuid × Bytes} (h : frame ∈ pc.enqueues sh) :
    pc.charged = some frame := by
  unfold Pc.enqueues at h
  split at h
  · split at h
    · rw [List.mem_singleton] at h
      rw [h]
      rfl
    · cases h
  · cases h

theorem enqueues_of_undelivered (h : pc.delivers sh = false) : pc.enqueues sh = [] := by
  unfold Pc.delivers at h
  split at h
  · rfl
  · rfl
  · exact List.isEmpty_iff.1 (by simpa using h)
  · cases h

theorem StdinStep.stdinBytes (h : StdinStep sh j data pc o) :
    (o.shared.inner k).stdinBytes = (sh.inner k).stdinBytes ∨
      k = j ∧ (o.shared.inner k).stdinBytes ≤ stdinLimitBytes := by
  cases h with
  | counted short fits =>
    by_cases hk : k = j
    · subst hk
      exact .inr ⟨rfl, by simpa [Shared.setInner] using fits⟩
    · exact .inl (by simp [Shared.setInner, hk])
  | undelivered charged fails shared => exact .inl (by rw [shared])
  | _ => exact .inl rfl

theorem StdinStep.balance (h : StdinStep sh j data pc o) :
    (o.shared.inner k).stdinBytes + pc.charge k = (sh.inner k).stdinBytes + o.pc.charge k +
      stdinTotal k (pc.enqueues sh) + pc.loses sh k := by
  cases h with
  | refused => rfl
  | counted =>
    by_cases hk : k = j
    · subst hk
      simp [Shared.setInner, Pc.charge, Pc.charged, Pc.enqueues, Pc.loses, Pc.delivers, stdinTotal]
    · simp [Shared.setInner, Pc.charge, Pc.charged, Pc.enqueues, Pc.loses, Pc.delivers, stdinTotal,
        hk, Ne.symm hk]
  | named worker | found worker =>
    simp [Pc.loses, Pc.delivers, Pc.charge, Pc.charged, Pc.enqueues, worker, stdinTotal]
  | sent sent =>
    simp [Pc.loses, Pc.delivers, Pc.charge, Pc.charged, Pc.enqueues, sent, Shared.setChannel,
      stdinTotal]
  | undelivered charged fails shared later =>
    rw [shared, Pc.loses, fails, if_neg Bool.false_ne_true, enqueues_of_undelivered fails]
    simp [Pc.charge, later, stdinTotal]

theorem delivers_of_charged (h : pc.charged = none) : pc.delivers sh = true := by
  unfold Pc.delivers
  split
  · cases h
  · cases h
  · cases h
  · rfl

/-- What is counted is what is in the channels, on its way there, or lost. -/
theorem exec_balance (h : exec env t choice sh pc = some o)
    (hnew : k ∉ sh.created → (sh.inner k).stdinBytes = 0) :
    (o.shared.inner k).stdinBytes + pc.charge k = (sh.inner k).stdinBytes + o.pc.charge k +
      stdinTotal k (pc.enqueues sh) + pc.loses sh k := by
  cases hcall : pc.stdinCall with
  | some call => exact (exec_stdin h hcall).balance
  | none =>
    have hbytes : (o.shared.inner k).stdinBytes = (sh.inner k).stdinBytes := by
      obtain hsame | ⟨hfresh, hzero⟩ := exec_stdinBytes (k := k) h hcall
      · exact hsame
      · rw [hzero, hnew hfresh]
    have hcharged := charged_of_stdinCall hcall
    rw [hbytes, enqueues_of_charged hcharged, Pc.loses, delivers_of_charged hcharged, Pc.charge,
      Pc.charge, hcharged, exec_charged_of_stdinCall h hcall]
    rfl

theorem loses_eq_zero (h : pc.delivers sh = true ∨ pc.charged.all (·.2.isEmpty) = true) :
    pc.loses sh k = 0 := by
  rw [Pc.loses]
  split
  · rfl
  · next hfails =>
    have hempty := h.resolve_left hfails
    unfold Pc.charge
    generalize pc.charged = charged at hempty
    cases charged with
    | none => rfl
    | some frame =>
      have hdata : frame.2 = [] := List.isEmpty_iff.1 hempty
      by_cases hk : frame.1 = k <;> simp [stdinTotal, hk, hdata]

theorem lostStdin_eq_zero {s : State} {a : Action} (h : s.losesNothing a = true) :
    lostStdin s a k = 0 := by
  cases a with
  | run t choice => exact loses_eq_zero (Bool.or_eq_true_iff.1 h)
  | _ => rfl

end

/-! ### Runs -/

/-- The account of stdin at some point of a run, after the frames in `log` were enqueued and the
bytes `lost` were counted for nothing. -/
structure StdinAccount (s : State) (log : List (Uuid × Bytes)) (lost : Uuid → Nat) : Prop where
  balance : ∀ j, ∃ charged, SumsTo (fun t => (s.task t).pc.charge j) charged ∧
    (s.shared.inner j).stdinBytes = stdinTotal j log + charged + lost j
  new : ∀ j ∉ s.shared.created, (s.shared.inner j).stdinBytes = 0
  limit : ∀ j, (s.shared.inner j).stdinBytes ≤ stdinLimitBytes
  short : ∀ t frame, (s.task t).pc.charged = some frame → frame.2.length ≤ stdinFrameLimitBytes
  frames : ∀ frame ∈ log, frame.2.length ≤ stdinFrameLimitBytes

section

variable {env : Env} {s s' : State} {a : Action} {log : List (Uuid × Bytes)} {t : Tid}
  {choice : Choice} {o : Outcome} {lost : Uuid → Nat}

theorem StdinAccount.init : StdinAccount .new [] (fun _ => 0) where
  balance j := by
    refine ⟨0, SumsTo.zero fun t => ?_, rfl⟩
    cases t <;> rfl
  new _ _ := rfl
  limit _ := Nat.zero_le _
  short t frame h := by cases t <;> cases h
  frames _ h := absurd h List.not_mem_nil

theorem StdinAccount.replace (h : StdinAccount s log lost) {sh : Shared} {task : Task}
    {more : List (Uuid × Bytes)} {loss : Uuid → Nat}
    (hbalance : ∀ j, (sh.inner j).stdinBytes + (s.task t).pc.charge j =
      (s.shared.inner j).stdinBytes + task.pc.charge j + stdinTotal j more + loss j)
    (hnew : ∀ j ∉ sh.created, (sh.inner j).stdinBytes = 0)
    (hlimit : ∀ j, (sh.inner j).stdinBytes ≤ stdinLimitBytes)
    (hshort : ∀ frame, task.pc.charged = some frame → frame.2.length ≤ stdinFrameLimitBytes)
    (hmore : ∀ frame ∈ more, (s.task t).pc.charged = some frame) :
    StdinAccount ⟨sh, update s.task t task⟩ (log ++ more) (fun j => lost j + loss j) where
  balance j := by
    obtain ⟨charged, hsum, hbytes⟩ := h.balance j
    have hj := hbalance j
    have hle : stdinTotal j log + stdinTotal j more + (lost j + loss j) ≤
        (sh.inner j).stdinBytes := by
      have hat := hsum.le t
      omega
    refine ⟨(sh.inner j).stdinBytes - (stdinTotal j log + stdinTotal j more + (lost j + loss j)),
      ?_, ?_⟩
    · show SumsTo ((fun task : Task => task.pc.charge j) ∘ update s.task t task) _
      rw [Function.comp_update]
      exact hsum.update (by omega)
    · show (sh.inner j).stdinBytes = _
      rw [stdinTotal_append]
      omega
  new := hnew
  limit := hlimit
  short u frame hframe := by
    by_cases hu : u = t
    · subst hu
      refine hshort frame ?_
      simpa using hframe
    · refine h.short u frame ?_
      simpa [hu] using hframe
  frames := List.forall_mem_append.2
    ⟨h.frames, fun frame hframe => h.short t frame (hmore frame hframe)⟩

theorem StdinAccount.setTask (h : StdinAccount s log lost) {task : Task}
    (hbefore : (s.task t).pc.charged = none) (hafter : task.pc.charged = none) :
    StdinAccount (s.setTask t task) log lost := by
  have hbalance : ∀ j, (s.shared.inner j).stdinBytes + (s.task t).pc.charge j =
      (s.shared.inner j).stdinBytes + task.pc.charge j + stdinTotal j [] + 0 := by
    intro j
    rw [Pc.charge, Pc.charge, hbefore, hafter]
    rfl
  have hshort : ∀ frame, task.pc.charged = some frame →
      frame.2.length ≤ stdinFrameLimitBytes := by
    intro frame hframe
    rw [hafter] at hframe
    cases hframe
  have hnext := h.replace hbalance h.new h.limit hshort nofun
  rwa [List.append_nil] at hnext

theorem exec_short (he : exec env t choice s.shared (s.task t).pc = some o)
    (h : StdinAccount s log lost) :
    ∀ frame, o.pc.charged = some frame → frame.2.length ≤ stdinFrameLimitBytes := by
  intro frame hframe
  cases hcall : (s.task t).pc.stdinCall with
  | none =>
    rw [exec_charged_of_stdinCall he hcall] at hframe
    cases hframe
  | some call =>
    have hstep := exec_stdin he hcall
    generalize hpc : (s.task t).pc = pc at hstep
    cases hstep with
    | refused => cases hframe
    | counted short fits =>
      cases hframe
      exact short
    | named =>
      cases hframe
      exact h.short t _ (by rw [hpc]; rfl)
    | found =>
      cases hframe
      exact h.short t _ (by rw [hpc]; rfl)
    | sent => cases hframe
    | undelivered charged fails shared later => cases later.symm.trans hframe

theorem StdinAccount.exec (h : StdinAccount s log lost) (ho : Orderly s)
    (he : exec env t choice s.shared (s.task t).pc = some o) :
    StdinAccount ⟨o.shared, update s.task t ⟨o.pc, o.frame.toList ++ (s.task t).frames⟩⟩
      (log ++ (s.task t).pc.enqueues s.shared)
      (fun j => lost j + (s.task t).pc.loses s.shared j) := by
  have hcreated := (exec_continues he).created
  -- A session that is counted for is one that exists.
  have hbytes : ∀ j, (o.shared.inner j).stdinBytes = (s.shared.inner j).stdinBytes ∨
      j ∉ s.shared.created ∧ (o.shared.inner j).stdinBytes = 0 ∨
      j ∈ s.shared.created ∧ (o.shared.inner j).stdinBytes ≤ stdinLimitBytes := by
    intro j
    cases hcall : (s.task t).pc.stdinCall with
    | none => exact (exec_stdinBytes he hcall).imp_right .inl
    | some call =>
      obtain hsame | ⟨rfl, hle⟩ := (exec_stdin he hcall).stdinBytes (k := j)
      · exact .inl hsame
      · exact .inr (.inr ⟨ho.arcs t _ (List.mem_append_left _ (mem_arcs_of_stdinCall hcall)), hle⟩)
  refine h.replace (fun j => exec_balance he (h.new j)) ?_ ?_ (exec_short he h)
    (fun frame => charged_of_enqueues)
  · intro j hj
    have hold : j ∉ s.shared.created := fun hmem => hj (hcreated hmem)
    obtain hsame | ⟨_, hzero⟩ | ⟨hmem, _⟩ := hbytes j
    · rw [hsame, h.new j hold]
    · exact hzero
    · exact absurd hmem hold
  · intro j
    obtain hsame | ⟨_, hzero⟩ | ⟨_, hle⟩ := hbytes j
    · exact hsame ▸ h.limit j
    · exact hzero ▸ Nat.zero_le _
    · exact hle

theorem StdinAccount.run (h : StdinAccount s log lost) (ho : Orderly s)
    (hs : s.run env t choice = some s') :
    StdinAccount s' (log ++ (s.task t).pc.enqueues s.shared)
      (fun j => lost j + (s.task t).pc.loses s.shared j) := by
  obtain ⟨r, f, frames, hat, rfl⟩ | ⟨o, he, rfl⟩ := State.run_cases hs
  · have hbefore : (s.task t).pc.charged = none := by rw [hat]; rfl
    simp only [enqueues_of_charged hbefore, List.append_nil, Pc.loses,
      delivers_of_charged hbefore, if_true, Nat.add_zero]
    exact h.setTask hbefore (charged_of_intake (Frame.resume_intake r f))
  · exact h.exec ho he

theorem StdinAccount.outside (h : StdinAccount s log lost) {sh : Shared}
    (hinner : sh.inner = s.shared.inner) (hcreated : sh.created = s.shared.created) :
    StdinAccount { s with shared := sh } (log ++ []) (fun j => lost j + 0) := by
  rw [List.append_nil]
  exact ⟨fun j => hinner ▸ h.balance j, hcreated ▸ hinner ▸ h.new, hinner ▸ h.limit, h.short,
    h.frames⟩

theorem StdinAccount.step (h : StdinAccount s log lost) (ho : Orderly s)
    (hs : s.step env a = some s') :
    StdinAccount s' (log ++ enqueuedStdin s a) (fun j => lost j + lostStdin s a j) := by
  cases a with
  | start n op =>
    have hcase : StepCase env s (.start n op) s' := State.start_case hs
    cases hcase with
    | start vacant known =>
      have hstarted : op.start.pc.charged = none := by cases op <;> rfl
      have hnext := h.setTask (by rw [vacant]; rfl) hstarted
      exact (List.append_nil log).symm ▸ hnext
    | outside ho => cases ho <;> exact h.outside rfl rfl
  | run t choice => exact h.run ho hs
  | tick d =>
    cases hs
    exact h.outside rfl rfl
  | setClock unix =>
    cases hs
    exact h.outside rfl rfl
  | take c =>
    obtain ⟨ch, _, rfl⟩ := Option.map_eq_some_iff.1 hs
    exact h.outside rfl rfl
  | hangUp c =>
    cases hs
    exact h.outside rfl rfl

/-- Runs with the frames that `send_command` enqueues. -/
abbrev StdinRun (env : Env) (C : State → Action → Prop) : State → List (Uuid × Bytes) → Prop :=
  RecordedWhen (system env) C enqueuedStdin

theorem StdinRun.account {C : State → Action → Prop} (h : StdinRun env C s log) :
    ∃ lost, StdinAccount s log lost :=
  h.invariant (I := fun s log => ∃ lost, StdinAccount s log lost) ⟨_, .init⟩
    fun hr ⟨_, hinv⟩ _ hs => ⟨_, hinv.step (Reachable.orderly hr.reachable) hs⟩

theorem StdinRun.account_exact (h : StdinRun env (fun s a => s.losesNothing a = true) s log) :
    StdinAccount s log fun _ => 0 :=
  h.invariant (I := fun s log => StdinAccount s log fun _ => 0) .init fun hr hinv hkept hs => by
    have hnext := hinv.step (Reachable.orderly hr.reachable) hs
    simpa only [lostStdin_eq_zero hkept] using hnext

theorem refused_call {j : Uuid} {data : Bytes} {e : ApiError}
    (hcall : (s.task t).pc.stdinCall = some (j, data)) (hd : s.delivers (.run t choice) = true)
    (hs : s.step env (.run t choice) = some s') (hdone : (s'.task t).pc = .done (.apiError e)) :
    (s.task t).pc = .sendStdin j data ∧ s'.shared = s.shared := by
  obtain ⟨r, f, frames, hat, rfl⟩ | ⟨o, he, rfl⟩ := State.run_cases hs
  · rw [hat] at hcall
    cases hcall
  · have hpc : o.pc = .done (.apiError e) := by simpa using hdone
    have hd : (s.task t).pc.delivers s.shared = true := hd
    have hstep := exec_stdin he hcall
    generalize (s.task t).pc = pc at hstep hd
    cases hstep with
    | refused => exact ⟨rfl, rfl⟩
    | undelivered charged fails => cases fails.symm.trans hd
    | _ => cases hpc

/-- In every run the enqueued frames keep to their limits. A call of `send_stdin` whose command
does not fail returns an error only at once and changes nothing; if only empty frames fail, the
count is what was enqueued and what is on its way. -/
theorem failed_stdin_costs_nothing (h : StdinRun env (fun _ _ => True) s log) :
    (∀ frame ∈ log, frame.2.length ≤ stdinFrameLimitBytes) ∧
    (∀ j, stdinTotal j log ≤ stdinLimitBytes) ∧
    (∀ t choice s' j data e, (s.task t).pc.stdinCall = some (j, data) →
      s.delivers (.run t choice) = true → s.step env (.run t choice) = some s' →
      (s'.task t).pc = .done (.apiError e) →
      (s.task t).pc = .sendStdin j data ∧ s'.shared = s.shared) ∧
    (StdinRun env (fun s a => s.losesNothing a = true) s log →
      (∀ j, ∃ charged, SumsTo (fun t => (s.task t).pc.charge j) charged ∧
        (s.shared.inner j).stdinBytes = stdinTotal j log + charged) ∧
      ∀ j, (∀ t, (s.task t).pc.charge j = 0) →
        (s.shared.inner j).stdinBytes = stdinTotal j log) := by
  obtain ⟨lost, haccount⟩ := h.account
  refine ⟨haccount.frames, fun j => ?_, fun t choice s' j data e => refused_call, fun hkept => ?_⟩
  · obtain ⟨charged, _, hbytes⟩ := haccount.balance j
    have hlimit := haccount.limit j
    omega
  · have hbalance := hkept.account_exact.balance
    refine ⟨hbalance, fun j hidle => ?_⟩
    obtain ⟨charged, hsum, hbytes⟩ := hbalance j
    rw [hbytes, hsum.eq_zero hidle, Nat.add_zero]

end

def Pc.returned : Pc → Option Ret
  | .done r => some r
  | _ => none

def backpressure : ApiError :=
  .tooManyRequests "execution_command_backpressure" "端末への入力頻度が高すぎます"

def Schedule.stdin (n : Nat) (j : Uuid) (data : Bytes) : List Action :=
  .start n (.sendStdin j data) :: go n 4

def Schedule.running (w : String) (c j : Uuid) : List Action :=
  register 0 w c ++ submit 1 [j] ++ assign w ++ .take c :: phase 0 w j 2 ++ phase 0 w j 4

/-- Two frames are delivered, and the worker of a third, empty one is gone. -/
theorem two_frames_are_counted :
    ∃ s log, StdinRun .forTest (fun s a => s.losesNothing a = true) s log ∧
      log = [(7, [1, 2]), (7, [3])] ∧ (s.shared.inner 7).stdinBytes = 3 ∧
      stdinTotal 7 log ≤ stdinLimitBytes ∧
      ∃ charged, (s.shared.inner 7).stdinBytes = stdinTotal 7 log + charged := by
  obtain ⟨s, log, hs, hp⟩ := Transition.recordedWhen_of_execute (f := State.step .forTest)
    (i := .new) (c := State.losesNothing) enqueuedStdin
    (Schedule.running "w" 100 7 ++ Schedule.stdin 8 7 [1, 2] ++ Schedule.stdin 9 7 [3] ++
      [.hangUp 100] ++ Schedule.stdin 10 7 [])
    (p := fun s log => log = [(7, [1, 2]), (7, [3])] ∧ (s.shared.inner 7).stdinBytes = 3)
    (by decide +kernel)
  obtain ⟨hlog, hbytes⟩ := of_decide_eq_true hp
  obtain ⟨-, htotal, -, hexact⟩ := failed_stdin_costs_nothing (hs.weaken fun _ _ _ => trivial)
  obtain ⟨charged, -, hcharged⟩ := (hexact hs).1 7
  exact ⟨s, log, hs, hlog, hbytes, htotal 7, charged, hcharged⟩

/-- The worker does not read its commands. The channel holds 64 of them; the frame after that is
refused for the channel, and counted. -/
theorem refused_frame_is_counted :
    ∃ s log, StdinRun .forTest (fun _ _ => True) s log ∧
      (s.task (.task 99)).pc.returned = some (.apiError backpressure) ∧
      stdinTotal 7 log = 64 ∧ (s.shared.inner 7).stdinBytes = 65 := by
  obtain ⟨s, log, hs, hp⟩ := Transition.recordedWhen_of_execute (f := State.step .forTest)
    (i := .new) (c := fun _ _ => true) enqueuedStdin
    (Schedule.running "w" 100 7 ++ (List.range 64).flatMap (fun i => Schedule.stdin (i + 8) 7 [1]) ++
      Schedule.stdin 99 7 [1])
    (p := fun s log => (s.task (.task 99)).pc.returned = some (.apiError backpressure) ∧
      stdinTotal 7 log = 64 ∧ (s.shared.inner 7).stdinBytes = 65)
    (by decide +kernel)
  exact ⟨s, log, hs.weaken fun _ _ _ => trivial, of_decide_eq_true hp⟩

end SmartC.Executor
