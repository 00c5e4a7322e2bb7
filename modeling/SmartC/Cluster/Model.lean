import SmartC.Executor.Traffic
import SmartC.Worker.Client

/-!
# The API and its workers

The composed system: executor-api, and for every connection one `connect_once`
of a worker. The two streams of a connection are lossless and FIFO and delay
every message as long as they like. A worker is registered by the call of the
gRPC handler and connects when the handler has answered; from then on the API
hears of the worker only what the worker has enqueued.
-/

namespace SmartC

open Function (update)

structure Cluster where
  api : Executor.State
  client : Uuid → Worker.Client

namespace Cluster

open Executor (Tid Op)
open Worker (Client ClientAction WorkerConfig)

def new : Cluster := ⟨.new, fun _ => .new⟩

inductive Action
  /-- A step of executor-api. -/
  | api (a : Executor.Action)
  /-- The answer of the handler with task `t` reaches the worker. -/
  | connect (t : Tid)
  /-- The stream takes a message out of the channel of connection `c` and to the worker. -/
  | transport (c : Uuid)
  /-- A step of the worker on connection `c`. -/
  | client (c : Uuid) (a : ClientAction)

/-- The operations that other parts of executor-api call; those of the gRPC handler are called
by the handler only. -/
def fromOutside : Op → Bool
  | .registerWorker .. | .heartbeat .. | .handleWorkerEvent .. | .unregisterWorker .. => false
  | _ => true

/-- The message that a step of the API takes from the worker of a connection. -/
def delivery (s : Cluster) : Executor.Action → Option (Uuid × WorkerMessage)
  | .run t (.inbound (some m)) =>
    match (s.api.task t).pc with
    | .processWorkerStream _ c => some (c, m)
    | _ => none
  | _ => none

/-- Whether a step of the API fits the workers: it takes the next message of a worker, its
operations are called as they are in the program, and the receiver of a channel is dropped
when the worker has left its loop. -/
def admits (s : Cluster) (a : Executor.Action) : Bool :=
  match a, s.delivery a with
  | .start _ op, _ => fromOutside op
  | .take _, _ => false
  | .hangUp c, _ =>
    match (s.client c).loop with
    | .ended _ => true
    | _ => false
  | _, some (c, m) => (s.client c).emitted[(s.client c).delivered]? = some m
  | _, none => true

def setClient (s : Cluster) (c : Uuid) (k : Client) : Cluster :=
  { s with client := update s.client c k }

def delivered (s : Cluster) (a : Executor.Action) : Uuid → Client :=
  match s.delivery a with
  | none => s.client
  | some (c, _) => update s.client c { s.client c with delivered := (s.client c).delivered + 1 }

def connect (s : Cluster) (t : Tid) : Option Cluster :=
  match (s.api.task t).pc with
  | .processWorkerStream w c =>
    match (s.client c).loop with
    | .unconnected => some (s.setClient c { s.client c with workerId := w, loop := .select })
    | _ => none
  | _ => none

def transport (env : Executor.Env) (s : Cluster) (c : Uuid) : Option Cluster :=
  match (s.api.shared.channel c).sent[(s.api.shared.channel c).taken]? with
  | none => none
  | some m =>
    (s.api.step env (.take c)).map fun api =>
      { s with api := api }.setClient c
        { s.client c with inbound := (s.client c).inbound ++ [m] }

def step (env : Executor.Env) (config : WorkerConfig) (s : Cluster) : Action → Option Cluster
  | .api a =>
    if s.admits a then (s.api.step env a).map fun api => ⟨api, s.delivered a⟩ else none
  | .connect t => s.connect t
  | .transport c => s.transport env c
  | .client c a => ((s.client c).step config a).map (s.setClient c)

end Cluster

def clusterSystem (env : Executor.Env) (config : Worker.WorkerConfig) :
    Transition.System Cluster Cluster.Action :=
  .ofStep .new (Cluster.step env config)

/-! ### Inversion -/

namespace Cluster

variable {env : Executor.Env} {config : Worker.WorkerConfig} {s s' : Cluster} {a : Action}

inductive StepCase (env : Executor.Env) (config : Worker.WorkerConfig) (s : Cluster) :
    Action → Cluster → Prop
  | api {a api} (admits : s.admits a = true) (step : s.api.step env a = some api) :
      StepCase env config s (.api a) ⟨api, s.delivered a⟩
  | connect {t w c} (at_ : (s.api.task t).pc = .processWorkerStream w c)
      (fresh : (s.client c).loop = .unconnected) :
      StepCase env config s (.connect t)
        (s.setClient c { s.client c with workerId := w, loop := .select })
  | transport {c m api}
      (next : (s.api.shared.channel c).sent[(s.api.shared.channel c).taken]? = some m)
      (step : s.api.step env (.take c) = some api) :
      StepCase env config s (.transport c)
        (({ s with api := api } : Cluster).setClient c
          { s.client c with inbound := (s.client c).inbound ++ [m] })
  | client {c a k} (step : (s.client c).step config a = some k) :
      StepCase env config s (.client c a) (s.setClient c k)

theorem step_cases (h : s.step env config a = some s') : StepCase env config s a s' := by
  cases a with
  | api a =>
    simp only [Cluster.step] at h
    split at h
    · next hadmits =>
      obtain ⟨api, hstep, rfl⟩ := Option.map_eq_some_iff.1 h
      exact .api hadmits hstep
    · cases h
  | connect t =>
    simp only [Cluster.step, Cluster.connect] at h
    split at h
    · next hpc =>
      split at h
      · next hloop =>
        cases h
        exact .connect hpc hloop
      · cases h
    · cases h
  | transport c =>
    simp only [Cluster.step, Cluster.transport] at h
    split at h
    · cases h
    · next hnext =>
      obtain ⟨api, hstep, rfl⟩ := Option.map_eq_some_iff.1 h
      exact .transport hnext hstep
  | client c a =>
    obtain ⟨k, hstep, rfl⟩ := Option.map_eq_some_iff.1 h
    exact .client hstep

theorem delivered_cases {a : Executor.Action} (h : s.admits a = true) :
    s.delivery a = none ∧ s.delivered a = s.client ∨
      ∃ t w c m, a = .run t (.inbound (some m)) ∧ (s.api.task t).pc = .processWorkerStream w c ∧
        (s.client c).emitted[(s.client c).delivered]? = some m ∧
        s.delivered a = update s.client c
          { s.client c with delivered := (s.client c).delivered + 1 } := by
  cases hdelivery : s.delivery a with
  | none => exact .inl ⟨rfl, by rw [delivered, hdelivery]⟩
  | some p =>
    right
    unfold delivery at hdelivery
    split at hdelivery
    · next t m =>
      split at hdelivery
      · next w c hpc =>
        cases hdelivery
        have hd : s.delivery (.run t (.inbound (some m))) = some (c, m) := by
          simp only [delivery, hpc]
        refine ⟨t, w, c, m, rfl, hpc, ?_, by rw [delivered, hd]⟩
        simpa only [admits, hd, decide_eq_true_eq] using h
      · cases hdelivery
    · cases hdelivery

theorem tasks_step {P : Executor.Tid → Executor.Pc → Prop} (hs : s.step env config a = some s')
    (h : ∀ t, P t (s.api.task t).pc)
    (start : ∀ n op, a = .api (.start n op) → fromOutside op = true → P (.task n) op.start.pc)
    (resume : ∀ t r f, P t (Executor.Frame.resume r f))
    (exec : ∀ t choice o, a = .api (.run t choice) → s.admits (.run t choice) = true →
      Executor.exec env t choice s.api.shared (s.api.task t).pc = some o → P t o.pc)
    (t : Executor.Tid) : P t (s'.api.task t).pc := by
  have hupdate : ∀ u (task : Executor.Task), P u task.pc → P t (update s.api.task u task t).pc := by
    intro u task hp
    by_cases hut : t = u
    · subst hut
      rwa [Function.update_self]
    · rw [Function.update_of_ne hut]
      exact h t
  cases step_cases hs with
  | connect => exact h t
  | client => exact h t
  | transport hnext hstep =>
    obtain ⟨ch, -, rfl⟩ := Option.map_eq_some_iff.1 hstep
    exact h t
  | api hadmits hstep =>
    cases Executor.State.step_cases hstep with
    | @start n op => exact hupdate _ _ (start n op rfl hadmits)
    | @resume u choice r f frames => exact hupdate _ _ (resume u r f)
    | @exec u choice o ho => exact hupdate _ _ (exec u choice o rfl hadmits ho)
    | outside => exact h t

/-- The condition on the steps of the API that a condition on the composed system contains. -/
theorem reachableWhen_api {C : Cluster → Action → Prop}
    {D : Executor.State → Executor.Action → Prop} (htake : ∀ s c, D s (.take c))
    (hCD : ∀ s a, C s (.api a) → D s.api a)
    (h : Transition.ReachableWhen (clusterSystem env config) C s) :
    Transition.ReachableWhen (Executor.system env) D s.api := by
  refine h.simulate Cluster.api rfl ?_
  intro s s' a _ hc hstep
  cases step_cases hstep with
  | api _ hapi => exact .inr ⟨_, hCD _ _ hc, hapi⟩
  | connect => exact .inl rfl
  | @transport c m api _ htaken => exact .inr ⟨.take c, htake _ _, htaken⟩
  | client => exact .inl rfl

theorem reachable_api {C : Cluster → Action → Prop}
    (h : Transition.ReachableWhen (clusterSystem env config) C s) : Executor.Reachable env s.api :=
  reachableWhen_api (fun _ _ => trivial) (fun _ _ _ => trivial) h

/-! ### Schedules -/

namespace Schedule

def connect (n : Nat) (w : String) (c : Uuid) : List Action :=
  (Executor.Schedule.register n w c).map .api ++ [.connect (.task n)]

def assign (w : String) (c : Uuid) : List Action :=
  (Executor.Schedule.assign w).map .api ++ [.transport c]

def job (c j : Uuid) (choices : List Worker.JobChoice) : List Action :=
  choices.map fun choice => .client c (.job j (.run choice))

def failJob (c j : Uuid) : List Action := job c j [.workspace (some "disk full"), .send .sent, .send .sent]

def hear (n : Nat) (m : WorkerMessage) (k : Nat) : List Action :=
  .api (.run (.task n) (.inbound (some m))) :: (Executor.Schedule.go n k).map .api

def hearFailure (n : Nat) (w : String) (j : Uuid) : List Action :=
  hear n (.event ⟨w, .canonical j, some (Worker.Job.errorEvent (.io "disk full"))⟩) 4 ++
    hear n (.event ⟨w, .canonical j, some Worker.Job.errorExit⟩) 13

end Schedule

end Cluster

end SmartC
