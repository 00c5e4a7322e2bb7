import Mathlib.Data.List.Basic
import Mathlib.Logic.Relation

/-!
# Runs of a system under a condition on its steps

A system has one initial state and labelled steps. `ReachableWhen S C s` is
reachability along runs every step of which meets `C`, a condition on the
state before the step and on the label. Plain reachability is the case
`C = True`, so one invariant rule and one simulation rule serve both.
-/

namespace Transition

universe u v w x

structure System (σ : Type u) (α : Type v) where
  init : σ
  step : σ → α → σ → Prop

variable {σ : Type u} {α : Type v} {τ : Type w} {β : Type x}

inductive ReachableWhen (S : System σ α) (C : σ → α → Prop) : σ → Prop
  | init : ReachableWhen S C S.init
  | step {s s' : σ} {a : α} :
      ReachableWhen S C s → C s a → S.step s a s' → ReachableWhen S C s'

abbrev Reachable (S : System σ α) : σ → Prop := ReachableWhen S fun _ _ => True

variable {S : System σ α} {C D : σ → α → Prop} {s s' : σ} {a : α}

theorem ReachableWhen.weaken (h : ReachableWhen S C s) (hCD : ∀ s a, C s a → D s a) :
    ReachableWhen S D s := by
  induction h with
  | init => exact .init
  | step _ hc hs ih => exact .step ih (hCD _ _ hc) hs

theorem ReachableWhen.reachable (h : ReachableWhen S C s) : Reachable S s :=
  h.weaken fun _ _ _ => trivial

theorem Reachable.next (h : Reachable S s) (hs : S.step s a s') : Reachable S s' :=
  .step h trivial hs

/-- The invariant rule. The state before the step may be taken reachable, so
that invariants already proved can be used. -/
theorem ReachableWhen.invariant {I : σ → Prop} (h : ReachableWhen S C s) (init : I S.init)
    (step : ∀ {s s' a}, ReachableWhen S C s → I s → C s a → S.step s a s' → I s') : I s := by
  induction h with
  | init => exact init
  | step hr hc hs ih => exact step hr ih hc hs

/-- The simulation rule: seen through `f`, every step of `S` is one step of `T`
that meets `D`, or no step at all. -/
theorem ReachableWhen.simulate {T : System τ β} {D : τ → β → Prop} (f : σ → τ)
    (init : f S.init = T.init)
    (step : ∀ {s s' a}, ReachableWhen S C s → C s a → S.step s a s' →
      f s' = f s ∨ ∃ b, D (f s) b ∧ T.step (f s) b (f s'))
    (h : ReachableWhen S C s) : ReachableWhen T D (f s) := by
  induction h with
  | init => exact init ▸ .init
  | step hr hc hs ih =>
    rcases step hr hc hs with heq | ⟨b, hd, hb⟩
    · exact heq ▸ ih
    · exact .step ih hd hb

/-! ### Systems given by a step function -/

/-- The system of a step function; a label that is not enabled gives `none`. -/
def System.ofStep (init : σ) (f : σ → α → Option σ) : System σ α where
  init := init
  step s a s' := f s a = some s'

def execute (f : σ → α → Option σ) : σ → List α → Option σ
  | s, [] => some s
  | s, a :: as => (f s a).bind (execute f · as)

variable {f : σ → α → Option σ} {i : σ}

theorem execute_induction {I : σ → Prop} (step : ∀ {s s' a}, I s → f s a = some s' → I s')
    (hs : I s) (he : execute f s as = some s') : I s' := by
  induction as generalizing s with
  | nil =>
    simp only [execute, Option.some.injEq] at he
    exact he ▸ hs
  | cons a as ih =>
    obtain ⟨m, hm, he⟩ := Option.bind_eq_some_iff.mp he
    exact ih (step hs hm) he

theorem Reachable.execute (h : Reachable (.ofStep i f) s) (he : execute f s as = some s') :
    Reachable (.ofStep i f) s' :=
  execute_induction (fun hr hs => Reachable.next hr hs) h he

/-- A run from the initial state that ends in a state where the test `p` holds. -/
theorem reachable_of_execute (as : List α) {p : σ → Bool}
    (h : (Transition.execute f i as).map p = some true) :
    ∃ s, Reachable (.ofStep i f) s ∧ p s = true := by
  obtain ⟨s, hs, hp⟩ := Option.map_eq_some_iff.mp h
  exact ⟨s, Reachable.execute .init hs, hp⟩

def guarded (c : σ → α → Bool) (f : σ → α → Option σ) (s : σ) (a : α) : Option σ :=
  if c s a then f s a else none

theorem ReachableWhen.execute {c : σ → α → Bool} (h : ReachableWhen (.ofStep i f) C s)
    (hc : ∀ s a, ReachableWhen (.ofStep i f) C s → c s a = true → C s a) (as : List α)
    (he : Transition.execute (guarded c f) s as = some s') : ReachableWhen (.ofStep i f) C s' := by
  refine execute_induction (fun hr hs => ?_) h he
  simp only [guarded] at hs
  split at hs
  · rename_i hpass
    exact .step hr (hc _ _ hr hpass) hs
  · cases hs

theorem reachableWhen_of_execute {c : σ → α → Bool} (as : List α) {p : σ → Bool}
    (h : (Transition.execute (guarded c f) i as).map p = some true) :
    ∃ s, ReachableWhen (.ofStep i f) (fun s a => c s a = true) s ∧ p s = true := by
  obtain ⟨s, hs, hp⟩ := Option.map_eq_some_iff.mp h
  exact ⟨s, ReachableWhen.execute .init (fun _ _ _ h => h) as hs, hp⟩

/-! ### Recorded runs -/

variable {γ : Type*} {record : σ → α → List γ} {log : List γ}

/-- A run that meets `C`, with everything that `record` reads off its steps. -/
inductive RecordedWhen (S : System σ α) (C : σ → α → Prop) (record : σ → α → List γ) :
    σ → List γ → Prop
  | init : RecordedWhen S C record S.init []
  | step {s s' : σ} {a : α} {log : List γ} : RecordedWhen S C record s log → C s a →
      S.step s a s' → RecordedWhen S C record s' (log ++ record s a)

theorem RecordedWhen.reachable (h : RecordedWhen S C record s log) : ReachableWhen S C s := by
  induction h with
  | init => exact .init
  | step _ hc hs ih => exact .step ih hc hs

theorem ReachableWhen.recorded (h : ReachableWhen S C s) (record : σ → α → List γ) :
    ∃ log, RecordedWhen S C record s log := by
  induction h with
  | init => exact ⟨[], .init⟩
  | step _ hc hs ih =>
    obtain ⟨log, hlog⟩ := ih
    exact ⟨_, .step hlog hc hs⟩

theorem RecordedWhen.weaken (h : RecordedWhen S C record s log) (hCD : ∀ s a, C s a → D s a) :
    RecordedWhen S D record s log := by
  induction h with
  | init => exact .init
  | step _ hc hs ih => exact .step ih (hCD _ _ hc) hs

theorem RecordedWhen.imply (h : RecordedWhen S C record s log)
    (hCD : ∀ s a s', ReachableWhen S C s → C s a → S.step s a s' → D s a) :
    RecordedWhen S D record s log := by
  induction h with
  | init => exact .init
  | step hr hc hs ih => exact .step ih (hCD _ _ _ hr.reachable hc hs) hs

theorem RecordedWhen.invariant {I : σ → List γ → Prop} (h : RecordedWhen S C record s log)
    (init : I S.init [])
    (step : ∀ {s s' a log}, ReachableWhen S C s → I s log → C s a → S.step s a s' →
      I s' (log ++ record s a)) : I s log := by
  induction h with
  | init => exact init
  | step hr hc hs ih => exact step hr.reachable ih hc hs

/-- Steps one after the other that all meet `C`, with their record. -/
inductive PathWhen (S : System σ α) (C : σ → α → Prop) (record : σ → α → List γ) :
    σ → List γ → σ → Prop
  | nil {s : σ} : PathWhen S C record s [] s
  | cons {s s' s'' : σ} {a : α} {log : List γ} : C s a → S.step s a s' →
      PathWhen S C record s' log s'' → PathWhen S C record s (record s a ++ log) s''

theorem PathWhen.single (hc : C s a) (hs : S.step s a s') :
    PathWhen S C record s (record s a) s' := by
  have hpath : PathWhen S C record s (record s a ++ []) s' := .cons hc hs .nil
  rwa [List.append_nil] at hpath

theorem PathWhen.append {s'' : σ} {more : List γ} (h : PathWhen S C record s log s')
    (hmore : PathWhen S C record s' more s'') : PathWhen S C record s (log ++ more) s'' := by
  induction h with
  | nil => exact hmore
  | cons hc hs _ ih =>
    rw [List.append_assoc]
    exact .cons hc hs (ih hmore)

theorem PathWhen.invariant {I : σ → Prop} (h : PathWhen S C record s log s') (hs : I s)
    (step : ∀ {s s' a}, I s → S.step s a s' → I s') : I s' := by
  induction h with
  | nil => exact hs
  | cons _ hstep _ ih => exact ih (step hs hstep)

theorem RecordedWhen.extend {more : List γ} (h : RecordedWhen S C record s log)
    (hpath : PathWhen S C record s more s') : RecordedWhen S C record s' (log ++ more) := by
  induction hpath generalizing log with
  | nil => simpa using h
  | cons hc hs _ ih =>
    rw [← List.append_assoc]
    exact ih (.step h hc hs)

/-- The refinement rule: seen through `f`, every step of `S` is a path of `T` with the same
record. -/
theorem RecordedWhen.refine {T : System τ β} {D : τ → β → Prop} {record' : τ → β → List γ}
    (f : σ → τ) (init : f S.init = T.init)
    (step : ∀ {s s' a}, C s a → S.step s a s' → PathWhen T D record' (f s) (record s a) (f s'))
    (h : RecordedWhen S C record s log) : RecordedWhen T D record' (f s) log := by
  induction h with
  | init => exact init ▸ .init
  | step _ hc hs ih => exact ih.extend (step hc hs)

/-- Every entry of a log is as `P` demands after the entries before it. -/
def EachAfter (P : List γ → γ → Prop) (log : List γ) : Prop :=
  ∀ before x after, log = before ++ x :: after → P before x

theorem EachAfter.nil {P : List γ → γ → Prop} : EachAfter P [] := by
  intro before x after h
  simp at h

theorem EachAfter.mono {P Q : List γ → γ → Prop} (h : EachAfter P log)
    (hPQ : ∀ before x, P before x → Q before x) : EachAfter Q log :=
  fun before x after hsplit => hPQ before x (h before x after hsplit)

theorem EachAfter.tail {P : List γ → γ → Prop} {x : γ} (h : EachAfter P (x :: log)) :
    EachAfter (fun before => P (x :: before)) log :=
  fun before y after hsplit => h (x :: before) y after (by rw [hsplit, List.cons_append])

theorem EachAfter.append {P : List γ → γ → Prop} {x : γ} (h : EachAfter P log) (hx : P log x) :
    EachAfter P (log ++ [x]) := by
  intro before y after hsplit
  rcases List.eq_nil_or_concat' after with rfl | ⟨front, last, rfl⟩
  · obtain ⟨rfl, hy⟩ := List.append_inj' hsplit rfl
    cases hy
    exact hx
  · have hfront : log = before ++ y :: front := by
      rw [← List.cons_append, ← List.append_assoc] at hsplit
      exact (List.append_inj' hsplit rfl).1
    exact h before y front hfront

theorem EachAfter.append_all {P : List γ → γ → Prop} {more : List γ} (h : EachAfter P log)
    (hmore : ∀ before x after, more = before ++ x :: after → P (log ++ before) x) :
    EachAfter P (log ++ more) := by
  induction more generalizing log with
  | nil => simpa using h
  | cons x more ih =>
    rw [← List.singleton_append, ← List.append_assoc]
    refine ih (h.append (by simpa using hmore [] x more rfl)) fun before y after hsplit => ?_
    simpa using hmore (x :: before) y after (by rw [hsplit]; rfl)

/-- The state after a list of labels and the record of its steps. -/
def executeRecording (f : σ → α → Option σ) (record : σ → α → List γ) :
    σ → List α → Option (σ × List γ)
  | s, [] => some (s, [])
  | s, a :: as =>
    (f s a).bind fun s' => (executeRecording f record s' as).map fun r => (r.1, record s a ++ r.2)

theorem RecordedWhen.execute {c : σ → α → Bool} (hc : ∀ s a, c s a = true → C s a)
    (h : RecordedWhen (.ofStep i f) C record s log) (as : List α)
    (he : executeRecording (guarded c f) record s as = some (s', more)) :
    RecordedWhen (.ofStep i f) C record s' (log ++ more) := by
  induction as generalizing s log more with
  | nil =>
    cases he
    simpa using h
  | cons a as ih =>
    obtain ⟨m, hm, he⟩ := Option.bind_eq_some_iff.mp he
    obtain ⟨⟨s'', rest⟩, hrest, heq⟩ := Option.map_eq_some_iff.mp he
    cases heq
    simp only [guarded] at hm
    split at hm
    · rename_i hpass
      rw [← List.append_assoc]
      exact ih (.step h (hc _ _ hpass) hm) hrest
    · cases hm

theorem recordedWhen_of_execute {c : σ → α → Bool} (record : σ → α → List γ) (as : List α)
    {p : σ → List γ → Bool}
    (h : (executeRecording (guarded c f) record i as).map (fun r => p r.1 r.2) = some true) :
    ∃ s log, RecordedWhen (.ofStep i f) (fun s a => c s a = true) record s log ∧
      p s log = true := by
  obtain ⟨⟨s, log⟩, hs, hp⟩ := Option.map_eq_some_iff.mp h
  exact ⟨s, log, RecordedWhen.execute (fun _ _ h => h) .init as hs, hp⟩

end Transition
