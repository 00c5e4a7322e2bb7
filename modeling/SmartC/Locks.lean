import Mathlib.Data.List.Basic
import Mathlib.Data.List.Nodup
import Mathlib.Logic.Function.Basic

/-!
# Fair locks

A lock is held by one task alone or by several that share it. Tasks that
cannot be let in wait, and are let in in the order in which they asked, so that
a task which would share the lock waits behind one that wants it alone. A mutex
is the case in which every task wants it alone.

`Accounts` compares the locks with what each task believes to hold and to have
asked for. When the tasks ask for locks in the order of a rank, one of those
that hold a lock need not wait for another (`Accounts.exists_ready`).
-/

namespace SmartC

inductive Mode
  | alone | together
  deriving DecidableEq, Repr

def Mode.fits {τ : Type} (holders : List (τ × Mode)) : Mode → Bool
  | .alone => holders.isEmpty
  | .together => holders.all fun x => x.2 == .together

/-- Both lists have the oldest task first. -/
structure Lock (τ : Type) where
  holders : List (τ × Mode)
  waiting : List (τ × Mode)
  sole : ∀ t, (t, .alone) ∈ holders → holders = [(t, .alone)]
  fair : ∀ x ∈ waiting.head?, x.2.fits holders = false

namespace Lock

variable {τ : Type} {l : Lock τ} {t u : τ} {m : Mode} {x : τ × Mode}
  {holders waiting : List (τ × Mode)}

theorem sole_append (h : ∀ t, (t, .alone) ∈ holders → holders = [(t, .alone)])
    (hfits : x.2.fits holders = true) (t : τ) (ht : (t, .alone) ∈ holders ++ [x]) :
    holders ++ [x] = [(t, .alone)] := by
  obtain ⟨u, m⟩ := x
  cases m with
  | alone =>
    obtain rfl : holders = [] := List.isEmpty_iff.1 hfits
    rw [List.nil_append, List.mem_singleton] at ht
    rw [List.nil_append, ht]
  | together =>
    rw [List.mem_append, List.mem_singleton] at ht
    obtain ht | ht := ht
    · have hmode := List.all_eq_true.1 hfits _ ht
      cases hmode
    · cases ht

/-- Lets in those who wait, as far as they fit. -/
def letIn (holders : List (τ × Mode))
    (sole : ∀ t, (t, .alone) ∈ holders → holders = [(t, .alone)]) : List (τ × Mode) → Lock τ
  | [] => ⟨holders, [], sole, nofun⟩
  | x :: waiting =>
    if hfits : x.2.fits holders then letIn (holders ++ [x]) (sole_append sole hfits) waiting
    else ⟨holders, x :: waiting, sole, by rintro _ ⟨⟩; simpa using hfits⟩

def free : Lock τ := ⟨[], [], nofun, nofun⟩

def ask (l : Lock τ) (t : τ) (m : Mode) : Lock τ :=
  letIn l.holders l.sole (l.waiting ++ [(t, m)])

theorem sole_filter {p : τ × Mode → Bool}
    (h : ∀ t, (t, .alone) ∈ holders → holders = [(t, .alone)]) (t : τ)
    (ht : (t, .alone) ∈ holders.filter p) : holders.filter p = [(t, .alone)] := by
  obtain ⟨hmem, hp⟩ := List.mem_filter.1 ht
  rw [h t hmem, List.filter_cons_of_pos hp, List.filter_nil]

def release [DecidableEq τ] (l : Lock τ) (t : τ) : Lock τ :=
  letIn (l.holders.filter (·.1 ≠ t)) (sole_filter l.sole) l.waiting

def holds [DecidableEq τ] (l : Lock τ) (t : τ) : Bool := l.holders.any (·.1 = t)

def waits [DecidableEq τ] (l : Lock τ) (t : τ) : Bool := l.waiting.any (·.1 = t)

/-- All who have asked and not yet released, in the order in which they asked. -/
def tasks (l : Lock τ) : List τ := (l.holders ++ l.waiting).map Prod.fst

/-! ### What the operations do -/

/-- Nobody is lost, and nobody overtakes. -/
theorem letIn_append {sole : ∀ t, (t, .alone) ∈ holders → holders = [(t, .alone)]} :
    (letIn holders sole waiting).holders ++ (letIn holders sole waiting).waiting =
      holders ++ waiting := by
  induction waiting generalizing holders with
  | nil => rfl
  | cons x waiting ih =>
    rw [letIn]
    split
    · rw [ih, List.append_assoc, List.singleton_append]
    · rfl

theorem prefix_letIn {sole : ∀ t, (t, .alone) ∈ holders → holders = [(t, .alone)]} :
    holders <+: (letIn holders sole waiting).holders := by
  induction waiting generalizing holders with
  | nil => exact List.prefix_refl _
  | cons x waiting ih =>
    rw [letIn]
    split
    · exact (List.prefix_append _ _).trans ih
    · exact List.prefix_refl _

theorem suffix_letIn {sole : ∀ t, (t, .alone) ∈ holders → holders = [(t, .alone)]} :
    (letIn holders sole waiting).waiting <:+ waiting := by
  induction waiting generalizing holders with
  | nil => exact List.suffix_refl _
  | cons x waiting ih =>
    rw [letIn]
    split
    · exact ih.trans (List.suffix_cons _ _)
    · exact List.suffix_refl _

theorem holders_ne_nil (h : l.waiting ≠ []) : l.holders ≠ [] := by
  intro hnil
  obtain ⟨⟨t, m⟩, rest, hwaiting⟩ := List.exists_cons_of_ne_nil h
  have hfair := l.fair (t, m) (by rw [hwaiting]; rfl)
  rw [hnil] at hfair
  cases m <;> cases hfair

theorem ask_of_free (h : l.holders = []) : (l.ask t m).holders = [(t, m)] := by
  have hwaiting : l.waiting = [] := by
    by_contra hne
    exact holders_ne_nil hne h
  obtain ⟨holders, waiting, sole, fair⟩ := l
  obtain rfl : holders = [] := h
  obtain rfl : waiting = [] := hwaiting
  cases m <;> rfl

variable [DecidableEq τ]

theorem holds_iff : l.holds t = true ↔ ∃ m, (t, m) ∈ l.holders := by
  simp [holds]

theorem waits_iff : l.waits t = true ↔ ∃ m, (t, m) ∈ l.waiting := by
  simp [waits]

theorem mem_tasks : t ∈ l.tasks ↔ l.holds t = true ∨ l.waits t = true := by
  simp [tasks, holds_iff, waits_iff]

omit [DecidableEq τ] in
theorem tasks_ask : (l.ask t m).tasks = l.tasks ++ [t] := by
  rw [tasks, ask, letIn_append, tasks]
  simp

theorem tasks_release : (l.release t).tasks =
    (l.holders.filter (·.1 ≠ t) ++ l.waiting).map Prod.fst := by
  rw [tasks, release, letIn_append]

theorem holds_ask_of_holds (h : l.holds u = true) : (l.ask t m).holds u = true := by
  obtain ⟨mode, hmem⟩ := holds_iff.1 h
  exact holds_iff.2 ⟨mode, prefix_letIn.subset hmem⟩

theorem waits_ask (h : (l.ask t m).waits u = true) : l.waits u = true ∨ u = t := by
  obtain ⟨mode, hmem⟩ := waits_iff.1 h
  have hwas := suffix_letIn.subset hmem
  rw [List.mem_append, List.mem_singleton] at hwas
  obtain hwas | hwas := hwas
  · exact .inl (waits_iff.2 ⟨mode, hwas⟩)
  · cases hwas
    exact .inr rfl

theorem holds_release_of_holds (h : l.holds u = true) (hne : u ≠ t) :
    (l.release t).holds u = true := by
  obtain ⟨mode, hmem⟩ := holds_iff.1 h
  refine holds_iff.2 ⟨mode, prefix_letIn.subset (List.mem_filter.2 ⟨hmem, ?_⟩)⟩
  simpa using hne

theorem waits_release (h : (l.release t).waits u = true) : l.waits u = true := by
  obtain ⟨mode, hmem⟩ := waits_iff.1 h
  exact waits_iff.2 ⟨mode, suffix_letIn.subset hmem⟩

theorem mem_tasks_release : u ∈ (l.release t).tasks ↔
    l.holds u = true ∧ u ≠ t ∨ l.waits u = true := by
  rw [tasks_release]
  simp [holds_iff, waits_iff]

def IsMutex (l : Lock τ) : Prop := ∀ x ∈ l.holders ++ l.waiting, x.2 = .alone

omit [DecidableEq τ] in
theorem IsMutex.ask (h : l.IsMutex) : (l.ask t .alone).IsMutex := by
  intro x hx
  rw [Lock.ask, letIn_append, ← List.append_assoc, List.mem_append, List.mem_singleton] at hx
  obtain hx | rfl := hx
  · exact h x hx
  · rfl

theorem IsMutex.release (h : l.IsMutex) : (l.release t).IsMutex := by
  intro x hx
  rw [Lock.release, letIn_append, List.mem_append] at hx
  obtain hx | hx := hx
  · exact h x (List.mem_append_left _ (List.mem_filter.1 hx).1)
  · exact h x (List.mem_append_right _ hx)

theorem IsMutex.eq (h : l.IsMutex) (ht : l.holds t = true) (hu : l.holds u = true) : u = t := by
  obtain ⟨mode, hmem⟩ := holds_iff.1 ht
  obtain rfl : mode = .alone := h _ (List.mem_append_left _ hmem)
  obtain ⟨mode', hmem'⟩ := holds_iff.1 hu
  rw [l.sole t hmem, List.mem_singleton] at hmem'
  cases hmem'
  rfl

end Lock

/-! ### The locks and the tasks -/

/-- The locks that a task has taken, and the one it has asked for since. -/
structure Holding (κ : Type) where
  taken : List κ
  asked : Option κ

section

variable {τ κ : Type} [DecidableEq τ] {lock : κ → Lock τ} {holding : τ → Holding κ} {l : Lock τ}
  {t u : τ} {k k' : κ} {m : Mode} {c c' : Holding κ} {taken : List κ}

/-- Lock `l` and task `t` agree on whether `t` has asked for `l`, by the name `k`. -/
structure Agrees (l : Lock τ) (k : κ) (t : τ) (c : Holding κ) : Prop where
  holder : l.holds t = true → k ∈ c.taken ∨ c.asked = some k
  taken : k ∈ c.taken → l.holds t = true
  waiter : l.waits t = true → c.asked = some k
  asked : c.asked = some k → t ∈ l.tasks

structure Accounts (lock : κ → Lock τ) (holding : τ → Holding κ) : Prop where
  agrees : ∀ k t, Agrees (lock k) k t (holding t)
  once : ∀ k, (lock k).tasks.Nodup

theorem Accounts.new (hholding : ∀ t, holding t = ⟨[], none⟩) :
    Accounts (fun _ : κ => Lock.free) holding where
  agrees _ t := hholding t ▸ ⟨nofun, nofun, nofun, nofun⟩
  once _ := List.nodup_nil

theorem Agrees.of_iff (h : Agrees l k t c) (htaken : k ∈ c'.taken ↔ k ∈ c.taken)
    (hasked : c'.asked = some k ↔ c.asked = some k) : Agrees l k t c' where
  holder hholds := (h.holder hholds).imp htaken.2 hasked.2
  taken hk := h.taken (htaken.1 hk)
  waiter hwaits := hasked.2 (h.waiter hwaits)
  asked hk := h.asked (hasked.1 hk)

theorem Agrees.mem_tasks (h : Agrees l k t c) :
    t ∈ l.tasks ↔ k ∈ c.taken ∨ c.asked = some k := by
  constructor
  · intro ht
    obtain hholds | hwaits := Lock.mem_tasks.1 ht
    · exact h.holder hholds
    · exact .inr (h.waiter hwaits)
  · rintro (hk | hk)
    · exact Lock.mem_tasks.2 (.inl (h.taken hk))
    · exact h.asked hk

theorem Agrees.ask_other (h : Agrees l k u c) (hne : u ≠ t) : Agrees (l.ask t m) k u c where
  holder hholds := by
    have hmem : u ∈ l.tasks ++ [t] := Lock.tasks_ask ▸ Lock.mem_tasks.2 (.inl hholds)
    rw [List.mem_append, List.mem_singleton] at hmem
    exact h.mem_tasks.1 (hmem.resolve_right hne)
  taken hk := Lock.holds_ask_of_holds (h.taken hk)
  waiter hwaits := h.waiter ((Lock.waits_ask hwaits).resolve_right hne)
  asked hk := by
    rw [Lock.tasks_ask]
    exact List.mem_append_left _ (h.asked hk)

theorem Agrees.release_other (h : Agrees l k u c) (hne : u ≠ t) : Agrees (l.release t) k u c where
  holder hholds := by
    obtain ⟨hwas, -⟩ | hwas := Lock.mem_tasks_release.1 (Lock.mem_tasks.2 (.inl hholds))
    · exact h.holder hwas
    · exact .inr (h.waiter hwas)
  taken hk := Lock.holds_release_of_holds (h.taken hk) hne
  waiter hwaits := h.waiter (Lock.waits_release hwaits)
  asked hk := by
    rw [Lock.mem_tasks_release]
    exact (Lock.mem_tasks.1 (h.asked hk)).imp_left fun hholds => ⟨hholds, hne⟩

theorem not_waits_of_holds (honce : l.tasks.Nodup) (ht : l.holds t = true) :
    l.waits t = false := by
  rw [Lock.tasks, List.map_append, List.nodup_append] at honce
  obtain ⟨-, -, hdisjoint⟩ := honce
  obtain ⟨m, hmem⟩ := Lock.holds_iff.1 ht
  rw [Bool.eq_false_iff]
  intro hwaits
  obtain ⟨m', hmem'⟩ := Lock.waits_iff.1 hwaits
  exact hdisjoint t (List.mem_map_of_mem hmem) t (List.mem_map_of_mem hmem') rfl

theorem Accounts.retake {asked : Option κ} (h : Accounts lock holding)
    (htaken : ∀ k, k ∈ taken ↔ k ∈ (holding t).taken) (hasked : asked = (holding t).asked) :
    Accounts lock (Function.update holding t ⟨taken, asked⟩) where
  agrees k u := by
    by_cases hu : u = t
    · subst hu
      rw [Function.update_self, hasked]
      exact (h.agrees k u).of_iff (htaken k) .rfl
    · rw [Function.update_of_ne hu]
      exact h.agrees k u
  once := h.once

variable [DecidableEq κ]

theorem Accounts.ask (h : Accounts lock holding) (hasked : (holding t).asked = none)
    (htaken : k ∉ (holding t).taken) :
    Accounts (Function.update lock k ((lock k).ask t m))
      (Function.update holding t ⟨(holding t).taken, some k⟩) where
  agrees k' u := by
    have hagrees := h.agrees k' u
    by_cases hk : k' = k
    · subst hk
      rw [Function.update_self]
      by_cases hu : u = t
      · subst hu
        rw [Function.update_self]
        refine ⟨fun _ => .inr rfl, fun hk => absurd hk htaken, fun _ => rfl, fun _ => ?_⟩
        rw [Lock.tasks_ask]
        exact List.mem_append_right _ (List.mem_singleton_self u)
      · rw [Function.update_of_ne hu]
        exact hagrees.ask_other hu
    · rw [Function.update_of_ne hk]
      by_cases hu : u = t
      · subst hu
        rw [Function.update_self]
        refine hagrees.of_iff .rfl ?_
        simp [hasked, Ne.symm hk]
      · rw [Function.update_of_ne hu]
        exact hagrees
  once k' := by
    by_cases hk : k' = k
    · subst hk
      have hnew : t ∉ (lock k').tasks := by
        rw [(h.agrees k' t).mem_tasks, hasked]
        simpa using htaken
      rw [Function.update_self, Lock.tasks_ask, ← List.concat_eq_append]
      exact (h.once k').concat hnew
    · rw [Function.update_of_ne hk]
      exact h.once k'

theorem Accounts.enter (h : Accounts lock holding) (hasked : (holding t).asked = some k)
    (hholds : (lock k).holds t = true) (htaken : ∀ k', k' ∈ taken ↔ k' = k ∨ k' ∈ (holding t).taken) :
    Accounts lock (Function.update holding t ⟨taken, none⟩) where
  agrees k' u := by
    have hagrees := h.agrees k' u
    by_cases hu : u = t
    · subst hu
      rw [Function.update_self]
      by_cases hk : k' = k
      · subst hk
        have hnot := not_waits_of_holds (h.once k') hholds
        refine ⟨fun _ => .inl ((htaken k').2 (.inl rfl)), fun _ => hholds, fun hwaits => ?_, nofun⟩
        rw [hnot] at hwaits
        cases hwaits
      · refine hagrees.of_iff ?_ ?_
        · simp [htaken, hk]
        · simp [hasked, Ne.symm hk]
    · rw [Function.update_of_ne hu]
      exact hagrees
  once := h.once

theorem Accounts.release (h : Accounts lock holding) (hasked : (holding t).asked = none)
    (hheld : k ∈ (holding t).taken) (htaken : ∀ k', k' ∈ taken ↔ k' ≠ k ∧ k' ∈ (holding t).taken) :
    Accounts (Function.update lock k ((lock k).release t))
      (Function.update holding t ⟨taken, none⟩) where
  agrees k' u := by
    have hagrees := h.agrees k' u
    by_cases hk : k' = k
    · subst hk
      rw [Function.update_self]
      by_cases hu : u = t
      · subst hu
        have hnot := not_waits_of_holds (h.once k') (hagrees.taken hheld)
        have hgone : u ∉ ((lock k').release u).tasks := by
          rw [Lock.mem_tasks_release, hnot]
          simp
        rw [Function.update_self]
        refine ⟨fun hholds => absurd (Lock.mem_tasks.2 (.inl hholds)) hgone, fun hk => ?_,
          fun hwaits => absurd (Lock.mem_tasks.2 (.inr hwaits)) hgone, nofun⟩
        exact absurd rfl ((htaken k').1 hk).1
      · rw [Function.update_of_ne hu]
        exact hagrees.release_other hu
    · rw [Function.update_of_ne hk]
      by_cases hu : u = t
      · subst hu
        rw [Function.update_self]
        refine hagrees.of_iff ?_ ?_
        · simp [htaken, hk]
        · simp [hasked]
      · rw [Function.update_of_ne hu]
        exact hagrees
  once k' := by
    by_cases hk : k' = k
    · subst hk
      rw [Function.update_self, Lock.tasks_release]
      have hsub : List.Sublist ((lock k').holders.filter (·.1 ≠ t) ++ (lock k').waiting)
          ((lock k').holders ++ (lock k').waiting) := List.filter_sublist.append_right _
      exact (h.once k').sublist (hsub.map _)
    · rw [Function.update_of_ne hk]
      exact h.once k'

theorem Accounts.leave (h : Accounts lock holding) (hasked : (holding t).asked = some k)
    (hholds : (lock k).holds t = true) (htaken : k ∉ (holding t).taken) :
    Accounts (Function.update lock k ((lock k).release t))
      (Function.update holding t ⟨(holding t).taken, none⟩) := by
  have hentered := h.enter hasked hholds fun k' => List.mem_cons (a := k') (l := (holding t).taken)
  have hself : Function.update holding t ⟨k :: (holding t).taken, none⟩ t =
      ⟨k :: (holding t).taken, none⟩ := Function.update_self ..
  have hreleased : Accounts (Function.update lock k ((lock k).release t))
      (Function.update (Function.update holding t ⟨k :: (holding t).taken, none⟩) t
        ⟨(holding t).taken, none⟩) := by
    refine hentered.release ?_ ?_ fun k' => ?_
    · rw [hself]
    · rw [hself]
      exact List.mem_cons_self
    · rw [hself, List.mem_cons]
      constructor
      · intro hk'
        refine ⟨?_, .inr hk'⟩
        rintro rfl
        exact htaken hk'
      · rintro ⟨hne, hk'⟩
        exact hk'.resolve_left hne
  rwa [Function.update_idem] at hreleased

/-! ### No deadlock -/

omit [DecidableEq τ] [DecidableEq κ] in
theorem exists_highest (rank : κ → Nat) {n : Nat} (hbound : ∀ k, rank k ≤ n)
    (hheld : (lock k).holders ≠ []) :
    ∃ k, (lock k).holders ≠ [] ∧ ∀ k', rank k < rank k' → (lock k').holders = [] := by
  -- By induction on the distance to the bound: either `k` is the highest, or a higher one is held.
  generalize hd : n - rank k = d
  induction d using Nat.strongRecOn generalizing k with
  | ind d ih =>
    by_cases hmax : ∀ k', rank k < rank k' → (lock k').holders = []
    · exact ⟨k, hheld, hmax⟩
    · simp only [not_forall] at hmax
      obtain ⟨k', hlt, hheld'⟩ := hmax
      have hk' := hbound k'
      exact ih (n - rank k') (by omega) hheld' rfl

omit [DecidableEq κ] in
/-- When every task asks only for locks above those it has taken, and somebody waits, there is a
task that holds a lock and need not wait: it has been let in to the lock it asked for, or it has
asked for none and the one it asks for next is free. -/
theorem Accounts.exists_ready (h : Accounts lock holding) (next : τ → Option κ)
    (hnext : ∀ t k, (holding t).asked = some k → next t = some k) (rank : κ → Nat) {n : Nat}
    (hbound : ∀ k, rank k ≤ n)
    (hranked : ∀ t k k', k ∈ (holding t).taken → next t = some k' → rank k < rank k')
    (hwaits : (lock k).waits t = true) :
    ∃ u k', (lock k').holds u = true ∧ ((holding u).asked = some k' ∨
      (holding u).asked = none ∧ k' ∈ (holding u).taken ∧
        ∀ k'', next u = some k'' → (lock k'').holders = []) := by
  obtain ⟨m, hmem⟩ := Lock.waits_iff.1 hwaits
  obtain ⟨k', hheld, hhighest⟩ := exists_highest rank hbound
    (Lock.holders_ne_nil (List.ne_nil_of_mem hmem))
  obtain ⟨⟨u, mode⟩, rest, hholders⟩ := List.exists_cons_of_ne_nil hheld
  have hholds : (lock k').holds u = true :=
    Lock.holds_iff.2 ⟨mode, hholders ▸ List.mem_cons_self⟩
  refine ⟨u, k', hholds, ?_⟩
  obtain htaken | hasked := (h.agrees k' u).holder hholds
  · refine .inr ⟨?_, htaken, fun k'' hk'' => hhighest k'' (hranked u k' k'' htaken hk'')⟩
    -- Whoever has asked for a lock above the highest that is held would hold it.
    cases hasked : (holding u).asked with
    | none => rfl
    | some k'' =>
      have hfree := hhighest k'' (hranked u k' k'' htaken (hnext u k'' hasked))
      have hin := (h.agrees k'' u).asked hasked
      have hwaiting : (lock k'').waiting = [] := by
        by_contra hne
        exact Lock.holders_ne_nil hne hfree
      rw [Lock.tasks, hfree, hwaiting] at hin
      cases hin
  · exact .inl hasked

end

end SmartC
