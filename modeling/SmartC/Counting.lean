import Mathlib.Algebra.BigOperators.Group.Finset.Piecewise
import Mathlib.Data.Finset.Card
import Mathlib.Data.List.AList

/-!
# Counting under one change

How a count moves when a single element changes: the entries of an
association list under `insert` and `erase`, and the members of a finite set
that satisfy a predicate. Likewise for a list that loses one of its elements,
and for the sum of a family of numbers of which only finitely many count.
-/

namespace List

theorem count_filter_ne {α : Type*} [DecidableEq α] (l : List α) (a b : α) :
    (l.filter (· ≠ a)).count b = if b = a then 0 else l.count b := by
  split
  · subst b; simp [List.count_eq_zero]
  · exact List.count_filter (by simpa)

end List

namespace AList

variable {α β : Type*} [DecidableEq α] {k : α} {v w : β} {m : AList fun _ : α => β}

def countValues (p : β → Bool) (m : AList fun _ : α => β) : Nat := m.entries.countP fun e => p e.2

theorem countP_kerase_of_nodupKeys (p : β → Bool) (k : α) (l : List (Sigma fun _ : α => β))
    (hl : l.NodupKeys) :
    l.countP (fun e => p e.2) = (l.kerase k).countP (fun e => p e.2) +
      if (l.dlookup k).any p then 1 else 0 := by
  induction l with
  | nil => simp
  | cons e l ih =>
    obtain ⟨a, b⟩ := e
    rw [List.nodupKeys_cons] at hl
    by_cases h : k = a
    · subst h
      have hk : List.kerase k (⟨k, b⟩ :: l) = l := List.kerase_cons_eq rfl
      rw [hk, List.dlookup_cons_eq, List.countP_cons]
      cases hp : p b <;> simp [hp]
    · have hk : List.kerase k (⟨a, b⟩ :: l) = ⟨a, b⟩ :: List.kerase k l := List.kerase_cons_ne h
      rw [hk, List.dlookup_cons_ne _ _ h, List.countP_cons, List.countP_cons, ih hl.2]
      omega

theorem countValues_erase (p : β → Bool) (k : α) (m : AList fun _ : α => β) :
    m.countValues p = (m.erase k).countValues p + if (m.lookup k).any p then 1 else 0 :=
  countP_kerase_of_nodupKeys p k m.entries m.nodupKeys

theorem countValues_insert (p : β → Bool) :
    (m.insert k v).countValues p = (m.erase k).countValues p + if p v then 1 else 0 := by
  simp only [countValues, entries_insert, List.countP_cons]
  rfl

theorem countValues_insert_same {p : β → Bool} (h : m.lookup k = some w) (hp : p v = p w) :
    (m.insert k v).countValues p = m.countValues p := by
  rw [countValues_insert, countValues_erase p k m, h]
  cases hw : p w <;> simp [hp, hw]

end AList

namespace Finset

variable {α : Type*} {s : Finset α} {p q : α → Prop} {a : α}

open scoped Classical in
noncomputable def countWhere (s : Finset α) (p : α → Prop) : Nat := (s.filter p).card

theorem countWhere_eq_zero (h : ∀ a ∈ s, ¬ p a) : s.countWhere p = 0 := by
  classical exact Finset.card_eq_zero.mpr (Finset.filter_eq_empty_iff.mpr fun a ha => h a ha)

theorem countWhere_empty : (∅ : Finset α).countWhere p = 0 := countWhere_eq_zero (by simp)

theorem countWhere_congr (h : ∀ a ∈ s, (p a ↔ q a)) : s.countWhere p = s.countWhere q :=
  by classical exact congrArg Finset.card (Finset.filter_congr h)

theorem card_eq_countWhere {t : Finset α} (h : ∀ a, a ∈ t ↔ a ∈ s ∧ p a) :
    t.card = s.countWhere p := by
  classical exact congrArg Finset.card (Finset.ext fun a => by simp [h a])

theorem countWhere_pos (ha : a ∈ s) (hp : p a) : 0 < s.countWhere p := by
  classical exact Finset.card_pos.mpr ⟨a, Finset.mem_filter.mpr ⟨ha, hp⟩⟩

theorem countWhere_insert [DecidableEq α] (hp : ¬ p a) :
    (insert a s).countWhere p = s.countWhere p := by
  simp [countWhere, Finset.filter_insert, hp]

theorem countWhere_add_not (s : Finset α) (p : α → Prop) :
    s.countWhere p + s.countWhere (fun a => ¬ p a) = s.card := by
  classical
  simp only [countWhere]
  convert Finset.card_filter_add_card_filter_not (s := s) p

theorem countWhere_gain (ha : a ∈ s) (hp : ¬ p a) (hq : q a)
    (h : ∀ b ∈ s, b ≠ a → (q b ↔ p b)) : s.countWhere q = s.countWhere p + 1 := by
  classical
  have hs : s.filter q = insert a (s.filter p) := by
    ext b
    by_cases hb : b = a
    · subst hb; simp [ha, hq]
    · simp only [mem_filter, mem_insert, hb, false_or]
      exact and_congr_right fun hm => h b hm hb
  simp only [countWhere, hs]
  exact card_insert_of_notMem (by simp [hp])

end Finset

namespace SmartC

variable {ι : Type*} {base base' total total' gain v : ℕ} {f : ι → ℕ} {i : ι}

/-- `base` and the values of `f` together are at most `total`. -/
def SumAtMost (base : ℕ) (f : ι → ℕ) (total : ℕ) : Prop :=
  ∃ s : Finset ι, (∀ i ∉ s, f i = 0) ∧ base + ∑ i ∈ s, f i ≤ total

theorem SumAtMost.zero (h : ∀ i, f i = 0) : SumAtMost 0 f total :=
  ⟨∅, fun i _ => h i, by simp⟩

theorem SumAtMost.mono (h : SumAtMost base f total) (htotal : total ≤ total') :
    SumAtMost base f total' := by
  obtain ⟨s, hzero, hle⟩ := h
  exact ⟨s, hzero, hle.trans htotal⟩

theorem SumAtMost.le (h : SumAtMost base f total) (i : ι) : base + f i ≤ total := by
  obtain ⟨s, hzero, hle⟩ := h
  by_cases hi : i ∈ s
  · classical
    rw [← Finset.add_sum_erase s f hi] at hle
    omega
  · rw [hzero i hi]
    exact (Nat.le_add_right _ _).trans hle

theorem update_eq_zero [DecidableEq ι] {s : Finset ι} (hzero : ∀ k ∉ s, f k = 0) :
    ∀ k ∉ insert i s, Function.update f i v k = 0 := by
  intro k hk
  have hki : k ≠ i := fun heq => hk (heq ▸ Finset.mem_insert_self i s)
  rw [Function.update_of_ne hki]
  exact hzero k fun hks => hk (Finset.mem_insert_of_mem hks)

theorem sum_update_add [DecidableEq ι] {s : Finset ι} (hzero : ∀ k ∉ s, f k = 0) :
    ∑ k ∈ insert i s, Function.update f i v k + f i = ∑ k ∈ s, f k + v := by
  have hsum : ∑ k ∈ s, f k = f i + ∑ k ∈ (insert i s).erase i, f k := by
    rw [Finset.add_sum_erase _ _ (Finset.mem_insert_self i s),
      Finset.sum_insert_of_eq_zero_if_notMem (hzero i)]
  rw [Finset.sum_update_of_mem (Finset.mem_insert_self i s), Finset.sdiff_singleton_eq_erase]
  omega

theorem SumAtMost.update [DecidableEq ι] (h : SumAtMost base f total)
    (hgain : base' + v ≤ base + f i + gain) :
    SumAtMost base' (Function.update f i v) (total + gain) := by
  obtain ⟨s, hzero, hle⟩ := h
  refine ⟨insert i s, update_eq_zero hzero, ?_⟩
  have hsum := sum_update_add (i := i) (v := v) hzero
  omega

def SumsTo (f : ι → ℕ) (total : ℕ) : Prop :=
  ∃ s : Finset ι, (∀ i ∉ s, f i = 0) ∧ ∑ i ∈ s, f i = total

theorem SumsTo.zero (h : ∀ i, f i = 0) : SumsTo f 0 := ⟨∅, fun i _ => h i, Finset.sum_empty⟩

theorem SumsTo.eq_zero (h : SumsTo f total) (hf : ∀ i, f i = 0) : total = 0 := by
  obtain ⟨s, _, rfl⟩ := h
  exact Finset.sum_eq_zero fun i _ => hf i

theorem SumsTo.le (h : SumsTo f total) (i : ι) : f i ≤ total := by
  obtain ⟨s, hzero, hsum⟩ := h
  have hle : SumAtMost 0 f total := ⟨s, hzero, by omega⟩
  simpa using hle.le i

theorem SumsTo.update [DecidableEq ι] (h : SumsTo f total) (hv : total' + f i = total + v) :
    SumsTo (Function.update f i v) total' := by
  obtain ⟨s, hzero, hsum⟩ := h
  refine ⟨insert i s, update_eq_zero hzero, ?_⟩
  have hmoved := sum_update_add (i := i) (v := v) hzero
  omega

end SmartC
