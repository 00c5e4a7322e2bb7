import Mathlib.Algebra.BigOperators.Group.List.Basic
import Mathlib.Algebra.Order.BigOperators.Group.List
import Mathlib.Data.Finset.Card
import Mathlib.Data.List.Nodup
import Mathlib.Tactic.Abel

/-!
# Maps in insertion order

A finite map that is traversed in the order in which its keys were first set:
setting a present key keeps its place, and a deleted key that is set again
comes last. Quantities summed over the entries follow each operation.
-/

namespace SmartC

structure OrderedMap (α β : Type*) where
  entries : List (α × β)
  nodup : (entries.map Prod.fst).Nodup

namespace OrderedMap

variable {α β : Type*} [DecidableEq α]

def empty : OrderedMap α β := ⟨[], List.nodup_nil⟩

def get (m : OrderedMap α β) (k : α) : Option β := m.entries.lookup k

def has (m : OrderedMap α β) (k : α) : Bool := (m.get k).isSome

def replaceEntry (k : α) (v : β) (e : α × β) : α × β := if e.1 = k then (k, v) else e

theorem map_fst_replaceEntry (k : α) (v : β) (es : List (α × β)) :
    (es.map (replaceEntry k v)).map Prod.fst = es.map Prod.fst := by
  rw [List.map_map]
  refine List.map_congr_left fun e _ => ?_
  by_cases he : e.1 = k
  · simp [replaceEntry, he]
  · simp [replaceEntry, he]

theorem lookup_cons_ite (a k : α) (b : β) (es : List (α × β)) :
    ((a, b) :: es).lookup k = if k = a then some b else es.lookup k := by
  by_cases hk : k = a
  · simp [hk]
  · rw [List.lookup_cons, beq_eq_false_iff_ne.2 hk, if_neg hk]

theorem lookup_eq_none {es : List (α × β)} {k : α} :
    es.lookup k = none ↔ k ∉ es.map Prod.fst := by
  induction es with
  | nil => simp
  | cons e es ih =>
    obtain ⟨a, b⟩ := e
    rw [lookup_cons_ite, List.map_cons, List.mem_cons, not_or]
    by_cases hk : k = a
    · simp [hk]
    · rw [if_neg hk, ih]
      exact (and_iff_right hk).symm

theorem lookup_append (es fs : List (α × β)) (k : α) :
    (es ++ fs).lookup k = (es.lookup k).or (fs.lookup k) := by
  induction es with
  | nil => simp
  | cons e es ih =>
    obtain ⟨a, b⟩ := e
    rw [List.cons_append, lookup_cons_ite, lookup_cons_ite, ih]
    by_cases hk : k = a
    · simp [hk]
    · simp [hk]

theorem lookup_replaceEntry_of_ne {k k' : α} (hk : k' ≠ k) (es : List (α × β)) (v : β) :
    (es.map (replaceEntry k v)).lookup k' = es.lookup k' := by
  induction es with
  | nil => rfl
  | cons e es ih =>
    obtain ⟨a, b⟩ := e
    by_cases ha : a = k
    · subst ha
      rw [List.map_cons, replaceEntry, if_pos rfl, lookup_cons_ite, lookup_cons_ite, ih,
        if_neg hk, if_neg hk]
    · rw [List.map_cons, replaceEntry, if_neg ha, lookup_cons_ite, lookup_cons_ite, ih]

theorem lookup_replaceEntry_self {k : α} {es : List (α × β)} (h : k ∈ es.map Prod.fst) (v : β) :
    (es.map (replaceEntry k v)).lookup k = some v := by
  induction es with
  | nil => simp at h
  | cons e es ih =>
    obtain ⟨a, b⟩ := e
    by_cases ha : a = k
    · subst ha
      rw [List.map_cons, replaceEntry, if_pos rfl, lookup_cons_ite, if_pos rfl]
    · rw [List.map_cons, replaceEntry, if_neg ha, lookup_cons_ite, if_neg (Ne.symm ha)]
      exact ih ((List.mem_cons.1 h).resolve_left (Ne.symm ha))

theorem lookup_filter_ne (es : List (α × β)) (k k' : α) :
    (es.filter fun e => e.1 ≠ k).lookup k' = if k' = k then none else es.lookup k' := by
  induction es with
  | nil => simp
  | cons e es ih =>
    obtain ⟨a, b⟩ := e
    by_cases ha : a = k
    · subst ha
      rw [List.filter_cons_of_neg (by simp), ih, lookup_cons_ite]
      by_cases hk : k' = a
      · simp [hk]
      · simp [hk]
    · rw [List.filter_cons_of_pos (by simpa using ha), lookup_cons_ite, lookup_cons_ite, ih]
      by_cases hk : k' = k
      · subst hk
        simp [Ne.symm ha]
      · simp [hk]

def set (m : OrderedMap α β) (k : α) (v : β) : OrderedMap α β :=
  if h : k ∈ m.entries.map Prod.fst then
    ⟨m.entries.map (replaceEntry k v), by rw [map_fst_replaceEntry]; exact m.nodup⟩
  else
    ⟨m.entries ++ [(k, v)], by
      rw [List.map_append, List.nodup_append]
      refine ⟨m.nodup, List.nodup_singleton _, ?_⟩
      rintro a ha b hb rfl
      rw [List.map_singleton, List.mem_singleton] at hb
      subst hb
      exact h ha⟩

def delete (m : OrderedMap α β) (k : α) : OrderedMap α β :=
  ⟨m.entries.filter fun e => e.1 ≠ k, m.nodup.sublist (List.filter_sublist.map _)⟩

@[simp] theorem get_empty (k : α) : (empty : OrderedMap α β).get k = none := rfl

theorem mem_keys_iff {m : OrderedMap α β} {k : α} :
    k ∈ m.entries.map Prod.fst ↔ m.get k ≠ none := by
  rw [ne_eq, get, lookup_eq_none, not_not]

theorem get_set (m : OrderedMap α β) (k k' : α) (v : β) :
    (m.set k v).get k' = if k' = k then some v else m.get k' := by
  by_cases h : k ∈ m.entries.map Prod.fst
  · rw [set, dif_pos h, get]
    by_cases hk : k' = k
    · subst hk
      rw [if_pos rfl, lookup_replaceEntry_self h]
    · rw [if_neg hk, lookup_replaceEntry_of_ne hk, get]
  · rw [set, dif_neg h, get, lookup_append]
    rw [lookup_cons_ite]
    by_cases hk : k' = k
    · subst hk
      simp [lookup_eq_none.2 h]
    · simp [hk, get]

theorem get_delete (m : OrderedMap α β) (k k' : α) :
    (m.delete k).get k' = if k' = k then none else m.get k' :=
  lookup_filter_ne m.entries k k'

theorem mem_entries {m : OrderedMap α β} {k : α} {v : β} :
    (k, v) ∈ m.entries ↔ m.get k = some v := by
  obtain ⟨es, hnodup⟩ := m
  induction es with
  | nil => simp [get]
  | cons e es ih =>
    obtain ⟨a, b⟩ := e
    rw [List.map_cons, List.nodup_cons] at hnodup
    have ih := ih hnodup.2
    simp only [get] at ih ⊢
    rw [lookup_cons_ite]
    by_cases hk : k = a
    · subst hk
      have hmem : (k, v) ∉ es := fun h => hnodup.1 (List.mem_map.2 ⟨_, h, rfl⟩)
      simp [hmem, eq_comm]
    · simp [hk, ih]

/-! ### Sizes and parts -/

def keys (m : OrderedMap α β) : List α := m.entries.map Prod.fst

def size (m : OrderedMap α β) : ℕ := m.entries.length

def filter (m : OrderedMap α β) (p : β → Bool) : OrderedMap α β :=
  ⟨m.entries.filter fun e => p e.2, m.nodup.sublist (List.filter_sublist.map _)⟩

theorem get_filter (m : OrderedMap α β) (p : β → Bool) (k : α) :
    (m.filter p).get k = (m.get k).filter p := by
  refine Option.ext fun v => ?_
  rw [← mem_entries, Option.filter_eq_some_iff, ← mem_entries]
  exact List.mem_filter

theorem card_keys (m : OrderedMap α β) : m.keys.toFinset.card = m.size := by
  rw [keys, List.toFinset_card_of_nodup m.nodup, List.length_map, size]

theorem size_le_card {m : OrderedMap α β} {s : Finset α} (h : ∀ k, m.get k ≠ none → k ∈ s) :
    m.size ≤ s.card := by
  have hsubset : m.keys.toFinset ⊆ s := by
    intro k hk
    exact h k (mem_keys_iff.1 (List.mem_toFinset.1 hk))
  exact m.card_keys ▸ Finset.card_le_card hsubset

theorem size_mono {m m' : OrderedMap α β} (h : ∀ k, m.get k ≠ none → m'.get k ≠ none) :
    m.size ≤ m'.size := by
  have hle : m.size ≤ m'.keys.toFinset.card :=
    size_le_card fun k hk => List.mem_toFinset.2 (mem_keys_iff.2 (h k hk))
  rwa [card_keys] at hle

theorem size_congr {m m' : OrderedMap α β} (h : ∀ k, m.get k = m'.get k) : m.size = m'.size :=
  Nat.le_antisymm (size_mono fun k hk => h k ▸ hk) (size_mono fun k hk => (h k).symm ▸ hk)

omit [DecidableEq α] in
theorem size_filter_le (m : OrderedMap α β) (p : β → Bool) : (m.filter p).size ≤ m.size :=
  List.length_filter_le _ _

theorem size_set (m : OrderedMap α β) (k : α) (v : β) :
    (m.set k v).size = if m.has k then m.size else m.size + 1 := by
  have hhas : m.has k = true ↔ k ∈ m.entries.map Prod.fst := by
    rw [has, Option.isSome_iff_ne_none, mem_keys_iff]
  by_cases hk : k ∈ m.entries.map Prod.fst
  · rw [if_pos (hhas.2 hk), set, dif_pos hk, size, List.length_map, size]
  · rw [if_neg (mt hhas.1 hk), set, dif_neg hk, size, List.length_append, size]
    rfl

section Sums

variable {M : Type*} [AddCommGroup M]

def total (m : OrderedMap α β) (f : β → M) : M := (m.entries.map fun e => f e.2).sum

omit [DecidableEq α] in
@[simp] theorem total_empty (f : β → M) : (empty : OrderedMap α β).total f = 0 := rfl

theorem sum_replaceEntry {es : List (α × β)} (hnodup : (es.map Prod.fst).Nodup) {k : α} {old : β}
    (hold : es.lookup k = some old) (v : β) (f : β → M) :
    ((es.map (replaceEntry k v)).map fun e => f e.2).sum =
      (es.map fun e => f e.2).sum - f old + f v := by
  induction es with
  | nil => simp at hold
  | cons e es ih =>
    obtain ⟨a, b⟩ := e
    rw [List.map_cons, List.nodup_cons] at hnodup
    by_cases hk : k = a
    · subst hk
      simp only [List.lookup_cons_self, Option.some.injEq] at hold
      subst hold
      have hrest : es.map (replaceEntry k v) = es := by
        conv_rhs => rw [← List.map_id es]
        refine List.map_congr_left fun e he => if_neg ?_
        rintro rfl
        exact hnodup.1 (List.mem_map.2 ⟨_, he, rfl⟩)
      rw [List.map_cons, hrest]
      simp only [replaceEntry, if_true, List.map_cons, List.sum_cons]
      abel
    · have hrest : es.lookup k = some old := by
        rwa [lookup_cons_ite, if_neg hk] at hold
      simp only [List.map_cons, List.sum_cons, ih hnodup.2 hrest, replaceEntry,
        if_neg (Ne.symm hk : a ≠ k)]
      abel

theorem sum_filter_ne {es : List (α × β)} (hnodup : (es.map Prod.fst).Nodup) {k : α} {old : β}
    (hold : es.lookup k = some old) (f : β → M) :
    ((es.filter fun e => e.1 ≠ k).map fun e => f e.2).sum =
      (es.map fun e => f e.2).sum - f old := by
  induction es with
  | nil => simp at hold
  | cons e es ih =>
    obtain ⟨a, b⟩ := e
    rw [List.map_cons, List.nodup_cons] at hnodup
    by_cases hk : k = a
    · subst hk
      simp only [List.lookup_cons_self, Option.some.injEq] at hold
      subst hold
      have hrest : es.filter (fun e => e.1 ≠ k) = es := by
        refine List.filter_eq_self.2 fun e he => decide_eq_true ?_
        rintro rfl
        exact hnodup.1 (List.mem_map.2 ⟨_, he, rfl⟩)
      rw [List.filter_cons_of_neg (by simp), hrest]
      simp
    · have hrest : es.lookup k = some old := by
        rwa [lookup_cons_ite, if_neg hk] at hold
      rw [List.filter_cons_of_pos (by simpa using Ne.symm hk)]
      simp only [List.map_cons, List.sum_cons, ih hnodup.2 hrest]
      abel

theorem total_set_new {m : OrderedMap α β} {k : α} (h : m.get k = none) (v : β) (f : β → M) :
    (m.set k v).total f = m.total f + f v := by
  have hmem : k ∉ m.entries.map Prod.fst := lookup_eq_none.1 h
  simp [set, hmem, total]

theorem total_set {m : OrderedMap α β} {k : α} {old : β} (h : m.get k = some old) (v : β)
    (f : β → M) : (m.set k v).total f = m.total f - f old + f v := by
  have hmem : k ∈ m.entries.map Prod.fst := mem_keys_iff.2 (by simp [h])
  rw [set, dif_pos hmem]
  exact sum_replaceEntry m.nodup h v f

theorem total_delete {m : OrderedMap α β} {k : α} {old : β} (h : m.get k = some old)
    (f : β → M) : (m.delete k).total f = m.total f - f old :=
  sum_filter_ne m.nodup h f

end Sums

section Bounds

variable {M : Type*} [AddCommGroup M] [PartialOrder M] [IsOrderedAddMonoid M]

omit [DecidableEq α] in
theorem total_nonneg (m : OrderedMap α β) {f : β → M} (hf : ∀ v, 0 ≤ f v) : 0 ≤ m.total f := by
  refine List.sum_nonneg fun x hx => ?_
  obtain ⟨e, -, rfl⟩ := List.mem_map.1 hx
  exact hf e.2

end Bounds

end OrderedMap

end SmartC
