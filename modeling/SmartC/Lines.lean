import Mathlib.Algebra.GroupWithZero.Nat
import Mathlib.Data.List.Basic

/-!
# Texts and their lines

A text is a list of units and its lines are the pieces between the occurrences
of a separator. A program that finds line `n` by searching for the separator
`n` times arrives at the offset that the lines before it add up to.
-/

namespace SmartC.Lines

variable {α : Type*} [DecidableEq α]

def indexOf (sep : α) (text : List α) (start : Nat) : Option Nat :=
  ((text.drop start).findIdx? fun u => decide (u = sep)).map (start + ·)

/-- The offset after the next `n` separators. -/
def skipLines (sep : α) (text : List α) : Nat → Nat → Option Nat
  | 0, start => some start
  | n + 1, start =>
    match indexOf sep text start with
    | none => none
    | some newline => skipLines sep text n (newline + 1)

/-- The units before line `n`, separators included. -/
def lineOffset (lines : List (List α)) (n : Nat) : Nat :=
  ((lines.take n).map fun line => line.length + 1).sum

theorem findIdx?_some {sep : α} {text : List α} {i : Nat}
    (h : (text.findIdx? fun u => decide (u = sep)) = some i) :
    text = text.take i ++ sep :: text.drop (i + 1) ∧ sep ∉ text.take i := by
  rw [List.findIdx?_eq_some_iff_getElem] at h
  obtain ⟨hi, hsep, hbefore⟩ := h
  refine ⟨?_, fun hmem => ?_⟩
  · have hat : text[i] = sep := of_decide_eq_true hsep
    rw [← hat, ← List.drop_eq_getElem_cons hi, List.take_append_drop]
  · obtain ⟨j, hj, hat⟩ := List.mem_take_iff_getElem.1 hmem
    exact hbefore j (by omega) (decide_eq_true hat)

theorem lines_of_indexOf_none {sep : α} {text : List α} {start : Nat}
    (h : indexOf sep text start = none) :
    (text.drop start).splitOn sep = [text.drop start] := by
  rw [indexOf, Option.map_eq_none_iff, List.findIdx?_eq_none_iff] at h
  refine List.splitOn_eq_singleton fun hmem => ?_
  exact absurd (h sep hmem) (by simp)

theorem lines_of_indexOf_some {sep : α} {text : List α} {start newline : Nat}
    (h : indexOf sep text start = some newline) :
    start ≤ newline ∧ newline < text.length ∧
      (text.drop start).splitOn sep =
        (text.drop start).take (newline - start) :: (text.drop (newline + 1)).splitOn sep := by
  rw [indexOf, Option.map_eq_some_iff] at h
  obtain ⟨i, hi, rfl⟩ := h
  have hlt : i < (text.drop start).length := (List.findIdx?_eq_some_iff_getElem.1 hi).1
  obtain ⟨hsplit, hbefore⟩ := findIdx?_some hi
  refine ⟨Nat.le_add_right _ _, by rw [List.length_drop] at hlt; omega, ?_⟩
  rw [Nat.add_sub_cancel_left]
  conv_lhs => rw [hsplit]
  rw [List.splitOn_append_cons_self_of_not_mem hbefore, List.drop_drop, Nat.add_assoc]

theorem skipLines_some {sep : α} {text : List α} {n start s : Nat}
    (h : skipLines sep text n start = some s) :
    s = start + lineOffset ((text.drop start).splitOn sep) n ∧
      (text.drop s).splitOn sep = ((text.drop start).splitOn sep).drop n := by
  induction n generalizing start with
  | zero =>
    obtain rfl : start = s := Option.some.inj h
    exact ⟨by simp [lineOffset], by simp⟩
  | succ n ih =>
    rw [skipLines] at h
    split at h
    · cases h
    · next newline hfound =>
      obtain ⟨hle, hlt, hlines⟩ := lines_of_indexOf_some hfound
      obtain ⟨hs, hrest⟩ := ih h
      have hlength : ((text.drop start).take (newline - start)).length = newline - start := by
        rw [List.length_take, List.length_drop]
        omega
      rw [hlines, List.drop_succ_cons]
      refine ⟨?_, hrest⟩
      rw [lineOffset, List.take_succ_cons, List.map_cons, List.sum_cons, hlength]
      rw [lineOffset] at hs
      omega

/-- The line that starts where `skipLines` arrives ends at the next separator,
or at the end of the text. -/
theorem getElem?_lines_of_skipLines {sep : α} {text : List α} {n s : Nat}
    (h : skipLines sep text n 0 = some s) :
    (text.splitOn sep)[n]? =
      some ((text.drop s).take (((indexOf sep text s).getD text.length) - s)) := by
  have hdrop := (skipLines_some h).2
  rw [List.drop_zero] at hdrop
  have hhead : (text.splitOn sep)[n]? = ((text.drop s).splitOn sep)[0]? := by
    rw [hdrop, List.getElem?_drop, Nat.add_zero]
  rw [hhead]
  cases hfound : indexOf sep text s with
  | none =>
    rw [lines_of_indexOf_none hfound]
    simp [List.take_of_length_le]
  | some newline =>
    rw [(lines_of_indexOf_some hfound).2.2]
    simp

end SmartC.Lines
