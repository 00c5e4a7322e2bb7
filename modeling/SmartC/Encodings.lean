import Mathlib.Algebra.GroupWithZero.Nat
import Mathlib.Data.List.GetD
import SmartC.Utf8

/-!
# Encodings in tokens

Three encodings that tokens are put together from: a number as a fixed number
of bytes, a number in decimal, and bytes in the URL-safe base64 alphabet without
padding. Each can be read back. Neither of the texts has a character that could
end it early, so that fields can be joined by a separator and told apart again.
-/

namespace SmartC.Encodings

theorem append_cons_inj {α : Type*} {a : α} {xs xs' ys ys' : List α} (hxs : a ∉ xs) (hxs' : a ∉ xs')
    (h : xs ++ a :: ys = xs' ++ a :: ys') : xs = xs' ∧ ys = ys' := by
  induction xs generalizing xs' with
  | nil =>
    cases xs' with
    | nil => exact ⟨rfl, List.tail_eq_of_cons_eq h⟩
    | cons x xs' => exact absurd (List.head_eq_of_cons_eq h ▸ List.mem_cons_self) hxs'
  | cons x xs ih =>
    cases xs' with
    | nil => exact absurd (List.head_eq_of_cons_eq h ▸ List.mem_cons_self) hxs
    | cons x' xs' =>
      obtain ⟨rfl, htail⟩ := List.cons_eq_cons.1 h
      obtain ⟨rfl, hys⟩ := ih (fun hm => hxs (List.mem_cons_of_mem _ hm))
        (fun hm => hxs' (List.mem_cons_of_mem _ hm)) htail
      exact ⟨rfl, hys⟩

/-! ### Fixed-width numbers -/

def bigEndian : Nat → Nat → List UInt8
  | 0, _ => []
  | width + 1, n => bigEndian width (n / 256) ++ [UInt8.ofNat n]

theorem length_bigEndian (width n : Nat) : (bigEndian width n).length = width := by
  induction width generalizing n with
  | zero => rfl
  | succ width ih => rw [bigEndian, List.length_append, ih, List.length_singleton]

theorem bigEndian_injective {width n m : Nat} (hn : n < 256 ^ width) (hm : m < 256 ^ width)
    (h : bigEndian width n = bigEndian width m) : n = m := by
  induction width generalizing n m with
  | zero =>
    rw [Nat.pow_zero] at hn hm
    omega
  | succ width ih =>
    obtain ⟨hhigh, hlow⟩ := List.append_inj' h rfl
    have hdiv : n / 256 = m / 256 := by
      refine ih (Nat.div_lt_of_lt_mul ?_) (Nat.div_lt_of_lt_mul ?_) hhigh
      · rwa [← Nat.pow_succ']
      · rwa [← Nat.pow_succ']
    have hmod : n % 256 = m % 256 := by
      have hbyte := congrArg UInt8.toNat (List.singleton_inj.1 hlow)
      rwa [UInt8.toNat_ofNat', UInt8.toNat_ofNat'] at hbyte
    omega

/-! ### Decimal -/

/-- What a parser of unsigned `width`-bit numbers accepts: digits, of any number and after an
optional plus sign. -/
def parseUnsigned (width : Nat) (text : List Char) : Option Nat :=
  let digits := if text.head? = some '+' then text.tail else text
  if digits = [] ∨ !digits.all Char.isDigit then none
  else if Nat.ofDigitChars 10 digits 0 < 2 ^ width then some (Nat.ofDigitChars 10 digits 0)
  else none

theorem isDigit_of_mem_toDigits {n : Nat} {c : Char} (h : c ∈ Nat.toDigits 10 n) :
    c.isDigit = true :=
  Nat.isDigit_of_mem_toDigits (by decide) (by decide) h

theorem parseUnsigned_toDigits {width n : Nat} (h : n < 2 ^ width) :
    parseUnsigned width (Nat.toDigits 10 n) = some n := by
  have hplus : (Nat.toDigits 10 n).head? ≠ some '+' := fun hhead =>
    absurd (isDigit_of_mem_toDigits (List.mem_of_mem_head? hhead)) (by decide)
  have hdigits : ¬ (Nat.toDigits 10 n = [] ∨ (!(Nat.toDigits 10 n).all Char.isDigit) = true) := by
    rintro (hnil | hall)
    · exact Nat.toDigits_ne_nil hnil
    · rw [List.all_eq_true.2 fun c hc => isDigit_of_mem_toDigits hc] at hall
      cases hall
  rw [parseUnsigned, if_neg hplus, if_neg hdigits, Nat.ofDigitChars_ten_toDigits, if_pos h]

theorem newline_notMem_encode_toDigits (n : Nat) :
    (10 : UInt8) ∉ Utf8.encode (String.ofList (Nat.toDigits 10 n)) := by
  intro hmem
  rw [Utf8.encode, String.toList_ofList] at hmem
  obtain ⟨c, hc, hbyte⟩ := List.mem_flatMap.1 hmem
  obtain ⟨hlow, hhigh⟩ : 48 ≤ c.toNat ∧ c.toNat ≤ 57 :=
    Char.isDigit_iff_toNat.1 (isDigit_of_mem_toDigits hc)
  have hascii : c.val ≤ 127 := UInt32.le_iff_toNat_le.2 (Nat.le_trans hhigh (by decide))
  rw [String.utf8EncodeChar_eq_singleton (Char.utf8Size_eq_one_iff.2 hascii)] at hbyte
  have hvalue : 10 = c.toNat % 2 ^ 8 :=
    (congrArg UInt8.toNat (List.mem_singleton.1 hbyte)).trans (UInt32.toNat_toUInt8 c.val)
  omega

theorem toDigits_injective {n m : Nat} (h : Nat.toDigits 10 n = Nat.toDigits 10 m) : n = m := by
  rw [← Nat.ofDigitChars_ten_toDigits (n := n), h, Nat.ofDigitChars_ten_toDigits]

/-! ### Base64 -/

def alphabet : List Char :=
  "ABCDEFGHIJKLMNOPQRSTUVWXYZabcdefghijklmnopqrstuvwxyz0123456789-_".toList

def symbol (sextet : Nat) : Char := alphabet.getD sextet 'A'

def sextet (symbol : Char) : Option Nat := alphabet.idxOf? symbol

theorem sextet_symbol {n : Nat} (h : n < 64) : sextet (symbol n) = some n := by
  have hall : ∀ k : Fin 64, sextet (symbol k) = some k.val := by decide +kernel
  exact hall ⟨n, h⟩

theorem symbol_mem (n : Nat) : symbol n ∈ alphabet := by
  rcases Nat.lt_or_ge n alphabet.length with hn | hn
  · rw [symbol, List.getD_eq_getElem _ _ hn]
    exact List.getElem_mem hn
  · rw [symbol, List.getD_eq_default _ _ hn]
    decide

def toBase64 : List UInt8 → List Char
  | a :: b :: c :: rest =>
    symbol (a.toNat / 4) :: symbol (a.toNat % 4 * 16 + b.toNat / 16) ::
      symbol (b.toNat % 16 * 4 + c.toNat / 64) :: symbol (c.toNat % 64) :: toBase64 rest
  | [a, b] =>
    [symbol (a.toNat / 4), symbol (a.toNat % 4 * 16 + b.toNat / 16), symbol (b.toNat % 16 * 4)]
  | [a] => [symbol (a.toNat / 4), symbol (a.toNat % 4 * 16)]
  | [] => []

/-- The bits that a shorter last group leaves over must be zero. -/
def ofBase64 : List Char → Option (List UInt8)
  | a :: b :: c :: d :: rest => do
    let a ← sextet a
    let b ← sextet b
    let c ← sextet c
    let d ← sextet d
    let bytes ← ofBase64 rest
    some (UInt8.ofNat (a * 4 + b / 16) :: UInt8.ofNat (b % 16 * 16 + c / 4) ::
      UInt8.ofNat (c % 4 * 64 + d) :: bytes)
  | [a, b, c] => do
    let a ← sextet a
    let b ← sextet b
    let c ← sextet c
    if c % 4 = 0 then some [UInt8.ofNat (a * 4 + b / 16), UInt8.ofNat (b % 16 * 16 + c / 4)]
    else none
  | [a, b] => do
    let a ← sextet a
    let b ← sextet b
    if b % 16 = 0 then some [UInt8.ofNat (a * 4 + b / 16)] else none
  | [_] => none
  | [] => some []

theorem ofNat_eq {n : Nat} {a : UInt8} (h : n = a.toNat) : UInt8.ofNat n = a := by
  rw [h, UInt8.ofNat_toNat]

theorem ofBase64_toBase64 (bytes : List UInt8) : ofBase64 (toBase64 bytes) = some bytes := by
  fun_induction toBase64 bytes with
  | case1 a b c rest ih =>
    have ha := a.toNat_lt
    have hb := b.toNat_lt
    have hc := c.toNat_lt
    rw [ofBase64, sextet_symbol (by omega), sextet_symbol (by omega), sextet_symbol (by omega),
      sextet_symbol (by omega), ih]
    simp only [Option.bind_eq_bind, Option.bind_some]
    rw [ofNat_eq (a := a) (by omega), ofNat_eq (a := b) (by omega), ofNat_eq (a := c) (by omega)]
  | case2 a b =>
    have ha := a.toNat_lt
    have hb := b.toNat_lt
    rw [ofBase64, sextet_symbol (by omega), sextet_symbol (by omega), sextet_symbol (by omega)]
    simp only [Option.bind_eq_bind, Option.bind_some]
    rw [if_pos (by omega), ofNat_eq (a := a) (by omega), ofNat_eq (a := b) (by omega)]
  | case3 a =>
    have ha := a.toNat_lt
    rw [ofBase64, sextet_symbol (by omega), sextet_symbol (by omega)]
    simp only [Option.bind_eq_bind, Option.bind_some]
    rw [if_pos (by omega), ofNat_eq (a := a) (by omega)]
  | case4 => rfl

theorem mem_alphabet_of_mem_toBase64 {bytes : List UInt8} {c : Char} (h : c ∈ toBase64 bytes) :
    c ∈ alphabet := by
  fun_induction toBase64 bytes with
  | case1 a b d rest ih =>
    simp only [List.mem_cons] at h
    rcases h with rfl | rfl | rfl | rfl | h
    iterate 4 exact symbol_mem _
    exact ih h
  | case2 a b =>
    simp only [List.mem_cons, List.not_mem_nil, or_false] at h
    rcases h with rfl | rfl | rfl <;> exact symbol_mem _
  | case3 a =>
    simp only [List.mem_cons, List.not_mem_nil, or_false] at h
    rcases h with rfl | rfl <;> exact symbol_mem _
  | case4 => cases h

theorem toBase64_ne_nil {bytes : List UInt8} (h : bytes ≠ []) : toBase64 bytes ≠ [] := by
  fun_cases toBase64 bytes <;> first | exact List.cons_ne_nil _ _ | exact absurd rfl h

/-- The text of `toString("base64url")`, in UTF-16. -/
def base64url (bytes : List UInt8) : List UInt16 :=
  (toBase64 bytes).map fun c => UInt16.ofNat c.toNat

theorem map_base64url (bytes : List UInt8) :
    ((base64url bytes).map fun u => Char.ofNat u.toNat) = toBase64 bytes := by
  have hascii : alphabet.all (fun c => Char.ofNat (UInt16.ofNat c.toNat).toNat = c) = true := by
    decide
  have hchar : ∀ c ∈ toBase64 bytes, Char.ofNat (UInt16.ofNat c.toNat).toNat = c := fun c hc =>
    of_decide_eq_true (List.all_eq_true.1 hascii c (mem_alphabet_of_mem_toBase64 hc))
  rw [base64url, List.map_map]
  exact (List.map_congr_left hchar).trans (List.map_id _)

theorem notMem_base64url {u : UInt16} (hu : alphabet.all (fun c => UInt16.ofNat c.toNat ≠ u) = true)
    (bytes : List UInt8) : u ∉ base64url bytes := by
  intro h
  obtain ⟨c, hc, heq⟩ := List.mem_map.1 h
  exact of_decide_eq_true (List.all_eq_true.1 hu c (mem_alphabet_of_mem_toBase64 hc)) heq

/-- Stands for an HMAC-SHA256 where a run is evaluated: 32 bytes on which every byte of the
message has an influence. -/
def tag (message : List UInt8) : List UInt8 :=
  bigEndian 32 (message.foldl (fun n byte => n * 257 + byte.toNat + 1) 0)

end SmartC.Encodings
