import Mathlib.Data.List.Basic

/-!
# UTF-8 as lists of bytes

The encoding of a string as the list of the bytes of its characters: its
length, where it has a zero byte, and which lists of bytes are encodings.
-/

namespace SmartC.Utf8

def encode (s : String) : List UInt8 := s.toList.flatMap String.utf8EncodeChar

theorem toByteArray_encode (s : String) : (encode s).toByteArray = s.toByteArray :=
  String.utf8Encode_toList

theorem toByteArray_injective {a b : List UInt8} (h : a.toByteArray = b.toByteArray) : a = b := by
  have hdata := congrArg ByteArray.data h
  rw [List.data_toByteArray, List.data_toByteArray] at hdata
  exact congrArg Array.toList hdata

theorem length_encode (s : String) : (encode s).length = s.utf8ByteSize := by
  rw [← List.size_toByteArray, toByteArray_encode, String.size_toByteArray]

theorem encode_injective {s t : String} (h : encode s = encode t) : s = t := by
  rw [← String.toByteArray_inj, ← toByteArray_encode, ← toByteArray_encode, h]

theorem exists_encode {bytes : List UInt8} (h : bytes.toByteArray.IsValidUTF8) :
    ∃ s, encode s = bytes := by
  obtain ⟨cs, hcs⟩ := h
  refine ⟨String.ofList cs, ?_⟩
  rw [encode, String.toList_ofList]
  exact (toByteArray_injective hcs).symm

theorem ofNat_ne_zero {n : Nat} (h : 0 < n % 256) : (0 : UInt8) ≠ UInt8.ofNat n := by
  intro heq
  have hmod := (UInt8.ofNat_eq_iff_mod_eq_toNat n 0).1 heq.symm
  have hzero : (0 : UInt8).toNat = 0 := rfl
  omega

theorem zero_mem_utf8EncodeChar (c : Char) :
    (0 : UInt8) ∈ String.utf8EncodeChar c ↔ c = '\x00' := by
  constructor
  · intro h
    simp only [String.utf8EncodeChar] at h
    repeat' split at h
    · next hsmall =>
      by_contra hc
      have hne : c.val.toNat ≠ 0 := fun hzero => hc (Char.toNat_inj.1 hzero)
      exact ofNat_ne_zero (by omega) (List.mem_singleton.1 h)
    all_goals
      simp only [List.mem_cons, List.not_mem_nil, or_false] at h
      exfalso
    · rcases h with h | h <;> exact ofNat_ne_zero (by omega) h
    · rcases h with h | h | h <;> exact ofNat_ne_zero (by omega) h
    · rcases h with h | h | h | h <;> exact ofNat_ne_zero (by omega) h
  · rintro rfl
    decide

theorem zero_mem_encode (s : String) : (0 : UInt8) ∈ encode s ↔ '\x00' ∈ s.toList := by
  rw [encode, List.mem_flatMap]
  constructor
  · rintro ⟨c, hc, hzero⟩
    rwa [← (zero_mem_utf8EncodeChar c).1 hzero]
  · intro hc
    exact ⟨_, hc, (zero_mem_utf8EncodeChar _).2 rfl⟩

end SmartC.Utf8
