import SmartC.Lsp.Json
import SmartC.Utf8

/-!
# JavaScript strings as Unicode strings

A JavaScript string is well formed if its surrogates come in pairs. It is then
the string of its `scalars`, with the same UTF-8 encoding.
-/

namespace SmartC.Lsp

def isSurrogate (u : UInt16) : Bool := isHighSurrogate u || isLowSurrogate u

def pairCodePoint (hi lo : UInt16) : Nat :=
  0x10000 + (hi.toNat - 0xD800) * 0x400 + (lo.toNat - 0xDC00)

/-- The characters of a string, if it is well formed. -/
def scalars : JsString → Option (List Char)
  | [] => some []
  | [u] => if isSurrogate u then none else some [Char.ofNat u.toNat]
  | hi :: lo :: rest =>
    if isHighSurrogate hi && isLowSurrogate lo then
      (scalars rest).map (Char.ofNat (pairCodePoint hi lo) :: ·)
    else if isSurrogate hi then none
    else (scalars (lo :: rest)).map (Char.ofNat hi.toNat :: ·)

def toUnicode (s : JsString) : Option String := (scalars s).map String.ofList

/-! ### Units -/

theorem isHighSurrogate_iff {u : UInt16} :
    isHighSurrogate u = true ↔ 0xD800 ≤ u.toNat ∧ u.toNat ≤ 0xDBFF := by
  simp [isHighSurrogate, UInt16.le_iff_toNat_le]

theorem isLowSurrogate_iff {u : UInt16} :
    isLowSurrogate u = true ↔ 0xDC00 ≤ u.toNat ∧ u.toNat ≤ 0xDFFF := by
  simp [isLowSurrogate, UInt16.le_iff_toNat_le]

theorem isSurrogate_eq_false {u : UInt16} :
    isSurrogate u = false ↔ u.toNat < 0xD800 ∨ 0xDFFF < u.toNat := by
  rw [isSurrogate, Bool.or_eq_false_iff, ← Bool.not_eq_true, ← Bool.not_eq_true,
    isHighSurrogate_iff, isLowSurrogate_iff]
  omega

theorem toNat_ofNat {n : Nat} (h : n.isValidChar) : (Char.ofNat n).toNat = n := by
  rw [Char.ofNat, dif_pos h]
  exact UInt32.toNat_ofNatLT

theorem toNat_ofNat_unit {u : UInt16} (h : isSurrogate u = false) :
    (Char.ofNat u.toNat).toNat = u.toNat := by
  rw [isSurrogate_eq_false] at h
  refine toNat_ofNat ?_
  have hlt := u.toNat_lt
  rcases h with h | h
  · exact .inl h
  · exact .inr ⟨h, by omega⟩

theorem toNat_ofNat_pair {hi lo : UInt16} (hhi : isHighSurrogate hi = true)
    (hlo : isLowSurrogate lo = true) :
    (Char.ofNat (pairCodePoint hi lo)).toNat = pairCodePoint hi lo := by
  rw [isHighSurrogate_iff] at hhi
  rw [isLowSurrogate_iff] at hlo
  refine toNat_ofNat (.inr ?_)
  unfold pairCodePoint
  omega

/-! ### Bytes -/

/-- The two descriptions of UTF-8 agree. -/
theorem encodeCodePoint_toNat (c : Char) : encodeCodePoint c.toNat = String.utf8EncodeChar c := by
  have hvalid : c.toNat < 0x110000 := by
    have := c.valid
    unfold UInt32.isValidChar Nat.isValidChar at this
    simp only [Char.toNat]
    omega
  have hval : c.val.toNat = c.toNat := rfl
  simp only [encodeCodePoint, String.utf8EncodeChar, hval]
  generalize c.toNat = v at hvalid
  -- Both have the same cases; within each the bytes agree as numbers.
  split_ifs <;> first
    | omega
    | rfl
    | (simp only [List.cons.injEq, and_true]
       repeat' constructor
       all_goals
         refine congrArg UInt8.ofNat ?_
         omega)

theorem loneCodePoint_of_not_surrogate {u : UInt16} (h : isSurrogate u = false) :
    loneCodePoint u = u.toNat := by
  rw [isSurrogate] at h
  rw [loneCodePoint, h, if_neg Bool.false_ne_true]

theorem codePoints_of_scalars {s : JsString} {cs : List Char} (h : scalars s = some cs) :
    codePoints s = cs.map Char.toNat := by
  fun_induction scalars s generalizing cs with
  | case1 =>
    cases h
    rfl
  | case2 => cases h
  | case3 u hu =>
    cases h
    have hu := eq_false_of_ne_true hu
    rw [codePoints, loneCodePoint_of_not_surrogate hu, List.map_singleton, toNat_ofNat_unit hu]
  | case4 hi lo rest hpair ih =>
    obtain ⟨cs, hcs, rfl⟩ := Option.map_eq_some_iff.1 h
    obtain ⟨hhi, hlo⟩ := Bool.and_eq_true_iff.1 hpair
    have hpoint := toNat_ofNat_pair hhi hlo
    rw [codePoints, if_pos hpair, ih hcs, List.map_cons, hpoint]
    rfl
  | case5 => cases h
  | case6 hi lo rest hpair hhi ih =>
    obtain ⟨cs, hcs, rfl⟩ := Option.map_eq_some_iff.1 h
    have hhi := eq_false_of_ne_true hhi
    rw [codePoints, if_neg hpair, loneCodePoint_of_not_surrogate hhi, ih hcs, List.map_cons,
      toNat_ofNat_unit hhi]

theorem toUtf8_of_toUnicode {s : JsString} {text : String} (h : toUnicode s = some text) :
    toUtf8 s = Utf8.encode text := by
  obtain ⟨cs, hcs, rfl⟩ := Option.map_eq_some_iff.1 h
  rw [toUtf8, codePoints_of_scalars hcs, Utf8.encode, String.toList_ofList, List.flatMap_map]
  exact congrArg (cs.flatMap ·) (funext encodeCodePoint_toNat)

theorem byteLength_of_toUnicode {s : JsString} {text : String} (h : toUnicode s = some text) :
    byteLength s = text.utf8ByteSize := by
  rw [byteLength, toUtf8_of_toUnicode h, Utf8.length_encode]

theorem byteLength_eq_zero {s : JsString} : byteLength s = 0 ↔ s = [] := by
  constructor
  · intro h
    have hflat : (codePoints s).flatMap encodeCodePoint = [] := List.length_eq_zero_iff.1 h
    have hpoints : codePoints s = [] := by
      refine List.eq_nil_iff_forall_not_mem.2 fun c hc => ?_
      have hnil := List.flatMap_eq_nil_iff.1 hflat c hc
      simp only [encodeCodePoint] at hnil
      split_ifs at hnil
    fun_cases codePoints s with
    | case1 => rfl
    | case2 u => simp [codePoints] at hpoints
    | case3 hi lo rest hpair => simp [codePoints, hpair] at hpoints
    | case4 hi lo rest hpair => simp [codePoints, hpair] at hpoints
  · rintro rfl
    rfl

theorem zero_mem_codePoints {s : JsString} : 0 ∈ codePoints s ↔ 0 ∈ s := by
  have hlone : ∀ u : UInt16, 0 = loneCodePoint u ↔ 0 = u := by
    intro u
    unfold loneCodePoint
    split
    · next h =>
      refine iff_of_false (by decide) ?_
      rintro rfl
      exact absurd h (by decide)
    · rw [← UInt16.toNat_inj]
      rfl
  fun_induction codePoints s with
  | case1 => simp
  | case2 u => simp only [List.mem_singleton, hlone]
  | case3 hi lo rest hpair ih =>
    obtain ⟨hhi, hlo⟩ := Bool.and_eq_true_iff.1 hpair
    have hne : ∀ {u : UInt16}, isSurrogate u = true → 0 ≠ u := by
      rintro u hu rfl
      exact absurd hu (by decide)
    have hhi := hne (u := hi) (by simp [isSurrogate, hhi])
    have hlo := hne (u := lo) (by simp [isSurrogate, hlo])
    simp only [List.mem_cons, ih, hhi, hlo, false_or]
    exact or_iff_right (by omega)
  | case4 hi lo rest hpair ih =>
    simp only [List.mem_cons, ih, hlone]

theorem zero_mem_of_toUnicode {s : JsString} {text : String} (h : toUnicode s = some text) :
    '\x00' ∈ text.toList ↔ 0 ∈ s := by
  obtain ⟨cs, hcs, rfl⟩ := Option.map_eq_some_iff.1 h
  rw [← zero_mem_codePoints, codePoints_of_scalars hcs, String.toList_ofList, List.mem_map]
  constructor
  · intro hmem
    exact ⟨_, hmem, rfl⟩
  · rintro ⟨c, hc, hzero⟩
    obtain rfl : c = '\x00' := Char.toNat_inj.1 hzero
    exact hc

/-! ### ASCII -/

def IsAscii (s : JsString) : Prop := ∀ u ∈ s, u.toNat < 0x80

theorem isAscii_of_all {s : JsString} (h : s.all (·.toNat < 0x80) = true) : IsAscii s :=
  fun u hu => of_decide_eq_true (List.all_eq_true.1 h u hu)

def asciiText (s : JsString) : String := String.ofList (s.map fun u => Char.ofNat u.toNat)

theorem scalars_cons {u : UInt16} (hu : isSurrogate u = false) (s : JsString) :
    scalars (u :: s) = (scalars s).map (Char.ofNat u.toNat :: ·) := by
  cases s with
  | nil => simp [scalars, hu]
  | cons lo rest =>
    have hhigh : isHighSurrogate u = false := (Bool.or_eq_false_iff.1 hu).1
    simp [scalars, hhigh, hu]

theorem toUnicode_ascii {s : JsString} (h : IsAscii s) : toUnicode s = some (asciiText s) := by
  have hscalars : scalars s = some (s.map fun u => Char.ofNat u.toNat) := by
    induction s with
    | nil => rfl
    | cons u s ih =>
      obtain ⟨hu, hs⟩ := List.forall_mem_cons.1 h
      rw [scalars_cons (isSurrogate_eq_false.2 (.inl (by omega))), ih hs]
      rfl
  rw [toUnicode, hscalars]
  rfl

theorem toUtf8_ascii {s : JsString} (h : IsAscii s) : toUtf8 s = s.map (·.toUInt8) := by
  induction s with
  | nil => rfl
  | cons u s ih =>
    obtain ⟨hu, hs⟩ := List.forall_mem_cons.1 h
    have hsurrogate : isSurrogate u = false := isSurrogate_eq_false.2 (.inl (by omega))
    rw [toUtf8, codePoints_cons (Bool.or_eq_false_iff.1 hsurrogate).1,
      loneCodePoint_of_not_surrogate hsurrogate, List.flatMap_cons, encodeCodePoint, if_pos hu]
    exact congrArg (_ :: ·) (ih hs)

theorem encode_asciiText {s : JsString} (h : IsAscii s) :
    Utf8.encode (asciiText s) = s.map (·.toUInt8) := by
  rw [← toUtf8_ascii h, toUtf8_of_toUnicode (toUnicode_ascii h)]

theorem asciiText_injective {s t : JsString} (hs : IsAscii s) (ht : IsAscii t)
    (h : asciiText s = asciiText t) : s = t := by
  have hmap : s.map (·.toUInt8.toNat) = t.map (·.toUInt8.toNat) := by
    have hbytes := congrArg Utf8.encode h
    rw [encode_asciiText hs, encode_asciiText ht] at hbytes
    simpa [Function.comp_def] using congrArg (List.map UInt8.toNat) hbytes
  have hnat : ∀ {s : JsString}, IsAscii s → s.map (·.toUInt8.toNat) = s.map (·.toNat) := by
    intro s hs
    refine List.map_congr_left fun u hu => ?_
    have := hs u hu
    rw [UInt16.toNat_toUInt8]
    omega
  rw [hnat hs, hnat ht] at hmap
  exact List.map_injective_iff.2 (fun a b hab => UInt16.toNat_inj.1 hab) hmap

/-! ### Unicode strings as JavaScript strings -/

def encodeChar (c : Char) : JsString :=
  if c.toNat < 0x10000 then [UInt16.ofNat c.toNat]
  else [UInt16.ofNat (0xD800 + (c.toNat - 0x10000) / 0x400),
    UInt16.ofNat (0xDC00 + (c.toNat - 0x10000) % 0x400)]

def ofUnicode (text : String) : JsString := text.toList.flatMap encodeChar

theorem pairCodePoint_halves {n : Nat} (h : n < 0x100000) :
    isHighSurrogate (UInt16.ofNat (0xD800 + n / 0x400)) = true ∧
    isLowSurrogate (UInt16.ofNat (0xDC00 + n % 0x400)) = true ∧
    pairCodePoint (UInt16.ofNat (0xD800 + n / 0x400)) (UInt16.ofNat (0xDC00 + n % 0x400)) =
      n + 0x10000 := by
  have hhi : (UInt16.ofNat (0xD800 + n / 0x400)).toNat = 0xD800 + n / 0x400 := by
    rw [UInt16.toNat_ofNat']
    omega
  have hlo : (UInt16.ofNat (0xDC00 + n % 0x400)).toNat = 0xDC00 + n % 0x400 := by
    rw [UInt16.toNat_ofNat']
    omega
  refine ⟨isHighSurrogate_iff.2 ?_, isLowSurrogate_iff.2 ?_, ?_⟩
  · rw [hhi]
    omega
  · rw [hlo]
    omega
  · unfold pairCodePoint
    rw [hhi, hlo]
    omega

theorem scalars_encodeChar (c : Char) (s : JsString) :
    scalars (encodeChar c ++ s) = (scalars s).map (c :: ·) := by
  have hvalid : c.toNat < 0xD800 ∨ 0xDFFF < c.toNat ∧ c.toNat < 0x110000 := c.valid
  unfold encodeChar
  split
  · next hsmall =>
    have hnat : (UInt16.ofNat c.toNat).toNat = c.toNat := UInt16.toNat_ofNat_of_lt hsmall
    have hsurrogate : isSurrogate (UInt16.ofNat c.toNat) = false := by
      rw [isSurrogate_eq_false, hnat]
      omega
    rw [List.singleton_append, scalars_cons hsurrogate, hnat, Char.ofNat_toNat]
  · next hlarge =>
    obtain ⟨hhigh, hlow, hpoint⟩ := pairCodePoint_halves (n := c.toNat - 0x10000) (by omega)
    have hback : c.toNat - 0x10000 + 0x10000 = c.toNat := by omega
    rw [List.cons_append, List.singleton_append, scalars, hhigh, hlow, Bool.true_and, if_pos rfl,
      hpoint, hback, Char.ofNat_toNat]

theorem toUnicode_ofUnicode (text : String) : toUnicode (ofUnicode text) = some text := by
  have hscalars : ∀ cs : List Char, scalars (cs.flatMap encodeChar) = some cs := by
    intro cs
    induction cs with
    | nil => rfl
    | cons c cs ih =>
      rw [List.flatMap_cons, scalars_encodeChar, ih]
      rfl
  rw [toUnicode, ofUnicode, hscalars, Option.map_some, String.ofList_toList]

theorem ofUnicode_asciiText {s : JsString} (h : IsAscii s) : ofUnicode (asciiText s) = s := by
  rw [ofUnicode, asciiText, String.toList_ofList, List.flatMap_map]
  refine (List.flatMap_congr fun u hu => ?_).trans (List.flatMap_singleton' s)
  have hlt := h u hu
  have hnat : (Char.ofNat u.toNat).toNat = u.toNat :=
    toNat_ofNat_unit (isSurrogate_eq_false.2 (.inl (by omega)))
  rw [encodeChar, hnat, if_pos (by omega), UInt16.ofNat_toNat]

end SmartC.Lsp
