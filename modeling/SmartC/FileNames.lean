import Mathlib.Computability.RegularExpressions
import SmartC.Lsp.Workspace
import SmartC.Protocol
import SmartC.Utf16

/-!
# The names of source files

The contract package checks a name with a regular expression over UTF-16
units, the protocol crate strips an ending and looks at the bytes of the rest.
Both accept the names that consist of a stem and an ending, which are ASCII,
so that units, bytes and characters are the same.
-/

namespace SmartC

open Lsp

/-! ### The contract package -/

theorem isNameStart_iff {u : UInt16} : isNameStart u = true ↔
    0x41 ≤ u.toNat ∧ u.toNat ≤ 0x5A ∨ 0x61 ≤ u.toNat ∧ u.toNat ≤ 0x7A ∨
      0x30 ≤ u.toNat ∧ u.toNat ≤ 0x39 := by
  simp [isNameStart, UInt16.le_iff_toNat_le, or_assoc]

theorem isNameUnit_iff {u : UInt16} : isNameUnit u = true ↔
    isNameStart u = true ∨ u = 0x5F ∨ u = 0x2D := by
  simp [isNameUnit, or_assoc]

theorem isNameUnit_lt {u : UInt16} (h : isNameUnit u = true) : u.toNat < 0x80 := by
  rcases isNameUnit_iff.1 h with h | rfl | rfl
  · rw [isNameStart_iff] at h
    omega
  · decide
  · decide

theorem isValidSourceFileName_units {name : JsString} : Lsp.isValidSourceFileName name = true ↔
    ∃ first rest ending, name = first :: rest ++ ending ∧ isNameStart first = true ∧
      (∀ u ∈ rest, isNameUnit u = true) ∧ (ending = js ".c" ∨ ending = js ".h") ∧
      name.length ≤ SOURCE_FILE_NAME_MAX_LENGTH := by
  simp only [Lsp.isValidSourceFileName, Bool.and_eq_true, decide_eq_true_eq, List.contains_iff_mem,
    List.mem_cons, List.not_mem_nil, or_false]
  constructor
  · rintro ⟨⟨hlength, hending⟩, hstem⟩
    have hsplit := (List.take_append_drop (name.length - 2) name).symm
    generalize name.take (name.length - 2) = stem at hstem hsplit
    cases stem with
    | nil => cases hstem
    | cons first rest =>
      obtain ⟨hfirst, hrest⟩ := Bool.and_eq_true_iff.1 hstem
      exact ⟨first, rest, _, hsplit, hfirst, List.all_eq_true.1 hrest, hending, hlength⟩
  · rintro ⟨first, rest, ending, rfl, hfirst, hrest, hending, hlength⟩
    have htwo : ending.length = 2 := by rcases hending with rfl | rfl <;> rfl
    rw [List.length_append, htwo, Nat.add_sub_cancel, List.drop_left, List.take_left]
    rw [List.length_append, htwo] at hlength
    exact ⟨⟨hlength, hending⟩, Bool.and_eq_true_iff.2 ⟨hfirst, List.all_eq_true.2 hrest⟩⟩

theorem isAscii_of_valid {name : JsString} (h : Lsp.isValidSourceFileName name = true) :
    IsAscii name := by
  obtain ⟨first, rest, ending, rfl, hfirst, hrest, hending, -⟩ := isValidSourceFileName_units.1 h
  intro u hu
  rcases List.mem_append.1 hu with hu | hu
  · rcases List.mem_cons.1 hu with rfl | hu
    · exact isNameUnit_lt (isNameUnit_iff.2 (.inl hfirst))
    · exact isNameUnit_lt (hrest u hu)
  · rcases hending with rfl | rfl
    · exact isAscii_of_all (by decide) u hu
    · exact isAscii_of_all (by decide) u hu

/-! ### The pattern -/

def unitsIn (ranges : List (Nat × Nat)) : List UInt16 :=
  ranges.flatMap fun r => (List.range' r.1 (r.2 + 1 - r.1)).map UInt16.ofNat

def oneOf (units : List UInt16) : RegularExpression UInt16 := (units.map .char).sum

def alphanumeric : List (Nat × Nat) := [(0x41, 0x5A), (0x61, 0x7A), (0x30, 0x39)]

/-- `^[A-Za-z0-9][A-Za-z0-9_-]*\.(?:c|h)$` -/
def sourceFilePattern : RegularExpression UInt16 :=
  oneOf (unitsIn alphanumeric) *
    ((oneOf (unitsIn (alphanumeric ++ [(0x5F, 0x5F), (0x2D, 0x2D)]))).star *
      (.char 0x2E * (.char 0x63 + .char 0x68)))

theorem mem_unitsIn {ranges : List (Nat × Nat)} (h : ∀ r ∈ ranges, r.2 < 2 ^ 16) {u : UInt16} :
    u ∈ unitsIn ranges ↔ ∃ r ∈ ranges, r.1 ≤ u.toNat ∧ u.toNat ≤ r.2 := by
  simp only [unitsIn, List.mem_flatMap, List.mem_map, List.mem_range'_1]
  refine exists_congr fun r => and_congr_right fun hr => ⟨?_, ?_⟩
  · rintro ⟨n, hn, rfl⟩
    have hlt := h r hr
    rw [UInt16.toNat_ofNat', Nat.mod_eq_of_lt (by omega)]
    omega
  · rintro ⟨hlower, hupper⟩
    exact ⟨u.toNat, by omega, UInt16.ofNat_toNat⟩

theorem matches_oneOf {units : List UInt16} {w : JsString} :
    w ∈ (oneOf units).matches' ↔ ∃ u ∈ units, w = [u] := by
  unfold oneOf
  induction units with
  | nil => simp
  | cons u units ih =>
    have hchar : w ∈ (RegularExpression.char u).matches' ↔ w = [u] := Iff.rfl
    rw [List.map_cons, List.sum_cons, RegularExpression.matches'_add, Language.mem_add, ih, hchar]
    simp

theorem matches_star_oneOf {units : List UInt16} {w : JsString} :
    w ∈ (oneOf units).star.matches' ↔ ∀ u ∈ w, u ∈ units := by
  rw [RegularExpression.matches'_star, Language.mem_kstar]
  constructor
  · rintro ⟨parts, rfl, hparts⟩ u hu
    obtain ⟨part, hpart, hu⟩ := List.mem_flatten.1 hu
    obtain ⟨v, hv, rfl⟩ := matches_oneOf.1 (hparts part hpart)
    rwa [List.mem_singleton.1 hu]
  · intro hw
    refine ⟨w.map fun u => [u], ?_, fun part hpart => ?_⟩
    · exact (List.flatMap_singleton' w).symm
    · obtain ⟨u, hu, rfl⟩ := List.mem_map.1 hpart
      exact matches_oneOf.2 ⟨u, hw u hu, rfl⟩

theorem mem_alphanumeric {u : UInt16} : u ∈ unitsIn alphanumeric ↔ isNameStart u = true := by
  rw [mem_unitsIn (by decide), isNameStart_iff]
  simp [alphanumeric]

theorem mem_nameUnits {u : UInt16} :
    u ∈ unitsIn (alphanumeric ++ [(0x5F, 0x5F), (0x2D, 0x2D)]) ↔ isNameUnit u = true := by
  rw [mem_unitsIn (by decide), isNameUnit_iff, isNameStart_iff, ← UInt16.toNat_inj,
    ← UInt16.toNat_inj]
  simp [alphanumeric]
  omega

/-- The function of the contract package is the match of the pattern and the bound. -/
theorem isValidSourceFileName_pattern (name : JsString) : Lsp.isValidSourceFileName name =
    (decide (name.length ≤ SOURCE_FILE_NAME_MAX_LENGTH) && sourceFilePattern.rmatch name) := by
  have hending : ∀ w : JsString, w ∈ (.char 0x2E * (.char 0x63 + .char 0x68) :
      RegularExpression UInt16).matches' ↔ w = js ".c" ∨ w = js ".h" := by
    intro w
    have hc : js ".c" = [0x2E] ++ [0x63] := by decide
    have hh : js ".h" = [0x2E] ++ [0x68] := by decide
    rw [RegularExpression.matches'_mul, RegularExpression.matches'_add, Language.mem_mul, hc, hh]
    constructor
    · rintro ⟨_, rfl, _, rfl | rfl, rfl⟩
      · exact .inl rfl
      · exact .inr rfl
    · rintro (rfl | rfl)
      · exact ⟨_, rfl, _, .inl rfl, rfl⟩
      · exact ⟨_, rfl, _, .inr rfl, rfl⟩
  rw [Bool.eq_iff_iff, isValidSourceFileName_units, Bool.and_eq_true, decide_eq_true_eq,
    RegularExpression.rmatch_iff_matches', sourceFilePattern, RegularExpression.matches'_mul,
    RegularExpression.matches'_mul, Language.mem_mul]
  constructor
  · rintro ⟨first, rest, ending, rfl, hfirst, hrest, hend, hlength⟩
    refine ⟨hlength, [first], matches_oneOf.2 ⟨first, mem_alphanumeric.2 hfirst, rfl⟩, rest ++ ending,
      Language.mem_mul.2 ⟨rest, ?_, ending, (hending ending).2 hend, rfl⟩, rfl⟩
    exact matches_star_oneOf.2 fun u hu => mem_nameUnits.2 (hrest u hu)
  · rintro ⟨hlength, start, hstart, tail, htail, rfl⟩
    obtain ⟨first, hfirst, rfl⟩ := matches_oneOf.1 hstart
    obtain ⟨rest, hrest, ending, hend, rfl⟩ := Language.mem_mul.1 htail
    exact ⟨first, rest, ending, rfl, mem_alphanumeric.1 hfirst,
      fun u hu => mem_nameUnits.1 (matches_star_oneOf.1 hrest u hu), (hending ending).1 hend, hlength⟩

/-! ### The protocol crate -/

theorem stripEnding_append (stem ending : Bytes) :
    stripEnding ending (stem ++ ending) = some stem := by
  rw [stripEnding, if_pos (List.isSuffixOf_iff_suffix.2 (List.suffix_append _ _)),
    List.length_append, Nat.add_sub_cancel, List.take_left]

theorem append_of_stripEnding {stem ending bytes : Bytes}
    (h : stripEnding ending bytes = some stem) : bytes = stem ++ ending := by
  unfold stripEnding at h
  split at h
  · next hsuffix =>
    obtain ⟨stem', rfl⟩ := List.isSuffixOf_iff_suffix.1 hsuffix
    rw [List.length_append, Nat.add_sub_cancel, List.take_left] at h
    rw [Option.some.inj h]
  · cases h

theorem stripEnding_other (stem : Bytes) :
    stripEnding (utf8 ".c") (stem ++ utf8 ".h") = none := by
  refine if_neg fun h => ?_
  obtain ⟨stem', heq⟩ := List.isSuffixOf_iff_suffix.1 h
  have hlast := congrArg List.getLast? heq
  rw [List.getLast?_append, List.getLast?_append] at hlast
  exact absurd (Option.some.inj hlast : (0x63 : UInt8) = 0x68) (by decide)

theorem stripped_iff {stem bytes : Bytes} :
    (stripEnding (utf8 ".c") bytes).or (stripEnding (utf8 ".h") bytes) = some stem ↔
      ∃ ending, (ending = utf8 ".c" ∨ ending = utf8 ".h") ∧ bytes = stem ++ ending := by
  constructor
  · intro h
    rcases Option.or_eq_some_iff.1 h with h | ⟨-, h⟩
    · exact ⟨_, .inl rfl, append_of_stripEnding h⟩
    · exact ⟨_, .inr rfl, append_of_stripEnding h⟩
  · rintro ⟨ending, rfl | rfl, rfl⟩
    · rw [stripEnding_append]
      rfl
    · rw [stripEnding_other, stripEnding_append]
      rfl

def isNameByte (b : UInt8) : Bool := isAsciiAlphanumeric b || b == 0x5f || b == 0x2d

theorem isValidSourceFileName_bytes {name : String} : isValidSourceFileName name = true ↔
    ∃ first rest ending, utf8 name = first :: rest ++ ending ∧ isAsciiAlphanumeric first = true ∧
      (∀ b ∈ rest, isNameByte b = true) ∧ (ending = utf8 ".c" ∨ ending = utf8 ".h") ∧
      (utf8 name).length ≤ sourceFileNameMaxBytes := by
  unfold isValidSourceFileName
  generalize utf8 name = bytes
  simp only
  constructor
  · intro h
    split at h
    · cases h
    · next hlength =>
      split at h
      · cases h
      · cases h
      · next first rest hstem =>
        obtain ⟨ending, hending, rfl⟩ := stripped_iff.1 hstem
        obtain ⟨hfirst, hrest⟩ := Bool.and_eq_true_iff.1 h
        exact ⟨first, rest, ending, rfl, hfirst, List.all_eq_true.1 hrest, hending,
          Nat.le_of_not_lt hlength⟩
  · rintro ⟨first, rest, ending, rfl, hfirst, hrest, hending, hlength⟩
    have hstem : (stripEnding (utf8 ".c") (first :: rest ++ ending)).or
        (stripEnding (utf8 ".h") (first :: rest ++ ending)) = some (first :: rest) :=
      stripped_iff.2 ⟨ending, hending, rfl⟩
    rw [if_neg (Nat.not_lt.2 hlength), hstem]
    exact Bool.and_eq_true_iff.2 ⟨hfirst, List.all_eq_true.2 hrest⟩

/-! ### The same language -/

theorem isNameStart_toUInt16 (b : UInt8) : isNameStart b.toUInt16 = isAsciiAlphanumeric b := by
  rw [Bool.eq_iff_iff, isNameStart_iff, UInt8.toNat_toUInt16]
  simp [isAsciiAlphanumeric, UInt8.le_iff_toNat_le]
  omega

theorem isNameUnit_toUInt16 (b : UInt8) : isNameUnit b.toUInt16 = isNameByte b := by
  rw [Bool.eq_iff_iff, isNameUnit_iff, isNameStart_toUInt16, ← UInt16.toNat_inj,
    ← UInt16.toNat_inj, UInt8.toNat_toUInt16]
  simp [isNameByte, ← UInt8.toNat_inj, or_assoc]

theorem map_toUInt16_toUInt8 {name : JsString} (h : IsAscii name) :
    (name.map (·.toUInt8)).map (·.toUInt16) = name := by
  rw [List.map_map]
  refine (List.map_congr_left fun u hu => ?_).trans (List.map_id name)
  have hlt := h u hu
  refine UInt16.toNat_inj.1 ?_
  show u.toUInt8.toUInt16.toNat = u.toNat
  rw [UInt8.toNat_toUInt16, UInt16.toNat_toUInt8]
  omega

theorem map_toUInt16_eq_js {ending : Bytes} :
    (ending = utf8 ".c" ∨ ending = utf8 ".h") ↔
      (ending.map (·.toUInt16) = js ".c" ∨ ending.map (·.toUInt16) = js ".h") := by
  have hinjective : Function.Injective (List.map UInt8.toUInt16) :=
    List.map_injective_iff.2 fun a b hab => UInt8.toUInt16_inj.1 hab
  have hc : (utf8 ".c").map UInt8.toUInt16 = js ".c" := by decide
  have hh : (utf8 ".h").map UInt8.toUInt16 = js ".h" := by decide
  rw [← hc, ← hh]
  exact or_congr hinjective.eq_iff.symm hinjective.eq_iff.symm

theorem isValidSourceFileName_asciiText {name : JsString} (h : IsAscii name) :
    isValidSourceFileName (asciiText name) = Lsp.isValidSourceFileName name := by
  have hbytes : utf8 (asciiText name) = name.map (·.toUInt8) := encode_asciiText h
  have hname := map_toUInt16_toUInt8 h
  rw [Bool.eq_iff_iff, isValidSourceFileName_bytes, isValidSourceFileName_units, hbytes]
  generalize name.map (·.toUInt8) = bytes at hname
  subst hname
  rw [List.length_map]
  constructor
  · rintro ⟨first, rest, ending, rfl, hfirst, hrest, hending, hlength⟩
    refine ⟨first.toUInt16, rest.map (·.toUInt16), ending.map (·.toUInt16), ?_, ?_, ?_,
      map_toUInt16_eq_js.1 hending, hlength⟩
    · rw [List.map_append, List.map_cons]
    · rwa [isNameStart_toUInt16]
    · exact List.forall_mem_map.2 fun b hb => by rw [isNameUnit_toUInt16, hrest b hb]
  · rintro ⟨first, rest, ending, hsplit, hfirst, hrest, hending, hlength⟩
    obtain ⟨stem, ending, rfl, hstem, rfl⟩ := List.map_eq_append_iff.1 hsplit
    obtain ⟨first, rest, rfl, rfl, rfl⟩ := List.map_eq_cons_iff.1 hstem
    refine ⟨first, rest, ending, rfl, ?_, fun b hb => ?_, map_toUInt16_eq_js.2 hending, hlength⟩
    · rwa [← isNameStart_toUInt16]
    · rw [← isNameUnit_toUInt16]
      exact hrest _ (List.mem_map_of_mem hb)

theorem isNameByte_lt {b : UInt8} (h : isNameByte b = true) : b.toNat < 0x80 := by
  rw [← isNameUnit_toUInt16] at h
  simpa using isNameUnit_lt h

theorem bytes_lt_of_valid {name : String} (h : isValidSourceFileName name = true) :
    ∀ b ∈ utf8 name, b.toNat < 0x80 := by
  obtain ⟨first, rest, ending, hbytes, hfirst, hrest, hending, -⟩ := isValidSourceFileName_bytes.1 h
  intro b hb
  rw [hbytes] at hb
  rcases List.mem_append.1 hb with hb | hb
  · rcases List.mem_cons.1 hb with rfl | hb
    · exact isNameByte_lt (by rw [isNameByte, hfirst]; rfl)
    · exact isNameByte_lt (hrest b hb)
  · have hascii : (utf8 ".c" ++ utf8 ".h").all (·.toNat < 0x80) = true := by decide
    have hmem : b ∈ utf8 ".c" ++ utf8 ".h" := by
      rcases hending with rfl | rfl
      · exact List.mem_append_left _ hb
      · exact List.mem_append_right _ hb
    exact of_decide_eq_true (List.all_eq_true.1 hascii b hmem)

theorem exists_asciiText {name : String} (h : isValidSourceFileName name = true) :
    ∃ units, IsAscii units ∧ asciiText units = name := by
  have hlt := bytes_lt_of_valid h
  have hascii : IsAscii ((utf8 name).map (·.toUInt16)) := by
    refine List.forall_mem_map.2 fun b hb => ?_
    rw [UInt8.toNat_toUInt16]
    exact hlt b hb
  refine ⟨_, hascii, Utf8.encode_injective ?_⟩
  rw [encode_asciiText hascii, List.map_map]
  refine (List.map_congr_left fun b _ => ?_).trans (List.map_id _)
  exact UInt8.toUInt8_toUInt16 b

/-- Both functions accept the same texts: the one over the bytes of UTF-8, and the one over the
units of UTF-16, which is the match of the pattern and the bound on the length. -/
theorem validators_accept_same_names (name : String) :
    (isValidSourceFileName name = true ↔ Lsp.isValidSourceFileName (ofUnicode name) = true) ∧
    Lsp.isValidSourceFileName (ofUnicode name) =
      (decide ((ofUnicode name).length ≤ SOURCE_FILE_NAME_MAX_LENGTH) &&
        sourceFilePattern.rmatch (ofUnicode name)) := by
  refine ⟨⟨fun h => ?_, fun h => ?_⟩, isValidSourceFileName_pattern _⟩
  · obtain ⟨units, hascii, rfl⟩ := exists_asciiText h
    rwa [ofUnicode_asciiText hascii, ← isValidSourceFileName_asciiText hascii]
  · have hascii := isAscii_of_valid h
    have hname : asciiText (ofUnicode name) = name :=
      Option.some.inj ((toUnicode_ascii hascii).symm.trans (toUnicode_ofUnicode name))
    rwa [← hname, isValidSourceFileName_asciiText hascii]

end SmartC
