import Mathlib.Algebra.Group.Int.Defs
import Mathlib.Algebra.GroupWithZero.Nat
import Mathlib.Data.List.Basic
import Mathlib.Data.Rat.Defs

/-!
# JavaScript strings and JSON values

A JavaScript string is a sequence of UTF-16 units in which a surrogate may
stand alone, and the bytes it takes in UTF-8 are those of its encoding with
every lone surrogate replaced. A JSON value is what `JSON.parse` returns.
-/

namespace SmartC.Lsp

abbrev JsString := List UInt16

instance : LawfulBEq JsString := inferInstance

/-- A string literal of the source. All of them are ASCII, so that every byte is a unit. -/
def js (s : String) : JsString := s.toUTF8.data.toList.map fun c => c.toUInt16

def lineFeed : UInt16 := 10

def carriageReturn : UInt16 := 13

def isHighSurrogate (u : UInt16) : Bool := 0xD800 ≤ u && u ≤ 0xDBFF

def isLowSurrogate (u : UInt16) : Bool := 0xDC00 ≤ u && u ≤ 0xDFFF

def loneCodePoint (u : UInt16) : Nat :=
  if isHighSurrogate u || isLowSurrogate u then 0xFFFD else u.toNat

def codePoints : JsString → List Nat
  | [] => []
  | [u] => [loneCodePoint u]
  | hi :: lo :: rest =>
    if isHighSurrogate hi && isLowSurrogate lo then
      (0x10000 + (hi.toNat - 0xD800) * 0x400 + (lo.toNat - 0xDC00)) :: codePoints rest
    else loneCodePoint hi :: codePoints (lo :: rest)

def encodeCodePoint (c : Nat) : List UInt8 :=
  let tail (shift : Nat) : UInt8 := UInt8.ofNat (0x80 + c / 2 ^ shift % 0x40)
  if c < 0x80 then [UInt8.ofNat c]
  else if c < 0x800 then [UInt8.ofNat (0xC0 + c / 2 ^ 6), tail 0]
  else if c < 0x10000 then [UInt8.ofNat (0xE0 + c / 2 ^ 12), tail 6, tail 0]
  else [UInt8.ofNat (0xF0 + c / 2 ^ 18), tail 12, tail 6, tail 0]

/-- What `writeFile(…, text, "utf8")` stores. -/
def toUtf8 (s : JsString) : List UInt8 := (codePoints s).flatMap encodeCodePoint

/-- `Buffer.byteLength(text, "utf8")` -/
def byteLength (s : JsString) : Nat := (toUtf8 s).length

theorem codePoints_cons {u : UInt16} (hu : isHighSurrogate u = false) (s : JsString) :
    codePoints (u :: s) = loneCodePoint u :: codePoints s := by
  cases s with
  | nil => rfl
  | cons lo rest => simp [codePoints, hu]

/-- `JSON.parse` reads a literal that is too large as an infinity. -/
inductive JsNumber
  | finite (q : ℚ)
  | infinite (negative : Bool)
  deriving DecidableEq

def maxSafeInteger : Int := 2 ^ 53 - 1

/-- The value for which `Number.isSafeInteger` holds. -/
def JsNumber.safeInteger : JsNumber → Option Int
  | .finite q => if q.den = 1 ∧ -maxSafeInteger ≤ q.num ∧ q.num ≤ maxSafeInteger then some q.num
    else none
  | .infinite _ => none

theorem JsNumber.safeInteger_finite {n k : Int} (h : (JsNumber.finite n).safeInteger = some k) :
    k = n := by
  simp only [JsNumber.safeInteger] at h
  split at h
  · simpa using h.symm
  · cases h

inductive Json
  | null
  | bool (b : Bool)
  | number (x : JsNumber)
  | string (s : JsString)
  | array (elements : List Json)
  | object (fields : List (JsString × Json))

/-! A value that a program reads from a JSON object may be undefined, which is
`none`. -/

namespace Value

def isJsonObject : Option Json → Bool
  | some (.object _) => true
  | _ => false

def property (key : String) : Option Json → Option Json
  | some (.object fields) => fields.lookup (js key)
  | _ => none

def string : Option Json → Option JsString
  | some (.string s) => some s
  | _ => none

def array : Option Json → Option (List Json)
  | some (.array elements) => some elements
  | _ => none

def safeInteger : Option Json → Option Int
  | some (.number x) => x.safeInteger
  | _ => none

/-- `value === undefined || value === null` -/
def isNullish : Option Json → Bool
  | none | some .null => true
  | _ => false

/-- `isJsonObject(value) && Object.keys(value).length === 0` -/
def isEmptyObject : Option Json → Bool
  | some (.object []) => true
  | _ => false

end Value

end SmartC.Lsp
