import Mathlib.Data.List.TakeWhile
import SmartC.JsonText

/-!
# Reading JSON in JavaScript

`JSON.parse` on the UTF-16 units of a text. A scanner, one unit at a time, makes
tokens of the text, and a reader makes a value of the tokens. Every unit is
allowed in a string, so that what `JSON.stringify` has written is read as it
was, also where its strings are not well formed. How a literal is rounded to a
number is left open.
-/

namespace SmartC.JsonParse

open Lsp JsonText

/-! ### Numbers -/

def charOf (u : UInt16) : Char := Char.ofNat u.toNat

def isDigitUnit (u : UInt16) : Bool := (charOf u).isDigit

def isDigits (text : JsString) : Bool := !text.isEmpty && text.all isDigitUnit

/-- `([eE][+-]?[0-9]+)?$` -/
def isExponent : JsString → Bool
  | [] => true
  | e :: rest =>
    (charOf e == 'e' || charOf e == 'E') &&
      match rest with
      | [] => false
      | sign :: digits =>
        if charOf sign == '+' || charOf sign == '-' then isDigits digits
        else isDigits (sign :: digits)

/-- `(\.[0-9]+)?([eE][+-]?[0-9]+)?$` -/
def isFraction : JsString → Bool
  | [] => true
  | u :: rest =>
    if charOf u == '.' then
      isDigits (rest.takeWhile isDigitUnit) && isExponent (rest.dropWhile isDigitUnit)
    else isExponent (u :: rest)

/-- `(0|[1-9][0-9]*)(\.[0-9]+)?([eE][+-]?[0-9]+)?$` -/
def isUnsigned : JsString → Bool
  | [] => false
  | u :: rest =>
    if charOf u == '0' then isFraction rest
    else isDigitUnit u && isFraction (rest.dropWhile isDigitUnit)

def isNumber : JsString → Bool
  | [] => false
  | u :: rest => if charOf u == '-' then isUnsigned rest else isUnsigned (u :: rest)

/-! ### Tokens -/

inductive Token
  | leftArray | rightArray | leftObject | rightObject | comma | colon
  | scalar (v : Json)

def mark : Char → Option Token
  | '[' => some .leftArray
  | ']' => some .rightArray
  | '\x7b' => some .leftObject
  | '\x7d' => some .rightObject
  | ',' => some .comma
  | ':' => some .colon
  | _ => none

/-- Where the scanner is; a word is a number or one of the three names. -/
inductive Scan
  | between
  | word (text : JsString)
  | string (s : JsString)
  | escape (s : JsString)
  | hex (s : JsString) (digits value : Nat)

def isWordChar (c : Char) : Bool := c.isAlphanum || c == '-' || c == '+' || c == '.'

section

variable (toNumber : JsString → JsNumber)

def wordValue (text : JsString) : Option Json :=
  if text = js "null" then some .null
  else if text = js "true" then some (.bool true)
  else if text = js "false" then some (.bool false)
  else if isNumber text then some (.number (toNumber text))
  else none

/-- The token that ends here. -/
def flush : Scan → Option (List Token)
  | .between => some []
  | .word text => (wordValue toNumber text).map fun v => [.scalar v]
  | _ => none

def separate (ts : List Token) (c : Char) : Option (List Token × Scan) :=
  if isSpace c then some (ts, .between) else (mark c).map fun t => (ts ++ [t], .between)

def next : Scan → UInt16 → Option (List Token × Scan)
  | .between, u =>
    if charOf u = '"' then some ([], .string [])
    else if isWordChar (charOf u) then some ([], .word [u])
    else separate [] (charOf u)
  | .word text, u =>
    if isWordChar (charOf u) then some ([], .word (text ++ [u]))
    else (flush toNumber (.word text)).bind fun ts => separate ts (charOf u)
  | .string s, u =>
    if charOf u = '"' then some ([.scalar (.string s)], .between)
    else if charOf u = '\\' then some ([], .escape s)
    else if u.toNat < 0x20 then none
    else some ([], .string (s ++ [u]))
  | .escape s, u =>
    if charOf u = 'u' then some ([], .hex s 0 0)
    else (simpleEscape (charOf u)).map fun e => ([], .string (s ++ [UInt16.ofNat e.toNat]))
  | .hex s digits value, u =>
    (hexValue (charOf u)).map fun d =>
      if digits = 3 then ([], .string (s ++ [UInt16.ofNat (value * 16 + d)]))
      else ([], .hex s (digits + 1) (value * 16 + d))

def scan : Scan → JsString → Option (List Token × Scan)
  | state, [] => some ([], state)
  | state, u :: rest =>
    (next toNumber state u).bind fun (ts, state) =>
      (scan state rest).map fun (more, state) => (ts ++ more, state)

def tokenize (text : JsString) : Option (List Token) :=
  (scan toNumber .between text).bind fun (ts, state) =>
    (flush toNumber state).map fun more => ts ++ more

end

/-! ### Values -/

/-- A key that comes again keeps its place and takes the later value. -/
def assign : List (JsString × Json) → JsString × Json → List (JsString × Json)
  | [], field => [field]
  | (key, v) :: rest, field =>
    if key = field.1 then field :: rest else (key, v) :: assign rest field

def fieldsOf (members : List (JsString × Json)) : List (JsString × Json) := members.foldl assign []

mutual

def read : Nat → List Token → Option (Json × List Token)
  | _ + 1, .scalar v :: rest => some (v, rest)
  | _ + 1, .leftArray :: .rightArray :: rest => some (.array [], rest)
  | fuel + 1, .leftArray :: rest => (readElements fuel rest).map fun (vs, rest) => (.array vs, rest)
  | _ + 1, .leftObject :: .rightObject :: rest => some (.object [], rest)
  | fuel + 1, .leftObject :: rest =>
    (readMembers fuel rest).map fun (ms, rest) => (.object (fieldsOf ms), rest)
  | _, _ => none

def readElements : Nat → List Token → Option (List Json × List Token)
  | 0, _ => none
  | fuel + 1, tokens =>
    match read fuel tokens with
    | some (v, .comma :: rest) => (readElements fuel rest).map fun (vs, rest) => (v :: vs, rest)
    | some (v, .rightArray :: rest) => some ([v], rest)
    | _ => none

def readMembers : Nat → List Token → Option (List (JsString × Json) × List Token)
  | fuel + 1, .scalar (.string key) :: .colon :: tokens =>
    match read fuel tokens with
    | some (v, .comma :: rest) =>
      (readMembers fuel rest).map fun (ms, rest) => ((key, v) :: ms, rest)
    | some (v, .rightObject :: rest) => some ([(key, v)], rest)
    | _ => none
  | _, _ => none

end

/-- `JSON.parse`; `none` is a `SyntaxError`. -/
def parse (toNumber : JsString → JsNumber) (text : JsString) : Option Json :=
  match tokenize toNumber text with
  | none => none
  | some tokens =>
    match read tokens.length tokens with
    | some (v, []) => some v
    | _ => none

/-- `JSON.stringify` -/
def stringify (d : Doc) : JsString := d.stringify.flatMap encodeChar

/-! ### The text of a document -/

def numeral (n : Nat) : JsString := (Nat.toDigits 10 n).flatMap encodeChar

section

variable (toNumber : JsString → JsNumber)

mutual

def ofDoc : Doc → Json
  | .number n => .number (toNumber (numeral n))
  | .negative n => .number (toNumber (0x2D :: numeral n))
  | .string s => .string s
  | .array elements => .array (ofElements elements)
  | .object members => .object (fieldsOf (ofMembers members))

def ofElements : List Doc → List Json
  | [] => []
  | d :: rest => ofDoc d :: ofElements rest

def ofMembers : List (JsString × Doc) → List (JsString × Json)
  | [] => []
  | (key, d) :: rest => (key, ofDoc d) :: ofMembers rest

end

mutual

def tokens : Doc → List Token
  | .number n => [.scalar (.number (toNumber (numeral n)))]
  | .negative n => [.scalar (.number (toNumber (0x2D :: numeral n)))]
  | .string s => [.scalar (.string s)]
  | .array elements => .leftArray :: tokensElements elements ++ [.rightArray]
  | .object members => .leftObject :: tokensMembers members ++ [.rightObject]

def tokensElements : List Doc → List Token
  | [] => []
  | [d] => tokens d
  | d :: rest => tokens d ++ .comma :: tokensElements rest

def tokensMembers : List (JsString × Doc) → List Token
  | [] => []
  | [(key, d)] => .scalar (.string key) :: .colon :: tokens d
  | (key, d) :: rest => .scalar (.string key) :: .colon :: tokens d ++ .comma :: tokensMembers rest

end

end

/-! ### Scanning what was written -/

theorem flatMap_encodeChar_cons {c : Char} (h : c.toNat < 0x80) (cs : List Char) :
    (c :: cs).flatMap encodeChar = UInt16.ofNat c.toNat :: cs.flatMap encodeChar := by
  rw [List.flatMap_cons, encodeChar, if_pos (by omega)]
  rfl

theorem charOf_ofNat {c : Char} (h : c.toNat < 0x80) : charOf (UInt16.ofNat c.toNat) = c := by
  have hnat : (UInt16.ofNat c.toNat).toNat = c.toNat :=
    UInt16.toNat_ofNat_of_lt (Nat.lt_trans h (by decide))
  rw [charOf, hnat, Char.ofNat_toNat]

theorem encodeChar_unit {u : UInt16} (h : isSurrogate u = false) :
    encodeChar (Char.ofNat u.toNat) = [u] := by
  have hlt := u.toNat_lt
  rw [encodeChar, toNat_ofNat_unit h, if_pos hlt, UInt16.ofNat_toNat]

theorem encodeChar_pair {hi lo : UInt16} (hhi : isHighSurrogate hi = true)
    (hlo : isLowSurrogate lo = true) :
    encodeChar (Char.ofNat (pairCodePoint hi lo)) = [hi, lo] := by
  have h₁ := isHighSurrogate_iff.1 hhi
  have h₂ := isLowSurrogate_iff.1 hlo
  rw [encodeChar, toNat_ofNat_pair hhi hlo, if_neg (by unfold pairCodePoint; omega)]
  have hhalf : 0xD800 + (pairCodePoint hi lo - 0x10000) / 0x400 = hi.toNat := by
    unfold pairCodePoint
    omega
  have hrest : 0xDC00 + (pairCodePoint hi lo - 0x10000) % 0x400 = lo.toNat := by
    unfold pairCodePoint
    omega
  rw [hhalf, hrest, UInt16.ofNat_toNat, UInt16.ofNat_toNat]

variable {toNumber : JsString → JsNumber} {state state' : Scan} {ts ts' : List Token}
  {text text' s : JsString}

theorem scan_append : scan toNumber state (text ++ text') =
    (scan toNumber state text).bind fun (ts, state) =>
      (scan toNumber state text').map fun (more, state) => (ts ++ more, state) := by
  induction text generalizing state with
  | nil => simp [scan]
  | cons u rest ih =>
    rw [List.cons_append, scan, scan]
    cases next toNumber state u with
    | none => rfl
    | some r =>
      obtain ⟨ts, state⟩ := r
      simp only [Option.bind_some, ih]
      cases scan toNumber state rest with
      | none => rfl
      | some r => simp [Option.map_map, Function.comp_def]

theorem scan_trans (h : scan toNumber state text = some (ts, state')) :
    scan toNumber state (text ++ text') =
      (scan toNumber state' text').map fun (more, state) => (ts ++ more, state) := by
  rw [scan_append, h]
  rfl

theorem scan_cons {u : UInt16} (h : next toNumber state u = some ([], state')) :
    scan toNumber state (u :: text) = scan toNumber state' text := by
  rw [scan, h]
  simp

theorem next_plain {u : UInt16} (hquote : charOf u ≠ '"') (hescape : charOf u ≠ '\\')
    (hcontrol : 0x20 ≤ u.toNat) :
    next toNumber (.string s) u = some ([], .string (s ++ [u])) := by
  rw [next, if_neg hquote, if_neg hescape, if_neg (Nat.not_lt.2 hcontrol)]

theorem charOf_ne {u : UInt16} {c : Char} (h : u.toNat ≠ c.toNat) (hc : c.toNat ≠ 0) :
    charOf u ≠ c := by
  rintro rfl
  refine h ?_
  by_cases hvalid : u.toNat.isValidChar
  · exact (toNat_ofNat hvalid).symm
  · exact absurd (by simp [charOf, Char.ofNat, hvalid]) hc

theorem scan_hexChars (u : UInt16) :
    scan toNumber (.hex s 0 0) ((hexChars u).flatMap encodeChar) =
      some ([], .string (s ++ [u])) := by
  have hlt := u.toNat_lt
  have hascii : ∀ n < 16, (hexChar n).toNat < 0x80 := by decide
  have hnext : ∀ digits value, ∀ n < 16, next toNumber (.hex s digits value)
      (UInt16.ofNat (hexChar n).toNat) = some (if digits = 3 then
        ([], .string (s ++ [UInt16.ofNat (value * 16 + n)]))
      else ([], .hex s (digits + 1) (value * 16 + n))) := by
    intro digits value n hn
    rw [next, charOf_ofNat (hascii n hn), hexValue_hexChar n hn]
    rfl
  have hvalue : (((0 * 16 + u.toNat / 4096) * 16 + u.toNat / 256 % 16) * 16 + u.toNat / 16 % 16) *
      16 + u.toNat % 16 = u.toNat := by omega
  rw [hexChars, flatMap_encodeChar_cons (hascii _ (by omega)),
    flatMap_encodeChar_cons (hascii _ (by omega)), flatMap_encodeChar_cons (hascii _ (by omega)),
    flatMap_encodeChar_cons (hascii _ (by omega)), List.flatMap_nil,
    scan_cons (hnext 0 0 _ (by omega)), scan_cons (hnext 1 _ _ (by omega)),
    scan_cons (hnext 2 _ _ (by omega)), scan_cons (hnext 3 _ _ (by omega)), hvalue,
    UInt16.ofNat_toNat, scan]

theorem scan_quoteUnit (u : UInt16) :
    scan toNumber (.string s) ((quoteUnit u).flatMap encodeChar) =
      some ([], .string (s ++ [u])) := by
  unfold quoteUnit
  split
  iterate 7 rfl
  next h₁ h₂ h₃ h₄ h₅ h₆ h₇ =>
  split
  · rw [flatMap_encodeChar_cons (by decide), flatMap_encodeChar_cons (by decide)]
    have hescape : next toNumber (.string s) 0x5C = some ([], .escape s) := rfl
    have hhex : next toNumber (.escape s) 0x75 = some ([], .hex s 0 0) := rfl
    exact (scan_cons hescape).trans ((scan_cons hhex).trans (scan_hexChars u))
  · next hplain =>
    obtain ⟨hcontrol, hsurrogate⟩ := Bool.or_eq_false_iff.1 (eq_false_of_ne_true hplain)
    rw [List.flatMap_singleton, encodeChar_unit hsurrogate]
    refine scan_cons (next_plain (charOf_ne (fun h => h₆ ?_) (by decide))
      (charOf_ne (fun h => h₇ ?_) (by decide)) ?_)
    · exact UInt16.toNat_inj.1 h
    · exact UInt16.toNat_inj.1 h
    · simpa [UInt16.lt_iff_toNat_lt] using hcontrol

theorem scan_quote (t : JsString) :
    scan toNumber (.string s) ((quote t).flatMap encodeChar) = some ([], .string (s ++ t)) := by
  fun_induction quote t generalizing s with
  | case1 => simp [scan]
  | case2 u => exact scan_quoteUnit u
  | case3 hi lo tail hpair ih =>
    obtain ⟨hhi, hlo⟩ := Bool.and_eq_true_iff.1 hpair
    have h₁ := isHighSurrogate_iff.1 hhi
    have h₂ := isLowSurrogate_iff.1 hlo
    have hplain : ∀ {u : UInt16} {s : JsString}, 0xD800 ≤ u.toNat →
        next toNumber (.string s) u = some ([], .string (s ++ [u])) := fun {u _} hu =>
      next_plain (charOf_ne (by change u.toNat ≠ 34; omega) (by decide))
        (charOf_ne (by change u.toNat ≠ 92; omega) (by decide)) (by omega)
    rw [List.flatMap_cons, encodeChar_pair hhi hlo, List.cons_append, List.singleton_append,
      scan_cons (hplain h₁.1), scan_cons (hplain (by omega)), ih]
    simp
  | case4 hi lo tail hpair ih =>
    rw [List.flatMap_append, scan_trans (scan_quoteUnit hi), ih]
    simp

theorem scan_quoted (t : JsString) :
    scan toNumber .between ((quoted t).flatMap encodeChar) =
      some ([.scalar (.string t)], .between) := by
  have hopen : next toNumber .between 0x22 = some ([], .string []) := rfl
  have hclose : scan toNumber (.string t) [0x22] = some ([.scalar (.string t)], .between) := rfl
  rw [quoted, List.cons_append, flatMap_encodeChar_cons (by decide), List.flatMap_append]
  refine (scan_cons hopen).trans ((scan_trans (scan_quote t)).trans ?_)
  exact congrArg _ hclose

/-- A text that is a sequence of tokens, the last of which may go on. -/
def Spells (toNumber : JsString → JsNumber) (text : JsString) (ts : List Token) : Prop :=
  ∃ front last state, scan toNumber .between text = some (front, state) ∧
    flush toNumber state = some last ∧ ts = front ++ last

theorem Spells.of_scan (h : scan toNumber .between text = some (ts, .between)) :
    Spells toNumber text ts :=
  ⟨ts, [], .between, h, rfl, (List.append_nil ts).symm⟩

theorem Spells.tokenize (h : Spells toNumber text ts) : tokenize toNumber text = some ts := by
  obtain ⟨front, last, state, hscan, hflush, rfl⟩ := h
  simp [JsonParse.tokenize, hscan, hflush]

theorem Spells.after (h : Spells toNumber text ts)
    (hfront : scan toNumber .between text' = some (ts', .between)) :
    Spells toNumber (text' ++ text) (ts' ++ ts) := by
  obtain ⟨front, last, state, hscan, hflush, rfl⟩ := h
  refine ⟨ts' ++ front, last, state, ?_, hflush, (List.append_assoc ..).symm⟩
  rw [scan_trans hfront, hscan]
  rfl

theorem Spells.mark (h : Spells toNumber text ts) {c : Char} {t : Token} (hc : mark c = some t)
    (hascii : c.toNat < 0x80) (hplain : (c == '"' || isWordChar c || isSpace c) = false) :
    scan toNumber .between (text ++ [UInt16.ofNat c.toNat]) = some (ts ++ [t], .between) := by
  obtain ⟨front, last, state, hscan, hflush, rfl⟩ := h
  simp only [Bool.or_eq_false_iff, beq_eq_false_iff_ne] at hplain
  obtain ⟨⟨hquote, hword⟩, hspace⟩ := hplain
  have hnext : next toNumber state (UInt16.ofNat c.toNat) = some (last ++ [t], .between) := by
    cases state with
    | between =>
      cases hflush
      simp [next, charOf_ofNat hascii, hquote, hword, separate, hspace, hc]
    | word w => simp [next, charOf_ofNat hascii, hword, hflush, separate, hspace, hc]
    | string _ => cases hflush
    | escape _ => cases hflush
    | hex _ _ _ => cases hflush
  rw [scan_trans hscan, scan, hnext]
  simp [scan]

theorem scan_key (key : JsString) :
    scan toNumber .between ((quoted key).flatMap encodeChar ++ [0x3A]) =
      some ([.scalar (.string key), .colon], .between) :=
  (Spells.of_scan (scan_quoted key)).mark (c := ':') rfl (by decide) rfl

theorem isWordChar_of_isDigit {c : Char} (h : c.isDigit = true) : isWordChar c = true := by
  simp [isWordChar, Char.isAlphanum, h]

theorem toNat_lt_of_isDigit {c : Char} (h : c.isDigit = true) : c.toNat < 0x80 := by
  simp only [Char.isDigit, Bool.and_eq_true, decide_eq_true_eq] at h
  have hle : c.val ≤ 57 := h.2
  exact Nat.lt_of_le_of_lt (UInt32.le_iff_toNat_le.1 hle) (by decide)

theorem scan_word {cs : List Char} (hdigits : ∀ c ∈ cs, c.isDigit = true) :
    scan toNumber (.word s) (cs.flatMap encodeChar) =
      some ([], .word (s ++ cs.flatMap encodeChar)) := by
  induction cs generalizing s with
  | nil => simp [scan]
  | cons c cs ih =>
    have hdigit := hdigits c List.mem_cons_self
    have hascii := toNat_lt_of_isDigit hdigit
    have hnext : next toNumber (.word s) (UInt16.ofNat c.toNat) =
        some ([], .word (s ++ [UInt16.ofNat c.toNat])) := by
      rw [next, charOf_ofNat hascii, if_pos (isWordChar_of_isDigit hdigit)]
    rw [flatMap_encodeChar_cons hascii, scan_cons hnext,
      ih fun d hd => hdigits d (List.mem_cons_of_mem _ hd)]
    simp

theorem isUnsigned_numeral (n : Nat) : isUnsigned (numeral n) = true := by
  obtain ⟨c, tail, hcons, hdigit⟩ := toDigits_cons n
  have hascii := toNat_lt_of_isDigit hdigit
  rw [numeral, hcons, flatMap_encodeChar_cons hascii, isUnsigned, charOf_ofNat hascii, isDigitUnit,
    charOf_ofNat hascii, hdigit]
  cases hzero : c == '0' with
  | true =>
    have hn := head_toDigits (n := n) (by rw [hcons, eq_of_beq hzero]; rfl)
    subst hn
    cases hcons
    rfl
  | false =>
    have htail : ∀ u ∈ tail.flatMap encodeChar, isDigitUnit u = true := by
      intro u hu
      obtain ⟨d, hd, hu⟩ := List.mem_flatMap.1 hu
      have hdigit := Nat.isDigit_of_mem_toDigits (by decide) (by decide)
        (hcons ▸ List.mem_cons_of_mem c hd)
      have hascii := toNat_lt_of_isDigit hdigit
      rw [encodeChar, if_pos (by omega), List.mem_singleton] at hu
      rw [hu, isDigitUnit, charOf_ofNat hascii, hdigit]
    rw [List.dropWhile_eq_nil_iff.2 htail]
    rfl

theorem isNumber_numeral (n : Nat) : isNumber (numeral n) = true := by
  obtain ⟨c, tail, hcons, hdigit⟩ := toDigits_cons n
  have hascii := toNat_lt_of_isDigit hdigit
  have hminus : ¬ (c == '-') = true := by
    rw [beq_iff_eq]
    rintro rfl
    cases hdigit
  have hunsigned := isUnsigned_numeral n
  rw [numeral, hcons, flatMap_encodeChar_cons hascii] at hunsigned ⊢
  rw [isNumber, charOf_ofNat hascii, if_neg hminus, hunsigned]

theorem spells_numeral (n : Nat) :
    Spells toNumber (numeral n) [.scalar (.number (toNumber (numeral n)))] := by
  obtain ⟨c, tail, hcons, hdigit⟩ := toDigits_cons n
  have hascii := toNat_lt_of_isDigit hdigit
  have hword := isWordChar_of_isDigit hdigit
  have hquote : c ≠ '"' := by
    rintro rfl
    cases hdigit
  have hnumeral : numeral n = UInt16.ofNat c.toNat :: tail.flatMap encodeChar := by
    rw [numeral, hcons, flatMap_encodeChar_cons hascii]
  have hnext : next toNumber .between (UInt16.ofNat c.toNat) =
      some ([], .word [UInt16.ofNat c.toNat]) := by
    rw [next, charOf_ofNat hascii, if_neg hquote, if_pos hword]
  have hscan : scan toNumber .between (numeral n) = some ([], .word (numeral n)) := by
    rw [hnumeral, scan_cons hnext, scan_word fun d hd => Nat.isDigit_of_mem_toDigits (by decide)
      (by decide) (hcons ▸ List.mem_cons_of_mem c hd)]
    rfl
  have hname : ∀ text : JsString, (text.head?.any fun u => !isDigitUnit u) = true →
      numeral n ≠ text := by
    rintro _ htext rfl
    rw [hnumeral, List.head?_cons, Option.any_some, isDigitUnit, charOf_ofNat hascii, hdigit]
      at htext
    cases htext
  refine ⟨[], _, _, hscan, ?_, rfl⟩
  rw [flush, wordValue, if_neg (hname _ (by decide)), if_neg (hname _ (by decide)),
    if_neg (hname _ (by decide)), if_pos (isNumber_numeral n)]
  rfl

theorem spells_negative (n : Nat) :
    Spells toNumber (0x2D :: numeral n) [.scalar (.number (toNumber (0x2D :: numeral n)))] := by
  have hnext : next toNumber .between 0x2D = some ([], .word [0x2D]) := rfl
  have hscan : scan toNumber .between (0x2D :: numeral n) = some ([], .word (0x2D :: numeral n)) := by
    rw [scan_cons hnext, numeral, scan_word fun d hd => Nat.isDigit_of_mem_toDigits (by decide)
      (by decide) hd]
    rfl
  have hname : ∀ text : JsString, text.head? ≠ some 0x2D → 0x2D :: numeral n ≠ text := by
    rintro _ htext rfl
    exact htext rfl
  have hnumber : isNumber (0x2D :: numeral n) = true := isUnsigned_numeral n
  refine ⟨[], _, _, hscan, ?_, rfl⟩
  rw [flush, wordValue, if_neg (hname _ (by decide)), if_neg (hname _ (by decide)),
    if_neg (hname _ (by decide)), if_pos hnumber]
  rfl

mutual

theorem spells_stringify (d : Doc) : Spells toNumber (stringify d) (tokens toNumber d) := by
  cases d with
  | number n =>
    rw [tokens]
    exact spells_numeral n
  | negative n =>
    rw [stringify, Doc.stringify, tokens, flatMap_encodeChar_cons (by decide)]
    exact spells_negative n
  | string s =>
    rw [stringify, Doc.stringify, tokens]
    exact .of_scan (scan_quoted s)
  | array elements =>
    have hopen : scan toNumber .between [0x5B] = some ([.leftArray], .between) := rfl
    rw [stringify, Doc.stringify, tokens, List.cons_append, flatMap_encodeChar_cons (by decide),
      List.flatMap_append]
    exact .of_scan (((spells_elements elements).after hopen).mark (c := ']') rfl (by decide) rfl)
  | object members =>
    have hopen : scan toNumber .between [0x7B] = some ([.leftObject], .between) := rfl
    rw [stringify, Doc.stringify, tokens, List.cons_append, flatMap_encodeChar_cons (by decide),
      List.flatMap_append]
    exact .of_scan (((spells_members members).after hopen).mark (c := '\x7d') rfl (by decide) rfl)

theorem spells_elements (ds : List Doc) :
    Spells toNumber ((stringifyElements ds).flatMap encodeChar) (tokensElements toNumber ds) := by
  match ds with
  | [] => exact .of_scan rfl
  | [d] =>
    rw [stringifyElements, tokensElements]
    exact spells_stringify d
  | d :: d' :: ds =>
    rw [stringifyElements, tokensElements, List.flatMap_append, flatMap_encodeChar_cons (by decide)]
    · have hcomma := (spells_stringify d).mark (c := ',') rfl (by decide) rfl
      simpa [stringify] using (spells_elements (d' :: ds)).after hcomma
    all_goals exact List.cons_ne_nil _ _

theorem spells_members (ms : List (JsString × Doc)) :
    Spells toNumber ((stringifyMembers ms).flatMap encodeChar) (tokensMembers toNumber ms) := by
  match ms with
  | [] => exact .of_scan rfl
  | [(key, d)] =>
    rw [stringifyMembers, tokensMembers, List.flatMap_append, flatMap_encodeChar_cons (by decide)]
    simpa [stringify] using (spells_stringify d).after (scan_key key)
  | (key, d) :: m :: ms =>
    rw [stringifyMembers, tokensMembers]
    · have hcomma := ((spells_stringify d).after (scan_key key)).mark (c := ',') rfl (by decide) rfl
      rw [List.flatMap_append, List.flatMap_append, flatMap_encodeChar_cons (by decide),
        flatMap_encodeChar_cons (by decide)]
      simpa [stringify] using (spells_members (m :: ms)).after hcomma
    all_goals exact List.cons_ne_nil _ _

end

/-! ### Reading what was scanned -/

section

variable (toNumber)

theorem tokens_cons (d : Doc) : ∃ t more, tokens toNumber d = t :: more ∧ t ≠ .rightArray := by
  cases d <;> simp [tokens]

theorem tokensElements_cons (d : Doc) (ds : List Doc) :
    ∃ t more, tokensElements toNumber (d :: ds) = t :: more ∧ t ≠ .rightArray := by
  obtain ⟨t, more, htokens, ht⟩ := tokens_cons toNumber d
  cases ds with
  | nil => exact ⟨t, more, by rw [tokensElements, htokens], ht⟩
  | cons d' ds =>
    refine ⟨t, more ++ .comma :: tokensElements toNumber (d' :: ds), ?_, ht⟩
    rw [tokensElements, htokens, List.cons_append]
    exact List.cons_ne_nil _ _

theorem tokensMembers_cons (key : JsString) (d : Doc) (ms : List (JsString × Doc)) :
    ∃ more, tokensMembers toNumber ((key, d) :: ms) = .scalar (.string key) :: more := by
  cases ms with
  | nil => exact ⟨_, by rw [tokensMembers]⟩
  | cons m ms =>
    refine ⟨.colon :: tokens toNumber d ++ .comma :: tokensMembers toNumber (m :: ms), ?_⟩
    rw [tokensMembers]
    · rfl
    · exact List.cons_ne_nil _ _

end

mutual

theorem read_tokens (d : Doc) (fuel : Nat) (hfuel : (tokens toNumber d).length ≤ fuel)
    (rest : List Token) :
    read fuel (tokens toNumber d ++ rest) = some (ofDoc toNumber d, rest) := by
  obtain ⟨fuel, rfl⟩ : ∃ n, fuel = n + 1 := by
    obtain ⟨t, more, htokens, -⟩ := tokens_cons toNumber d
    rw [htokens, List.length_cons] at hfuel
    exact ⟨fuel - 1, by omega⟩
  cases d with
  | number n | negative n =>
    rw [tokens, ofDoc]
    rfl
  | string s =>
    rw [tokens, ofDoc]
    rfl
  | array elements =>
    have htokens : tokens toNumber (.array elements) ++ rest =
        .leftArray :: (tokensElements toNumber elements ++ .rightArray :: rest) := by simp [tokens]
    rw [tokens] at hfuel
    simp only [List.length_append, List.length_cons, List.length_nil] at hfuel
    rw [htokens, ofDoc]
    cases elements with
    | nil => rfl
    | cons d ds =>
      have hread := readElements_tokens d ds fuel (by omega) rest
      obtain ⟨t, more, hcons, ht⟩ := tokensElements_cons toNumber d ds
      rw [hcons, List.cons_append] at hread ⊢
      rw [read, hread]
      · rfl
      · rintro rest' heq
        exact ht (List.cons.inj heq).1
  | object members =>
    have htokens : tokens toNumber (.object members) ++ rest =
        .leftObject :: (tokensMembers toNumber members ++ .rightObject :: rest) := by simp [tokens]
    rw [tokens] at hfuel
    simp only [List.length_append, List.length_cons, List.length_nil] at hfuel
    rw [htokens, ofDoc]
    cases members with
    | nil => rfl
    | cons m ms =>
      obtain ⟨key, d⟩ := m
      have hread := readMembers_tokens key d ms fuel (by omega) rest
      obtain ⟨more, hcons⟩ := tokensMembers_cons toNumber key d ms
      rw [hcons, List.cons_append] at hread ⊢
      rw [read, hread]
      · rfl
      · nofun
termination_by fuel

theorem readElements_tokens (d : Doc) (ds : List Doc) (fuel : Nat)
    (hfuel : (tokensElements toNumber (d :: ds)).length < fuel) (rest : List Token) :
    readElements fuel (tokensElements toNumber (d :: ds) ++ .rightArray :: rest) =
      some (ofElements toNumber (d :: ds), rest) := by
  obtain ⟨fuel, rfl⟩ : ∃ n, fuel = n + 1 := ⟨fuel - 1, by omega⟩
  rw [readElements]
  cases ds with
  | nil =>
    rw [tokensElements] at hfuel ⊢
    rw [read_tokens d fuel (by omega)]
    rfl
  | cons d' ds =>
    rw [tokensElements] at hfuel ⊢
    · simp only [List.length_append, List.length_cons] at hfuel
      rw [List.append_assoc, List.cons_append, read_tokens d fuel (by omega)]
      simp only [readElements_tokens d' ds fuel (by omega) rest, Option.map_some]
      rfl
    all_goals exact List.cons_ne_nil _ _
termination_by fuel

theorem readMembers_tokens (key : JsString) (d : Doc) (ms : List (JsString × Doc)) (fuel : Nat)
    (hfuel : (tokensMembers toNumber ((key, d) :: ms)).length < fuel) (rest : List Token) :
    readMembers fuel (tokensMembers toNumber ((key, d) :: ms) ++ .rightObject :: rest) =
      some (ofMembers toNumber ((key, d) :: ms), rest) := by
  obtain ⟨fuel, rfl⟩ : ∃ n, fuel = n + 1 := ⟨fuel - 1, by omega⟩
  cases ms with
  | nil =>
    rw [tokensMembers] at hfuel ⊢
    simp only [List.length_cons] at hfuel
    rw [List.cons_append, List.cons_append, readMembers, read_tokens d fuel (by omega)]
    rfl
  | cons m ms =>
    obtain ⟨key', d'⟩ := m
    rw [tokensMembers] at hfuel ⊢
    · simp only [List.length_append, List.length_cons] at hfuel
      rw [List.append_assoc, List.cons_append, List.cons_append, List.cons_append, readMembers,
        read_tokens d fuel (by omega)]
      simp only [readMembers_tokens key' d' ms fuel (by omega) rest, Option.map_some]
      rfl
    all_goals exact List.cons_ne_nil _ _
termination_by fuel

end

/-- What was written is read as it was. -/
theorem parse_stringify (d : Doc) : parse toNumber (stringify d) = some (ofDoc toNumber d) := by
  have hread := read_tokens d (tokens toNumber d).length (Nat.le_refl _) []
  rw [List.append_nil] at hread
  rw [parse, (spells_stringify d).tokenize]
  simp only [hread]

/-! ### Integers -/

def integerText : Int → JsString
  | .ofNat n => numeral n
  | .negSucc n => 0x2D :: numeral (n + 1)

def integer : Int → Doc
  | .ofNat n => .number n
  | .negSucc n => .negative (n + 1)

theorem ofDoc_integer (n : Int) : ofDoc toNumber (integer n) = .number (toNumber (integerText n)) := by
  cases n with
  | ofNat n => rw [integer, ofDoc, integerText]
  | negSucc n => rw [integer, ofDoc, integerText]

/-- The value of the text of an integer. -/
def decimal : JsString → JsNumber
  | 0x2D :: digits => .finite (-(Nat.ofDigitChars 10 (digits.map charOf) 0 : Int) : Int)
  | digits => .finite (Nat.ofDigitChars 10 (digits.map charOf) 0 : Int)

theorem map_charOf_numeral (n : Nat) : (numeral n).map charOf = Nat.toDigits 10 n := by
  have hmap : ∀ cs : List Char, (∀ c ∈ cs, c.isDigit = true) → (cs.flatMap encodeChar).map charOf = cs := by
    intro cs hdigits
    induction cs with
    | nil => rfl
    | cons c cs ih =>
      obtain ⟨hdigit, hdigits⟩ := List.forall_mem_cons.1 hdigits
      have hascii := toNat_lt_of_isDigit hdigit
      rw [flatMap_encodeChar_cons hascii, List.map_cons, charOf_ofNat hascii, ih hdigits]
  exact hmap _ fun c hc => Nat.isDigit_of_mem_toDigits (by decide) (by decide) hc

theorem decimal_integerText (n : Int) : decimal (integerText n) = .finite n := by
  cases n with
  | negSucc n =>
    rw [integerText, decimal, map_charOf_numeral, Nat.ofDigitChars_ten_toDigits]
    rfl
  | ofNat n =>
    obtain ⟨c, tail, hcons, hdigit⟩ := toDigits_cons n
    have hascii := toNat_lt_of_isDigit hdigit
    rw [integerText, decimal, map_charOf_numeral, Nat.ofDigitChars_ten_toDigits]
    · rfl
    · rintro digits heq
      rw [numeral, hcons, flatMap_encodeChar_cons hascii] at heq
      have hminus := congrArg charOf (List.cons.inj heq).1
      rw [charOf_ofNat hascii] at hminus
      rw [hminus] at hdigit
      cases hdigit

end SmartC.JsonParse
