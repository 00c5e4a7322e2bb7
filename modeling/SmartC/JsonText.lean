import SmartC.Utf16

/-!
# JSON texts

How `JSON.stringify` writes a value, and how a strict decoder reads a text.
The writer takes any JavaScript string and escapes a surrogate that stands
alone; the reader knows only Unicode strings and refuses such an escape.
Reading what was written gives the value back if its strings are well formed,
and fails otherwise.
-/

namespace SmartC.JsonText

open Lsp

/-! ### Writing -/

/-- What is written: numbers are integers, which have one text. -/
inductive Doc
  | number (n : Nat)
  | negative (n : Nat)
  | string (s : JsString)
  | array (elements : List Doc)
  | object (members : List (JsString × Doc))

def hexChar (n : Nat) : Char := if n < 10 then Char.ofNat (48 + n) else Char.ofNat (87 + n)

def hexChars (u : UInt16) : List Char :=
  [hexChar (u.toNat / 4096), hexChar (u.toNat / 256 % 16), hexChar (u.toNat / 16 % 16),
    hexChar (u.toNat % 16)]

def quoteUnit (u : UInt16) : List Char :=
  match u with
  | 8 => ['\\', 'b']
  | 9 => ['\\', 't']
  | 10 => ['\\', 'n']
  | 12 => ['\\', 'f']
  | 13 => ['\\', 'r']
  | 0x22 => ['\\', '"']
  | 0x5C => ['\\', '\\']
  | u => if u < 0x20 || isSurrogate u then '\\' :: 'u' :: hexChars u else [Char.ofNat u.toNat]

/-- `QuoteJSONString`, without the quotation marks. -/
def quote : JsString → List Char
  | [] => []
  | [u] => quoteUnit u
  | hi :: lo :: rest =>
    if isHighSurrogate hi && isLowSurrogate lo then Char.ofNat (pairCodePoint hi lo) :: quote rest
    else quoteUnit hi ++ quote (lo :: rest)

def quoted (s : JsString) : List Char := '"' :: quote s ++ ['"']

mutual

def Doc.stringify : Doc → List Char
  | .number n => Nat.toDigits 10 n
  | .negative n => '-' :: Nat.toDigits 10 n
  | .string s => quoted s
  | .array elements => '[' :: stringifyElements elements ++ [']']
  | .object members => '\x7b' :: stringifyMembers members ++ ['\x7d']

def stringifyElements : List Doc → List Char
  | [] => []
  | [d] => d.stringify
  | d :: rest => d.stringify ++ ',' :: stringifyElements rest

def stringifyMembers : List (JsString × Doc) → List Char
  | [] => []
  | [(key, d)] => quoted key ++ ':' :: d.stringify
  | (key, d) :: rest => quoted key ++ ':' :: d.stringify ++ ',' :: stringifyMembers rest

end

/-! ### Reading -/

/-- A number literal without fraction and exponent keeps its value. -/
inductive Number
  | integer (negative : Bool) (n : Nat)
  | float
  deriving DecidableEq, Repr

inductive Value
  | null
  | bool (b : Bool)
  | number (n : Number)
  | string (s : String)
  | array (elements : List Value)
  | object (members : List (String × Value))

def isSpace (c : Char) : Bool := c == ' ' || c == '\t' || c == '\n' || c == '\r'

def skipSpace (text : List Char) : List Char := text.dropWhile isSpace

/-- A character of a string literal, or the unit of an escape with four digits. -/
inductive Piece
  | char (c : Char)
  | unit (u : UInt16)

inductive Lexing
  | plain
  | escape
  | hex (digits value : Nat)

def hexValue (c : Char) : Option Nat :=
  if '0' ≤ c ∧ c ≤ '9' then some (c.toNat - 48)
  else if 'a' ≤ c ∧ c ≤ 'f' then some (c.toNat - 87)
  else if 'A' ≤ c ∧ c ≤ 'F' then some (c.toNat - 55)
  else none

def simpleEscape : Char → Option Char
  | '"' => some '"'
  | '\\' => some '\\'
  | '/' => some '/'
  | 'b' => some '\x08'
  | 'f' => some '\x0c'
  | 'n' => some '\n'
  | 'r' => some '\r'
  | 't' => some '\t'
  | _ => none

def consPiece (p : Piece) (r : List Piece × List Char) : List Piece × List Char := (p :: r.1, r.2)

/-- The rest of a string literal, up to its closing quotation mark, and the text behind it. -/
def lex : Lexing → List Char → Option (List Piece × List Char)
  | _, [] => none
  | .plain, c :: rest =>
    if c = '"' then some ([], rest)
    else if c = '\\' then lex .escape rest
    else if c.toNat < 0x20 then none
    else (lex .plain rest).map (consPiece (.char c))
  | .escape, c :: rest =>
    if c = 'u' then lex (.hex 0 0) rest
    else
      match simpleEscape c with
      | none => none
      | some e => (lex .plain rest).map (consPiece (.char e))
  | .hex digits value, c :: rest =>
    match hexValue c with
    | none => none
    | some d =>
      if digits = 3 then
        (lex .plain rest).map (consPiece (.unit (UInt16.ofNat (value * 16 + d))))
      else lex (.hex (digits + 1) (value * 16 + d)) rest

/-- The characters of a literal; an escaped surrogate is read only as half of an escaped pair. -/
def join : Option UInt16 → List Piece → Option (List Char)
  | none, [] => some []
  | none, .char c :: rest => (join none rest).map (c :: ·)
  | none, .unit u :: rest =>
    if isHighSurrogate u then join (some u) rest
    else if isLowSurrogate u then none
    else (join none rest).map (Char.ofNat u.toNat :: ·)
  | some hi, .unit lo :: rest =>
    if isLowSurrogate lo then (join none rest).map (Char.ofNat (pairCodePoint hi lo) :: ·) else none
  | some _, _ => none

def parseString (text : List Char) : Option (String × List Char) :=
  match lex .plain text with
  | none => none
  | some (pieces, rest) => (join none pieces).map fun cs => (String.ofList cs, rest)

def skipDigits (text : List Char) : Option (List Char) :=
  match text with
  | c :: rest => if c.isDigit then some (rest.dropWhile Char.isDigit) else none
  | [] => none

def skipFraction : List Char → Option (List Char)
  | '.' :: rest => skipDigits rest
  | text => some text

def skipExponent : List Char → Option (List Char)
  | 'e' :: '+' :: rest | 'e' :: '-' :: rest | 'E' :: '+' :: rest | 'E' :: '-' :: rest =>
    skipDigits rest
  | 'e' :: rest | 'E' :: rest => skipDigits rest
  | text => some text

def parseNumber (text : List Char) : Option (Value × List Char) :=
  let negative := text.head? == some '-'
  let text := if negative then text.drop 1 else text
  let digits := text.takeWhile Char.isDigit
  let rest := text.dropWhile Char.isDigit
  if digits.isEmpty ∨ digits.head? = some '0' ∧ 1 < digits.length then none
  else
    match (skipFraction rest).bind skipExponent with
    | none => none
    | some after =>
      if after.length = rest.length then
        some (.number (.integer negative (Nat.ofDigitChars 10 digits 0)), rest)
      else some (.number .float, after)

def parseName (name : List Char) (v : Value) (text : List Char) : Option (Value × List Char) :=
  if name.isPrefixOf text then some (v, text.drop name.length) else none

mutual

/-- A value, with fuel for the nesting and the number of the values in it. -/
def parseValue : Nat → List Char → Option (Value × List Char)
  | 0, _ => none
  | fuel + 1, text =>
    match skipSpace text with
    | '"' :: rest => (parseString rest).map fun r => (.string r.1, r.2)
    | '[' :: rest =>
      match skipSpace rest with
      | ']' :: rest => some (.array [], rest)
      | rest => (parseElements fuel rest).map fun r => (.array r.1, r.2)
    | '\x7b' :: rest =>
      match skipSpace rest with
      | '\x7d' :: rest => some (.object [], rest)
      | rest => (parseMembers fuel rest).map fun r => (.object r.1, r.2)
    | 'n' :: rest => parseName "ull".toList .null rest
    | 't' :: rest => parseName "rue".toList (.bool true) rest
    | 'f' :: rest => parseName "alse".toList (.bool false) rest
    | text => parseNumber text

def parseElements : Nat → List Char → Option (List Value × List Char)
  | 0, _ => none
  | fuel + 1, text =>
    match parseValue fuel text with
    | none => none
    | some (v, rest) =>
      match skipSpace rest with
      | ']' :: rest => some ([v], rest)
      | ',' :: rest => (parseElements fuel rest).map fun r => (v :: r.1, r.2)
      | _ => none

def parseMembers : Nat → List Char → Option (List (String × Value) × List Char)
  | 0, _ => none
  | fuel + 1, text =>
    match skipSpace text with
    | '"' :: rest =>
      match parseString rest with
      | none => none
      | some (key, rest) =>
        match skipSpace rest with
        | ':' :: rest =>
          match parseValue fuel rest with
          | none => none
          | some (v, rest) =>
            match skipSpace rest with
            | '\x7d' :: rest => some ([(key, v)], rest)
            | ',' :: rest => (parseMembers fuel rest).map fun r => ((key, v) :: r.1, r.2)
            | _ => none
        | _ => none
    | _ => none

end

def parse (text : List Char) : Option Value :=
  match parseValue (text.length + 1) text with
  | none => none
  | some (v, rest) => if (skipSpace rest).isEmpty then some v else none

/-! ### Strings -/

def piece (u : UInt16) : Piece :=
  if (u < 0x20 && !List.contains [8, 9, 10, 12, 13] u) || isSurrogate u then .unit u
  else .char (Char.ofNat u.toNat)

def pieces : JsString → List Piece
  | [] => []
  | [u] => [piece u]
  | hi :: lo :: rest =>
    if isHighSurrogate hi && isLowSurrogate lo then
      .char (Char.ofNat (pairCodePoint hi lo)) :: pieces rest
    else piece hi :: pieces (lo :: rest)

theorem hexValue_hexChar : ∀ n < 16, hexValue (hexChar n) = some n := by decide

theorem lex_hexChars (u : UInt16) (rest : List Char) :
    lex (.hex 0 0) (hexChars u ++ rest) = (lex .plain rest).map (consPiece (.unit u)) := by
  have hlt := u.toNat_lt
  have h₁ := hexValue_hexChar (u.toNat / 4096) (by omega)
  have h₂ := hexValue_hexChar (u.toNat / 256 % 16) (by omega)
  have h₃ := hexValue_hexChar (u.toNat / 16 % 16) (by omega)
  have h₄ := hexValue_hexChar (u.toNat % 16) (by omega)
  have hvalue : (((0 * 16 + u.toNat / 4096) * 16 + u.toNat / 256 % 16) * 16 + u.toNat / 16 % 16) *
      16 + u.toNat % 16 = u.toNat := by omega
  simp only [hexChars, List.cons_append, List.nil_append, lex, h₁, h₂, h₃, h₄]
  simp only [Nat.reduceAdd, Nat.reduceEqDiff, if_false, if_true, hvalue, UInt16.ofNat_toNat]

theorem lex_plain {c : Char} (hquote : c ≠ '"') (hescape : c ≠ '\\') (hcontrol : 0x20 ≤ c.toNat)
    (rest : List Char) : lex .plain (c :: rest) = (lex .plain rest).map (consPiece (.char c)) := by
  rw [lex, if_neg hquote, if_neg hescape, if_neg (Nat.not_lt.2 hcontrol)]

theorem lex_quoteUnit (u : UInt16) (rest : List Char) :
    lex .plain (quoteUnit u ++ rest) = (lex .plain rest).map (consPiece (piece u)) := by
  unfold quoteUnit
  split
  iterate 7 rfl
  next h₁ h₂ h₃ h₄ h₅ h₆ h₇ =>
  split
  · next hescaped =>
    have hpiece : piece u = .unit u := by
      rw [piece, if_pos]
      simp_all
    rw [hpiece, ← lex_hexChars]
    rfl
  · next hplain =>
    obtain ⟨hcontrol, hsurrogate⟩ := Bool.or_eq_false_iff.1 (eq_false_of_ne_true hplain)
    have hnat := toNat_ofNat_unit hsurrogate
    have hne : ∀ {v : UInt16} {c : Char}, (u = v → False) → c.toNat = v.toNat →
        Char.ofNat u.toNat ≠ c := by
      rintro v c hu hv rfl
      exact hu (UInt16.toNat_inj.1 (hnat.symm.trans hv))
    have hpiece : piece u = .char (Char.ofNat u.toNat) := by
      rw [piece, hcontrol, hsurrogate]
      rfl
    rw [hpiece]
    refine lex_plain (hne h₆ rfl) (hne h₇ rfl) ?_ rest
    rw [hnat]
    simpa [UInt16.lt_iff_toNat_lt] using hcontrol

theorem lex_quote (s : JsString) (rest : List Char) :
    lex .plain (quote s ++ '"' :: rest) = some (pieces s, rest) := by
  fun_induction quote s with
  | case1 => rfl
  | case2 u =>
    rw [lex_quoteUnit]
    rfl
  | case3 hi lo tail hpair ih =>
    obtain ⟨hhi, hlo⟩ := Bool.and_eq_true_iff.1 hpair
    have hpoint : 0x10000 ≤ pairCodePoint hi lo := by
      unfold pairCodePoint
      omega
    have hlarge := toNat_ofNat_pair hhi hlo
    rw [pieces, if_pos hpair]
    generalize Char.ofNat (pairCodePoint hi lo) = c at hlarge
    have hne : ∀ {d : Char}, d.toNat < 128 → c ≠ d := by
      rintro d hd rfl
      omega
    rw [List.cons_append, lex_plain (hne (by decide)) (hne (by decide)) (by omega), ih]
    rfl
  | case4 hi lo tail hpair ih =>
    rw [List.append_assoc, lex_quoteUnit, ih, pieces, if_neg hpair]
    rfl

theorem join_piece {u : UInt16} (h : isSurrogate u = false) (ps : List Piece) :
    join none (piece u :: ps) = (join none ps).map (Char.ofNat u.toNat :: ·) := by
  obtain ⟨hhigh, hlow⟩ := Bool.or_eq_false_iff.1 h
  unfold piece
  split
  · rw [join, hhigh, hlow]
    rfl
  · rfl

theorem piece_of_surrogate {u : UInt16} (h : isSurrogate u = true) : piece u = .unit u := by
  rw [piece, h, Bool.or_true, if_pos rfl]

theorem join_high {hi u : UInt16} (h : isLowSurrogate u = false) (rest : JsString) :
    join (some hi) (pieces (u :: rest)) = none := by
  have hpiece : ∀ ps, join (some hi) (piece u :: ps) = none := by
    intro ps
    unfold piece
    split
    · rw [join, h]
      rfl
    · rfl
  cases rest with
  | nil => exact hpiece []
  | cons lo rest =>
    rw [pieces]
    split
    · rfl
    · exact hpiece _

theorem join_pieces (s : JsString) : join none (pieces s) = scalars s := by
  fun_induction scalars s with
  | case1 => rfl
  | case2 u hu =>
    rw [pieces, piece_of_surrogate hu, join]
    split
    · rfl
    · next hhigh => exact if_pos ((Bool.or_eq_true _ _ ▸ hu).resolve_left hhigh)
  | case3 u hu => exact join_piece (eq_false_of_ne_true hu) []
  | case4 hi lo rest hpair ih =>
    rw [pieces, if_pos hpair, join, ih]
  | case5 hi lo rest hpair hhi =>
    rw [pieces, if_neg hpair, piece_of_surrogate hhi, join]
    split
    · next hhigh =>
      refine join_high (eq_false_of_ne_true fun hlow => hpair ?_) rest
      rw [hhigh, hlow]
      rfl
    · next hhigh => exact if_pos ((Bool.or_eq_true _ _ ▸ hhi).resolve_left hhigh)
  | case6 hi lo rest hpair hhi ih =>
    rw [pieces, if_neg hpair, join_piece (eq_false_of_ne_true hhi), ih]

theorem parseString_quote (s : JsString) (rest : List Char) :
    parseString (quote s ++ '"' :: rest) = (toUnicode s).map fun text => (text, rest) := by
  rw [parseString, lex_quote]
  simp only [join_pieces, toUnicode, Option.map_map]
  rfl

/-! ### Numbers -/

theorem head_toDigits {n : Nat} (h : (Nat.toDigits 10 n).head? = some '0') : n = 0 := by
  induction n using Nat.strongRecOn with
  | ind n ih =>
    by_cases hn : n < 10
    · rw [Nat.toDigits_of_lt_base hn] at h
      have hdigit : ∀ n < 10, Nat.digitChar n = '0' → n = 0 := by decide
      exact hdigit n hn (Option.some.inj h)
    · have hle : 10 ≤ n := Nat.le_of_not_lt hn
      rw [Nat.toDigits_of_base_le (by decide) hle, List.head?_append_of_ne_nil _ Nat.toDigits_ne_nil]
        at h
      have := ih (n / 10) (by omega) h
      omega

theorem toDigits_cons (n : Nat) : ∃ c tail, Nat.toDigits 10 n = c :: tail ∧ c.isDigit = true := by
  obtain ⟨c, tail, hcons⟩ := List.exists_cons_of_ne_nil (Nat.toDigits_ne_nil (b := 10) (n := n))
  exact ⟨c, tail, hcons,
    Nat.isDigit_of_mem_toDigits (by decide) (by decide) (hcons ▸ List.mem_cons_self)⟩

/-- What may follow a value in a text. -/
def Ends (rest : List Char) : Prop :=
  rest = [] ∨ ∃ c tail, rest = c :: tail ∧ (c = ',' ∨ c = ']' ∨ c = '\x7d')

theorem Ends.cons {c : Char} (h : c = ',' ∨ c = ']' ∨ c = '\x7d') (tail : List Char) :
    Ends (c :: tail) :=
  .inr ⟨c, tail, rfl, h⟩

theorem Ends.number {rest : List Char} (h : Ends rest) :
    rest.takeWhile Char.isDigit = [] ∧ rest.dropWhile Char.isDigit = rest ∧
      (skipFraction rest).bind skipExponent = some rest := by
  rcases h with rfl | ⟨c, tail, rfl, rfl | rfl | rfl⟩ <;> exact ⟨rfl, rfl, rfl⟩

theorem parseNumber_toDigits (n : Nat) {rest : List Char} (hrest : Ends rest) :
    parseNumber (Nat.toDigits 10 n ++ rest) = some (.number (.integer false n), rest) ∧
      parseNumber ('-' :: Nat.toDigits 10 n ++ rest) = some (.number (.integer true n), rest) := by
  obtain ⟨htake, hdrop, hskip⟩ := hrest.number
  have hdigits : ∀ c ∈ Nat.toDigits 10 n, c.isDigit = true := fun c hc =>
    Nat.isDigit_of_mem_toDigits (by decide) (by decide) hc
  have hnegative : ((Nat.toDigits 10 n ++ rest).head? == some '-') = false := by
    obtain ⟨c, tail, hcons, hc⟩ := toDigits_cons n
    rw [hcons]
    simp only [List.cons_append, List.head?_cons, beq_eq_false_iff_ne, ne_eq, Option.some.injEq]
    rintro rfl
    cases hc
  have hzero : ¬ ((Nat.toDigits 10 n).isEmpty = true ∨
      (Nat.toDigits 10 n).head? = some '0' ∧ 1 < (Nat.toDigits 10 n).length) := by
    rintro (hempty | ⟨hhead, hlong⟩)
    · exact Nat.toDigits_ne_nil (List.isEmpty_iff.1 hempty)
    · rw [head_toDigits hhead] at hlong
      exact absurd hlong (by decide)
  have hminus : (('-' :: Nat.toDigits 10 n ++ rest).head? == some '-') = true := rfl
  have hdigits' : ('-' :: Nat.toDigits 10 n ++ rest).drop 1 = Nat.toDigits 10 n ++ rest := rfl
  simp only [parseNumber, hnegative, hminus, hdigits', Bool.false_eq_true, if_false,
    List.takeWhile_append_of_pos hdigits, List.dropWhile_append_of_pos hdigits, htake, hdrop,
    List.append_nil, if_neg hzero, hskip, if_true, Nat.ofDigitChars_ten_toDigits, and_self]

/-! ### Values -/

mutual

/-- The value that a text of the document has, if its strings are well formed. -/
def Doc.value : Doc → Option Value
  | .number n => some (.number (.integer false n))
  | .negative n => some (.number (.integer true n))
  | .string s => (toUnicode s).map .string
  | .array elements => (valueElements elements).map .array
  | .object members => (valueMembers members).map .object

def valueElements : List Doc → Option (List Value)
  | [] => some []
  | d :: rest =>
    match d.value with
    | none => none
    | some v => (valueElements rest).map (v :: ·)

def valueMembers : List (JsString × Doc) → Option (List (String × Value))
  | [] => some []
  | (key, d) :: rest =>
    match toUnicode key with
    | none => none
    | some key =>
      match d.value with
      | none => none
      | some v => (valueMembers rest).map ((key, v) :: ·)

end

theorem skipSpace_cons {c : Char} (h : isSpace c = false) (rest : List Char) :
    skipSpace (c :: rest) = c :: rest :=
  List.dropWhile_cons_of_neg (by simp [h])

theorem isSpace_of_isDigit {c : Char} (h : c.isDigit = true) : isSpace c = false := by
  simp only [isSpace, Bool.or_eq_false_iff, beq_eq_false_iff_ne]
  refine ⟨⟨⟨?_, ?_⟩, ?_⟩, ?_⟩ <;> rintro rfl <;> cases h

theorem parseValue_toDigits (fuel n : Nat) {rest : List Char} (hrest : Ends rest) :
    parseValue (fuel + 1) (Nat.toDigits 10 n ++ rest) =
      some (.number (.integer false n), rest) := by
  obtain ⟨c, tail, hcons, hc⟩ := toDigits_cons n
  have hspace : skipSpace (Nat.toDigits 10 n ++ rest) = Nat.toDigits 10 n ++ rest := by
    rw [hcons]
    exact skipSpace_cons (isSpace_of_isDigit hc) _
  rw [parseValue, hspace, ← (parseNumber_toDigits n hrest).1]
  have hhead : ∀ {d tail'}, Nat.toDigits 10 n ++ rest = d :: tail' → d.isDigit = true := by
    intro d tail' h
    rw [hcons] at h
    cases h
    exact hc
  split
  iterate 6
    next h => cases hhead h
  rfl

theorem parseValue_negative (fuel n : Nat) {rest : List Char} (hrest : Ends rest) :
    parseValue (fuel + 1) ('-' :: Nat.toDigits 10 n ++ rest) =
      some (.number (.integer true n), rest) := by
  rw [← (parseNumber_toDigits n hrest).2, List.cons_append, parseValue, skipSpace_cons rfl]
  rfl

theorem parseValue_quoted (fuel : Nat) (s : JsString) (rest : List Char) :
    parseValue (fuel + 1) (quoted s ++ rest) =
      (toUnicode s).map fun text => (.string text, rest) := by
  have htext : quoted s ++ rest = '"' :: (quote s ++ '"' :: rest) := by simp [quoted]
  rw [htext, parseValue, skipSpace_cons rfl]
  simp only [parseString_quote, Option.map_map]
  rfl

theorem stringify_cons (d : Doc) :
    ∃ c tail, d.stringify = c :: tail ∧ isSpace c = false ∧ c ≠ ']' := by
  cases d with
  | number n =>
    obtain ⟨c, tail, hcons, hc⟩ := toDigits_cons n
    refine ⟨c, tail, by rw [Doc.stringify, hcons], isSpace_of_isDigit hc, ?_⟩
    rintro rfl
    cases hc
  | negative n => exact ⟨_, _, by rw [Doc.stringify], rfl, by decide⟩
  | string s => exact ⟨_, _, by rw [Doc.stringify, quoted]; rfl, rfl, by decide⟩
  | array elements => exact ⟨_, _, by rw [Doc.stringify]; rfl, rfl, by decide⟩
  | object members => exact ⟨_, _, by rw [Doc.stringify]; rfl, rfl, by decide⟩

theorem stringifyElements_cons (d : Doc) (ds : List Doc) :
    ∃ c tail, stringifyElements (d :: ds) = c :: tail ∧ isSpace c = false ∧ c ≠ ']' := by
  obtain ⟨c, tail, hcons, hc⟩ := stringify_cons d
  cases ds with
  | nil => exact ⟨c, tail, by rw [stringifyElements, hcons], hc⟩
  | cons d' ds =>
    refine ⟨c, tail ++ ',' :: stringifyElements (d' :: ds), ?_, hc⟩
    simp [stringifyElements, hcons]

theorem stringifyMembers_cons (m : JsString × Doc) (ds : List (JsString × Doc)) :
    ∃ tail, stringifyMembers (m :: ds) = '"' :: tail := by
  cases ds with
  | nil => exact ⟨_, by rw [stringifyMembers, quoted]; rfl⟩
  | cons m' ds => exact ⟨_, by simp only [stringifyMembers, quoted, List.cons_append]; rfl⟩

theorem parseMembers_quoted (fuel : Nat) (key : JsString) (text : List Char) :
    parseMembers (fuel + 1) (quoted key ++ ':' :: text) =
      match toUnicode key with
      | none => none
      | some key =>
        match parseValue fuel text with
        | none => none
        | some (v, rest) =>
          match skipSpace rest with
          | '\x7d' :: rest => some ([(key, v)], rest)
          | ',' :: rest => (parseMembers fuel rest).map fun r => ((key, v) :: r.1, r.2)
          | _ => none := by
  have htext : quoted key ++ ':' :: text = '"' :: (quote key ++ '"' :: ':' :: text) := by
    simp [quoted]
  rw [htext, parseMembers, skipSpace_cons rfl]
  simp only [parseString_quote]
  cases toUnicode key with
  | none => rfl
  | some key => rfl

mutual

/-- A document that was written is read as its value. -/
theorem parseValue_stringify (d : Doc) (fuel : Nat) (hfuel : d.stringify.length ≤ fuel)
    {rest : List Char} (hrest : Ends rest) :
    parseValue fuel (d.stringify ++ rest) = d.value.map fun v => (v, rest) := by
  -- no text is empty, so that there is fuel for the outermost value
  obtain ⟨fuel, rfl⟩ : ∃ n, fuel = n + 1 := by
    obtain ⟨c, tail, hcons, -⟩ := stringify_cons d
    rw [hcons, List.length_cons] at hfuel
    exact ⟨fuel - 1, by omega⟩
  cases d with
  | number n =>
    rw [Doc.stringify, Doc.value]
    exact parseValue_toDigits fuel n hrest
  | negative n =>
    rw [Doc.stringify, Doc.value]
    exact parseValue_negative fuel n hrest
  | string s =>
    rw [Doc.stringify, Doc.value, parseValue_quoted, Option.map_map]
    rfl
  | array elements =>
    have htext : (Doc.array elements).stringify ++ rest =
        '[' :: (stringifyElements elements ++ ']' :: rest) := by simp [Doc.stringify]
    simp only [Doc.stringify, List.length_append, List.length_cons, List.length_nil] at hfuel
    rw [htext, parseValue, skipSpace_cons rfl, Doc.value]
    cases elements with
    | nil => rfl
    | cons d rest' =>
      have hparse := parseElements_stringify d rest' fuel (by omega) rest
      -- an element does not begin with the bracket that ends the array
      obtain ⟨c, tail, hcons, hspace, hbracket⟩ := stringifyElements_cons d rest'
      rw [hcons, List.cons_append] at hparse ⊢
      simp only [skipSpace_cons hspace]
      split
      · next h => exact absurd (List.cons.inj h).1 hbracket
      · rw [hparse, Option.map_map, Option.map_map]
        rfl
  | object members =>
    have htext : (Doc.object members).stringify ++ rest =
        '\x7b' :: (stringifyMembers members ++ '\x7d' :: rest) := by simp [Doc.stringify]
    simp only [Doc.stringify, List.length_append, List.length_cons, List.length_nil] at hfuel
    rw [htext, parseValue, skipSpace_cons rfl, Doc.value]
    cases members with
    | nil => rfl
    | cons m rest' =>
      obtain ⟨key, d⟩ := m
      have hparse := parseMembers_stringify key d rest' fuel (by omega) rest
      obtain ⟨tail, hcons⟩ := stringifyMembers_cons (key, d) rest'
      rw [hcons, List.cons_append] at hparse ⊢
      change (parseMembers fuel _).map _ = _
      rw [hparse, Option.map_map, Option.map_map]
      rfl
termination_by fuel

theorem parseElements_stringify (d : Doc) (ds : List Doc) (fuel : Nat)
    (hfuel : (stringifyElements (d :: ds)).length < fuel) (rest : List Char) :
    parseElements fuel (stringifyElements (d :: ds) ++ ']' :: rest) =
      (valueElements (d :: ds)).map fun vs => (vs, rest) := by
  obtain ⟨fuel, rfl⟩ : ∃ n, fuel = n + 1 := ⟨fuel - 1, by omega⟩
  rw [parseElements, valueElements]
  cases ds with
  | nil =>
    rw [stringifyElements] at hfuel ⊢
    rw [parseValue_stringify d fuel (by omega) (.cons (by simp) rest)]
    cases d.value with
    | none => rfl
    | some v => rfl
  | cons d' ds =>
    rw [stringifyElements] at hfuel ⊢
    · simp only [List.length_append, List.length_cons] at hfuel
      rw [List.append_assoc, List.cons_append,
        parseValue_stringify d fuel (by omega) (.cons (by simp) _)]
      cases d.value with
      | none => rfl
      | some v =>
        simp only [Option.map_some, skipSpace_cons (c := ',') rfl,
          parseElements_stringify d' ds fuel (by omega) rest, Option.map_map]
        rfl
    · exact List.cons_ne_nil _ _
    · exact List.cons_ne_nil _ _
termination_by fuel

theorem parseMembers_stringify (key : JsString) (d : Doc) (ds : List (JsString × Doc)) (fuel : Nat)
    (hfuel : (stringifyMembers ((key, d) :: ds)).length < fuel) (rest : List Char) :
    parseMembers fuel (stringifyMembers ((key, d) :: ds) ++ '\x7d' :: rest) =
      (valueMembers ((key, d) :: ds)).map fun vs => (vs, rest) := by
  obtain ⟨fuel, rfl⟩ : ∃ n, fuel = n + 1 := ⟨fuel - 1, by omega⟩
  rw [valueMembers]
  cases ds with
  | nil =>
    rw [stringifyMembers] at hfuel ⊢
    simp only [List.length_append, List.length_cons] at hfuel
    rw [List.append_assoc, List.cons_append, parseMembers_quoted,
      parseValue_stringify d fuel (by omega) (.cons (by simp) rest)]
    cases toUnicode key with
    | none => rfl
    | some key =>
      cases d.value with
      | none => rfl
      | some v => rfl
  | cons m ds =>
    obtain ⟨key', d'⟩ := m
    rw [stringifyMembers] at hfuel ⊢
    · simp only [List.length_append, List.length_cons] at hfuel
      rw [List.append_assoc, List.append_assoc, List.cons_append, List.cons_append,
        parseMembers_quoted, parseValue_stringify d fuel (by omega) (.cons (by simp) _)]
      cases toUnicode key with
      | none => rfl
      | some key =>
        cases d.value with
        | none => rfl
        | some v =>
          simp only [Option.map_some, skipSpace_cons (c := ',') rfl,
            parseMembers_stringify key' d' ds fuel (by omega) rest, Option.map_map]
          rfl
    · exact List.cons_ne_nil _ _
    · exact List.cons_ne_nil _ _
termination_by fuel

end

theorem parse_stringify (d : Doc) : parse d.stringify = d.value := by
  have hparse := parseValue_stringify d (d.stringify.length + 1) (Nat.le_succ _) (.inl rfl)
  rw [List.append_nil] at hparse
  rw [parse, hparse]
  cases d.value with
  | none => rfl
  | some v => rfl

end SmartC.JsonText
