import SmartC.Web.Executions

/-!
# The size of the internal requests

Validation bounds the bytes of the sources, the internal services bound the
bytes of the JSON text that carries them. No unit of a string takes more than
six bytes in that text, and none takes less than one byte in the source.
-/

namespace SmartC.Web

open Lsp
open JsonText (Doc quoteUnit quote quoted hexChar hexChars stringifyElements stringifyMembers)

/-- The limit of executor-api for a body. -/
def executorBodyLimit : Nat := 512 * 1024

/-- The limit of the LSP service for a body. -/
def REQUEST_MAX_BYTES : Nat := 512 * 1024

def utf8Length (text : List Char) : Nat := (Utf8.encode (String.ofList text)).length

def bodyLength (body : Doc) : Nat := utf8Length body.stringify

/-! ### Strings -/

@[simp]
theorem utf8Length_nil : utf8Length [] = 0 := rfl

theorem utf8Length_eq (text : List Char) : utf8Length text = (text.map Char.utf8Size).sum := by
  simp only [utf8Length, Utf8.encode, String.toList_ofList, List.length_flatMap,
    String.length_utf8EncodeChar]

@[simp]
theorem utf8Length_append (a b : List Char) : utf8Length (a ++ b) = utf8Length a + utf8Length b := by
  simp only [utf8Length_eq, List.map_append, List.sum_append]

@[simp]
theorem utf8Length_cons (c : Char) (text : List Char) :
    utf8Length (c :: text) = c.utf8Size + utf8Length text := by
  simp only [utf8Length_eq, List.map_cons, List.sum_cons]

theorem utf8Size_hexChar : ∀ n < 16, (hexChar n).utf8Size = 1 := by decide

theorem utf8Length_hexChars (u : UInt16) : utf8Length (hexChars u) = 4 := by
  have hlt := u.toNat_lt
  simp only [hexChars, utf8Length_cons, utf8Length_nil, utf8Size_hexChar (u.toNat / 4096) (by omega),
    utf8Size_hexChar (u.toNat / 256 % 16) (by omega), utf8Size_hexChar (u.toNat / 16 % 16) (by omega),
    utf8Size_hexChar (u.toNat % 16) (by omega)]

theorem utf8Length_quoteUnit (u : UInt16) : utf8Length (quoteUnit u) ≤ 6 := by
  unfold quoteUnit
  split
  iterate 7 decide
  split
  · rw [utf8Length_cons, utf8Length_cons, utf8Length_hexChars]
    decide
  · have hsize := (Char.ofNat u.toNat).utf8Size_le_four
    rw [utf8Length_cons, utf8Length_nil]
    omega

theorem utf8Length_quote_le_length (s : JsString) : utf8Length (quote s) ≤ 6 * s.length := by
  fun_induction quote s with
  | case1 => exact Nat.zero_le _
  | case2 u => exact utf8Length_quoteUnit u
  | case3 hi lo rest _ ih =>
    have hsize := (Char.ofNat (pairCodePoint hi lo)).utf8Size_le_four
    rw [utf8Length_cons, List.length_cons, List.length_cons]
    omega
  | case4 hi lo rest _ ih =>
    have hunit := utf8Length_quoteUnit hi
    rw [utf8Length_append, List.length_cons]
    omega

theorem length_encodeCodePoint_pos (c : Nat) : 0 < (encodeCodePoint c).length := by
  unfold encodeCodePoint
  split_ifs <;> exact Nat.succ_pos _

/-- Escaping makes no string more than six times as long. -/
theorem utf8Length_quote_le_byteLength (s : JsString) :
    utf8Length (quote s) ≤ 6 * byteLength s := by
  unfold byteLength toUtf8
  fun_induction quote s with
  | case1 => exact Nat.zero_le _
  | case2 u =>
    have hunit := utf8Length_quoteUnit u
    have hpos := length_encodeCodePoint_pos (loneCodePoint u)
    rw [codePoints, List.flatMap_singleton]
    omega
  | case3 hi lo rest hpair ih =>
    have hsize := (Char.ofNat (pairCodePoint hi lo)).utf8Size_le_four
    have hpos := length_encodeCodePoint_pos
      (0x10000 + (hi.toNat - 0xD800) * 0x400 + (lo.toNat - 0xDC00))
    rw [codePoints, if_pos hpair, utf8Length_cons, List.flatMap_cons, List.length_append]
    omega
  | case4 hi lo rest hpair ih =>
    have hunit := utf8Length_quoteUnit hi
    have hpos := length_encodeCodePoint_pos (loneCodePoint hi)
    rw [codePoints, if_neg hpair, utf8Length_append, List.flatMap_cons, List.length_append]
    omega

theorem utf8Length_quoted (s : JsString) : utf8Length (quoted s) = utf8Length (quote s) + 2 := by
  have hquote : ('"').utf8Size = 1 := by decide
  simp only [quoted, utf8Length_append, utf8Length_cons, utf8Length_nil, hquote]
  omega

/-! ### Objects -/

theorem bodyLength_string (s : JsString) : bodyLength (.string s) = utf8Length (quote s) + 2 := by
  rw [bodyLength, Doc.stringify, utf8Length_quoted]

theorem bodyLength_string_le {s : JsString} {n : Nat} (h : s.length ≤ n) :
    bodyLength (.string s) ≤ 6 * n + 2 := by
  have hquote := utf8Length_quote_le_length s
  rw [bodyLength_string]
  omega

theorem bodyLength_object (ms : List (JsString × Doc)) :
    bodyLength (.object ms) = utf8Length (stringifyMembers ms) + 2 := by
  have hbraces : ('\x7b').utf8Size = 1 ∧ ('\x7d').utf8Size = 1 := by decide
  simp only [bodyLength, Doc.stringify, utf8Length_cons, utf8Length_append, utf8Length_nil,
    hbraces.1, hbraces.2]
  omega

theorem utf8Length_member (key : JsString) (d : Doc) :
    utf8Length (stringifyMembers [(key, d)]) = utf8Length (quoted key) + 1 + bodyLength d := by
  have hcolon : (':').utf8Size = 1 := by decide
  rw [stringifyMembers, utf8Length_append, utf8Length_cons, hcolon, bodyLength]
  omega

theorem utf8Length_members (key : JsString) (d : Doc) (m : JsString × Doc)
    (ms : List (JsString × Doc)) : utf8Length (stringifyMembers ((key, d) :: m :: ms)) =
      utf8Length (quoted key) + bodyLength d + 2 + utf8Length (stringifyMembers (m :: ms)) := by
  have hmarks : (':').utf8Size = 1 ∧ (',').utf8Size = 1 := by decide
  simp only [stringifyMembers, utf8Length_append, utf8Length_cons, hmarks.1, hmarks.2, bodyLength]
  omega

/-! ### Files -/

theorem length_le_of_valid {name : JsString} (h : Lsp.isValidSourceFileName name = true) :
    name.length ≤ 64 := by
  simp only [Lsp.isValidSourceFileName, Bool.and_eq_true, decide_eq_true_eq] at h
  exact h.1.1

theorem bodyLength_fileDoc {f : CSourceFile} (hname : Lsp.isValidSourceFileName f.name = true) :
    bodyLength (fileDoc f) ≤ 408 + 6 * byteLength f.content := by
  have hkeys : utf8Length (quoted (js "name")) = 6 ∧ utf8Length (quoted (js "content")) = 9 := by
    decide +kernel
  have hfirst := bodyLength_string_le (length_le_of_valid hname)
  have hsecond := utf8Length_quote_le_byteLength f.content
  rw [fileDoc, bodyLength_object, utf8Length_members, utf8Length_member, hkeys.1, hkeys.2,
    bodyLength_string f.content]
  omega

theorem utf8Length_files {files : List CSourceFile}
    (hnames : ∀ f ∈ files, Lsp.isValidSourceFileName f.name = true) :
    utf8Length (stringifyElements (files.map fileDoc)) ≤
      409 * files.length + 6 * (files.map fun f => byteLength f.content).sum := by
  induction files with
  | nil => exact Nat.zero_le _
  | cons f files ih =>
    obtain ⟨hname, hnames⟩ := List.forall_mem_cons.1 hnames
    have hfirst := bodyLength_fileDoc hname
    have hrest := ih hnames
    have hcomma : (',').utf8Size = 1 := by decide
    rw [bodyLength] at hfirst
    cases files with
    | nil =>
      simp only [List.map_cons, List.map_nil, stringifyElements, List.length_cons, List.length_nil,
        List.sum_cons, List.sum_nil]
      omega
    | cons g files =>
      simp only [List.map_cons, stringifyElements, utf8Length_append, utf8Length_cons, hcomma,
        List.length_cons, List.sum_cons] at hrest ⊢
      omega

theorem bodyLength_files {files : List CSourceFile} (h : FilesAccepted files) :
    bodyLength (.array (files.map fileDoc)) ≤ 399762 := by
  have hfiles := utf8Length_files h.names
  have hcount := h.count
  have hsize := h.size
  have hbrackets : ('[').utf8Size = 1 ∧ (']').utf8Size = 1 := by decide
  simp only [SOURCE_FILE_MAX_COUNT, SOURCE_MAX_BYTES] at hcount hsize
  simp only [bodyLength, Doc.stringify, utf8Length_cons, utf8Length_append, utf8Length_nil,
    hbrackets.1, hbrackets.2]
  omega

/-! ### Requests -/

theorem bodyLength_number : ∀ n ≤ 240, bodyLength (.number n) ≤ 3 := by decide +kernel

theorem bodyLength_terminal {cols rows : Nat} (hcols : cols ≤ 240) (hrows : rows ≤ 240) :
    bodyLength (.object [(js "cols", .number cols), (js "rows", .number rows)]) ≤ 23 := by
  have hkeys : utf8Length (quoted (js "cols")) = 6 ∧ utf8Length (quoted (js "rows")) = 6 := by
    decide +kernel
  have hfirst := bodyLength_number cols hcols
  have hsecond := bodyLength_number rows hrows
  rw [bodyLength_object, utf8Length_members, utf8Length_member, hkeys.1, hkeys.2]
  omega

/-- Every request that the routes accept fits the limits of the internal services. -/
theorem requests_fit_the_body_limits (body : Json) (visitorId clientIp : JsString)
    (hvisitor : isVisitorId visitorId = true) (hip : clientIp.length ≤ 128) :
    (∀ request, validateExecutionRequest body = .ok request →
      bodyLength (internalRequest request visitorId clientIp) ≤ executorBodyLimit) ∧
    (∀ request, validateLspSessionRequest body = .ok request →
      bodyLength (internalLspRequest request visitorId clientIp) ≤ REQUEST_MAX_BYTES) := by
  have hkeys : utf8Length (quoted (js "files")) = 7 ∧ utf8Length (quoted (js "terminal")) = 10 ∧
      utf8Length (quoted (js "visitorId")) = 11 ∧ utf8Length (quoted (js "clientIp")) = 10 := by
    decide +kernel
  have hlength : visitorId.length ≤ 36 := (beq_iff_eq.1 (Bool.and_eq_true_iff.1 hvisitor).1).le
  have hid := bodyLength_string_le hlength
  have hip := bodyLength_string_le hip
  constructor
  · intro request hrequest
    have haccepted := validateExecutionRequest_ok hrequest
    have hfiles := bodyLength_files haccepted.files
    have hterminal := bodyLength_terminal haccepted.cols.2 (haccepted.rows.2.trans (by decide))
    rw [internalRequest, bodyLength_object, utf8Length_members, utf8Length_members,
      utf8Length_members, utf8Length_member, hkeys.1, hkeys.2.1, hkeys.2.2.1, hkeys.2.2.2,
      executorBodyLimit]
    omega
  · intro request hrequest
    have hfiles := bodyLength_files (validateLspSessionRequest_ok hrequest)
    rw [internalLspRequest, bodyLength_object, utf8Length_members, utf8Length_members,
      utf8Length_member, hkeys.1, hkeys.2.2.1, hkeys.2.2.2, REQUEST_MAX_BYTES]
    omega

/-- A source of a control character and a lone surrogate. -/
theorem escaped_source_fits :
    validateExecutionRequest (bodyOf (js "main.c") [1, 0xD800]) =
        .ok ⟨[⟨js "main.c", [1, 0xD800]⟩], ⟨80, 24⟩⟩ ∧
      bodyLength (internalRequest ⟨[⟨js "main.c", [1, 0xD800]⟩], ⟨80, 24⟩⟩ visitor
        (js "192.0.2.1")) ≤ executorBodyLimit := by
  have hbody : validateExecutionRequest (bodyOf (js "main.c") [1, 0xD800]) =
      .ok ⟨[⟨js "main.c", [1, 0xD800]⟩], ⟨80, 24⟩⟩ := by decide +kernel
  exact ⟨hbody, (requests_fit_the_body_limits (bodyOf (js "main.c") [1, 0xD800]) visitor
    (js "192.0.2.1") (by decide +kernel) (by decide +kernel)).1 _ hbody⟩

end SmartC.Web
