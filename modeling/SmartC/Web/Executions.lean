import SmartC.Executor.Validation
import SmartC.FileNames
import SmartC.Web.Validation

/-!
# From the web front end to the executor

The executor decodes the text that the executions route sends and validates it
once more. A file that the route accepts has the same `facts` for the executor
if its content is well formed; the rules of the two differ in four places.
-/

namespace SmartC

/-! ### The executor's decoder -/

namespace Executor

open JsonText (Value)

/-- The fields of a structure that denies unknown fields, in the order of its declaration. -/
def fieldsOf (names : List String) : Value → Option (List Value)
  | .object members =>
    if (members.map (·.1)).Nodup ∧ ∀ m ∈ members, m.1 ∈ names then
      names.mapM fun name => members.lookup name
    else none
  | .array elements => if elements.length = names.length then some elements else none
  | _ => none

def decodeString : Value → Option String
  | .string s => some s
  | _ => none

def decodeU16 : Value → Option UInt16
  | .number (.integer false n) => if n < 2 ^ 16 then some (UInt16.ofNat n) else none
  | _ => none

def SourceFile.decode (v : Value) : Option SourceFile :=
  match fieldsOf ["name", "content"] v with
  | some [name, content] => do return ⟨← decodeString name, ← decodeString content⟩
  | _ => none

def TerminalSize.decode (v : Value) : Option TerminalSize :=
  match fieldsOf ["cols", "rows"] v with
  | some [cols, rows] => do return ⟨← decodeU16 cols, ← decodeU16 rows⟩
  | _ => none

def decodeFiles : Value → Option (List SourceFile)
  | .array elements => elements.mapM SourceFile.decode
  | _ => none

def CreateExecutionRequest.decode (v : Value) : Option CreateExecutionRequest :=
  match fieldsOf ["files", "terminal", "visitorId", "clientIp"] v with
  | some [files, terminal, visitorId, clientIp] => do
    return ⟨← decodeFiles files, ← TerminalSize.decode terminal, ← decodeString visitorId,
      ← decodeString clientIp⟩
  | _ => none

/-- Whether the text is a request, and one that `validate_request` accepts. -/
def accepts (text : List Char) : Bool :=
  match (JsonText.parse text).bind CreateExecutionRequest.decode with
  | none => false
  | some request => validateRequest request = .ok ()

end Executor

namespace Web

open Lsp
open JsonText (Doc Value valueElements valueMembers)

/-! ### The text -/

def decodedFile (f : CSourceFile) : Option Executor.SourceFile := do
  return ⟨← toUnicode f.name, ← toUnicode f.content⟩

theorem fileDoc_decode (f : CSourceFile) :
    (fileDoc f).value.bind Executor.SourceFile.decode = decodedFile f := by
  have hname : toUnicode (js "name") = some "name" := by decide +kernel
  have hcontent : toUnicode (js "content") = some "content" := by decide +kernel
  simp only [fileDoc, Doc.value, valueMembers, hname, hcontent, decodedFile]
  cases toUnicode f.name with
  | none => rfl
  | some name =>
    cases toUnicode f.content with
    | none => rfl
    | some content => rfl

theorem files_decode (files : List CSourceFile) :
    (valueElements (files.map fileDoc)).bind (·.mapM Executor.SourceFile.decode) =
      files.mapM decodedFile := by
  induction files with
  | nil => rfl
  | cons f files ih =>
    rw [List.map_cons, valueElements, List.mapM_cons, ← ih, ← fileDoc_decode f]
    cases (fileDoc f).value with
    | none => rfl
    | some v =>
      cases valueElements (files.map fileDoc) with
      | none =>
        simp
      | some vs =>
        simp

theorem terminal_decode {request : ExecutionRequest} (h : request.Accepted) :
    Executor.TerminalSize.decode (.object [
        ("cols", .number (.integer false request.terminal.cols)),
        ("rows", .number (.integer false request.terminal.rows))]) =
      some ⟨.ofNat request.terminal.cols, .ofNat request.terminal.rows⟩ := by
  have hcols : request.terminal.cols < 2 ^ 16 := Nat.lt_of_le_of_lt h.cols.2 (by decide)
  have hrows : request.terminal.rows < 2 ^ 16 := Nat.lt_of_le_of_lt h.rows.2 (by decide)
  have hdecode : ∀ {n : Nat}, n < 2 ^ 16 →
      Executor.decodeU16 (.number (.integer false n)) = some (.ofNat n) := fun h => if_pos h
  have hfields : ∀ cols rows, Executor.TerminalSize.decode (.object [("cols", cols), ("rows", rows)])
      = do return ⟨← Executor.decodeU16 cols, ← Executor.decodeU16 rows⟩ := fun _ _ => rfl
  rw [hfields, hdecode hcols, hdecode hrows]
  rfl

theorem request_decode (files terminal visitorId clientIp : Value) :
    Executor.CreateExecutionRequest.decode (.object [("files", files), ("terminal", terminal),
      ("visitorId", visitorId), ("clientIp", clientIp)]) = do
        return ⟨← Executor.decodeFiles files, ← Executor.TerminalSize.decode terminal,
          ← Executor.decodeString visitorId, ← Executor.decodeString clientIp⟩ := by
  rfl

theorem internalRequest_decode {request : ExecutionRequest} (h : request.Accepted)
    (visitorId clientIp : JsString) :
    (JsonText.parse (internalRequest request visitorId clientIp).stringify).bind
      Executor.CreateExecutionRequest.decode = do
        let files ← request.files.mapM decodedFile
        let visitorId ← toUnicode visitorId
        let clientIp ← toUnicode clientIp
        return ⟨files, ⟨.ofNat request.terminal.cols, .ofNat request.terminal.rows⟩, visitorId,
          clientIp⟩ := by
  have hfiles : toUnicode (js "files") = some "files" := by decide +kernel
  have hterminal : toUnicode (js "terminal") = some "terminal" := by decide +kernel
  have hcols : toUnicode (js "cols") = some "cols" := by decide +kernel
  have hrows : toUnicode (js "rows") = some "rows" := by decide +kernel
  have hvisitor : toUnicode (js "visitorId") = some "visitorId" := by decide +kernel
  have hclient : toUnicode (js "clientIp") = some "clientIp" := by decide +kernel
  rw [JsonText.parse_stringify, ← files_decode]
  simp only [internalRequest, Doc.value, valueMembers, hfiles, hterminal, hcols, hrows, hvisitor,
    hclient, Option.map_some]
  cases valueElements (request.files.map fileDoc) with
  | none => rfl
  | some vs =>
    cases toUnicode visitorId with
    | none => simp
    | some visitorId =>
      cases toUnicode clientIp with
      | none => simp
      | some clientIp =>
        simp only [Option.map_some, Option.bind_some, request_decode, terminal_decode h]
        rfl

/-! ### Files -/

theorem toAsciiLowercase_asciiText {name : JsString} (h : IsAscii name) :
    Executor.toAsciiLowercase (asciiText name) = asciiText (toLowerCase name) := by
  have hlower : ∀ n < 0x80, (Char.ofNat n).toLower =
      Char.ofNat (if 0x41 ≤ UInt16.ofNat n ∧ UInt16.ofNat n ≤ 0x5A then UInt16.ofNat n + 0x20
        else UInt16.ofNat n).toNat := by decide +kernel
  rw [Executor.toAsciiLowercase, asciiText, String.toList_ofList, asciiText, toLowerCase,
    List.map_map, List.map_map]
  refine congrArg String.ofList (List.map_congr_left fun u hu => ?_)
  have hu := hlower u.toNat (h u hu)
  rwa [UInt16.ofNat_toNat] at hu

theorem isAscii_toLowerCase {name : JsString} (h : IsAscii name) : IsAscii (toLowerCase name) := by
  intro v hv
  obtain ⟨u, hu, rfl⟩ := List.mem_map.1 hv
  have hlower : ∀ n < 0x80, (if 0x41 ≤ UInt16.ofNat n ∧ UInt16.ofNat n ≤ 0x5A then
      UInt16.ofNat n + 0x20 else UInt16.ofNat n).toNat < 0x80 := by decide +kernel
  have hu := hlower u.toNat (h u hu)
  rwa [UInt16.ofNat_toNat] at hu

def fileFacts (f : CSourceFile) : FileFacts :=
  ⟨asciiText f.name, byteLength f.content, f.content.contains 0⟩

theorem decodedFile_eq_some {f : CSourceFile} {source : Executor.SourceFile}
    (hname : Lsp.isValidSourceFileName f.name = true) :
    decodedFile f = some source ↔
      source.name = asciiText f.name ∧ toUnicode f.content = some source.content := by
  rw [decodedFile, toUnicode_ascii (isAscii_of_valid hname)]
  cases toUnicode f.content with
  | none => simp
  | some content =>
    obtain ⟨name, text⟩ := source
    simp [eq_comm]

theorem facts_of_decodedFile {f : CSourceFile} {source : Executor.SourceFile}
    (hname : Lsp.isValidSourceFileName f.name = true) (h : decodedFile f = some source) :
    source.facts = fileFacts f := by
  obtain ⟨hsource, hcontent⟩ := (decodedFile_eq_some hname).1 h
  have hnul : source.content.toList.contains '\x00' = f.content.contains 0 := by
    rw [Bool.eq_iff_iff, List.contains_iff_mem, List.contains_iff_mem]
    exact zero_mem_of_toUnicode hcontent
  rw [Executor.SourceFile.facts, fileFacts, hsource, byteLength_of_toUnicode hcontent, hnul]

theorem decodedFiles_facts {files : List CSourceFile} {sources : List Executor.SourceFile}
    (hnames : ∀ f ∈ files, Lsp.isValidSourceFileName f.name = true)
    (h : files.mapM decodedFile = some sources) :
    sources.map Executor.SourceFile.facts = files.map fileFacts ∧
      ∀ f ∈ files, (toUnicode f.content).isSome = true := by
  rw [mapM_eq_some] at h
  induction files generalizing sources with
  | nil =>
    obtain rfl := List.map_eq_nil_iff.1 h.symm
    exact ⟨rfl, nofun⟩
  | cons f files ih =>
    obtain ⟨hname, hnames⟩ := List.forall_mem_cons.1 hnames
    cases sources with
    | nil => cases h
    | cons source sources =>
      obtain ⟨hsource, hsources⟩ := List.cons.inj h
      obtain ⟨hfacts, htexts⟩ := ih hnames hsources
      have htext := ((decodedFile_eq_some hname).1 hsource).2
      refine ⟨?_, List.forall_mem_cons.2 ⟨Option.isSome_of_eq_some htext, htexts⟩⟩
      rw [List.map_cons, List.map_cons, facts_of_decodedFile hname hsource, hfacts]

theorem exists_decodedFiles {files : List CSourceFile}
    (hnames : ∀ f ∈ files, Lsp.isValidSourceFileName f.name = true)
    (h : ∀ f ∈ files, (toUnicode f.content).isSome = true) :
    ∃ sources, files.mapM decodedFile = some sources := by
  refine ⟨files.map fun f => ⟨asciiText f.name, (toUnicode f.content).getD ""⟩, ?_⟩
  rw [mapM_eq_some, List.map_map]
  refine List.map_congr_left fun f hf => (decodedFile_eq_some (hnames f hf)).2 ⟨rfl, ?_⟩
  obtain ⟨text, htext⟩ := Option.isSome_iff_exists.1 (h f hf)
  simp only [htext, Option.getD_some]

/-- The rules of the executor that the front end does not check. -/
theorem acceptable_fileFacts {files : List CSourceFile} (h : FilesAccepted files) :
    Acceptable (files.map fileFacts) ↔
      (∃ f ∈ files, f.name = js "main.c") ∧ ∃ f ∈ files, f.content ≠ [] := by
  have hascii : ∀ f ∈ files, IsAscii f.name := fun f hf => isAscii_of_valid (h.names f hf)
  have hkeys : (files.map fileFacts).map FileFacts.key = (normalizedNames files).map asciiText := by
    rw [normalizedNames, List.map_map, List.map_map]
    exact List.map_congr_left fun f hf => toAsciiLowercase_asciiText (hascii f hf)
  have htotal : FileFacts.total (files.map fileFacts) =
      (files.map fun f => byteLength f.content).sum := by
    rw [FileFacts.total, List.map_map]
    rfl
  have hmain : (∃ f ∈ files.map fileFacts, f.name = "main.c") ↔
      ∃ f ∈ files, f.name = js "main.c" := by
    have htext : asciiText (js "main.c") = "main.c" := by decide +kernel
    have hjs : IsAscii (js "main.c") := isAscii_of_all (by decide)
    simp only [List.mem_map, exists_exists_and_eq_and]
    refine exists_congr fun f => and_congr_right fun hf => ?_
    rw [← htext]
    exact ⟨asciiText_injective (hascii f hf) hjs, congrArg asciiText⟩
  have hcontent : (files.map fun f => byteLength f.content).sum ≠ 0 ↔
      ∃ f ∈ files, f.content ≠ [] := by
    simp [List.sum_eq_zero_iff_forall_eq_nat, byteLength_eq_zero]
  constructor
  · intro hacceptable
    exact ⟨hmain.1 hacceptable.main, hcontent.1 (htotal ▸ hacceptable.content)⟩
  · rintro ⟨hsome, hnonempty⟩
    refine ⟨?_, ?_, ?_, ?_, ?_, hmain.2 hsome, ?_, ?_⟩
    · exact fun hnil => h.nonempty (List.map_eq_nil_iff.1 hnil)
    · rw [List.length_map]
      exact h.count
    · exact List.forall_mem_map.2 fun f hf =>
        (isValidSourceFileName_asciiText (hascii f hf)).trans (h.names f hf)
    · rw [hkeys]
      refine h.distinct.map_on fun a ha b hb hab => ?_
      obtain ⟨f, hf, rfl⟩ := List.mem_map.1 ha
      obtain ⟨g, hg, rfl⟩ := List.mem_map.1 hb
      exact asciiText_injective (isAscii_toLowerCase (hascii f hf))
        (isAscii_toLowerCase (hascii g hg)) hab
    · exact List.forall_mem_map.2 fun f hf => by simpa [fileFacts] using h.text f hf
    · rw [htotal]
      exact hcontent.2 hnonempty
    · rw [htotal]
      exact h.size

/-! ### The whole request -/

theorem validateTerminal_ok {request : ExecutionRequest} (h : request.Accepted) :
    Executor.validateTerminal ⟨.ofNat request.terminal.cols, .ofNat request.terminal.rows⟩ =
      .ok () := by
  obtain ⟨-, hcols, hrows⟩ := h
  have hnat : ∀ {n : Nat}, n ≤ 240 → (UInt16.ofNat n).toNat = n := fun hn =>
    UInt16.toNat_ofNat_of_lt (Nat.lt_of_le_of_lt hn (by decide))
  refine if_pos ?_
  simp only [UInt16.le_iff_toNat_le, hnat hcols.2, hnat (hrows.2.trans (by decide))]
  exact ⟨hcols.1, hcols.2, hrows.1, hrows.2⟩

theorem isAscii_of_isVisitorId {id : JsString} (h : isVisitorId id = true) :
    id.length = 36 ∧ IsAscii id := by
  obtain ⟨hlength, hunits⟩ := Bool.and_eq_true_iff.1 h
  refine ⟨beq_iff_eq.1 hlength, fun u hu => ?_⟩
  have hunit := List.all_eq_true.1 hunits u hu
  simp only [isVisitorUnit, Bool.or_eq_true, Bool.and_eq_true, decide_eq_true_eq,
    UInt16.le_iff_toNat_le, beq_iff_eq] at hunit
  rcases hunit with ((h | h) | h) | rfl
  · exact Nat.lt_of_le_of_lt h.2 (by decide)
  · exact Nat.lt_of_le_of_lt h.2 (by decide)
  · exact Nat.lt_of_le_of_lt h.2 (by decide)
  · decide

theorem isEmpty_of_toUnicode {s : JsString} {text : String} (h : toUnicode s = some text) :
    text.isEmpty = false ↔ s ≠ [] := by
  rw [Ne, ← byteLength_eq_zero, byteLength_of_toUnicode h, ← Bool.not_eq_true, String.isEmpty_iff,
    String.utf8ByteSize_eq_zero_iff]

theorem accepts_eq_true {text : List Char} : Executor.accepts text = true ↔
    ∃ request, (JsonText.parse text).bind Executor.CreateExecutionRequest.decode = some request ∧
      Executor.validateRequest request = .ok () := by
  unfold Executor.accepts
  cases (JsonText.parse text).bind Executor.CreateExecutionRequest.decode <;> simp

/-- Where the rules of the executor are stricter: the contents and the address have no lone
surrogate, a file is named exactly `main.c`, some file has a content, and the address fits. -/
structure Portable (files : List CSourceFile) (clientIp : JsString) : Prop where
  text : ∀ f ∈ files, (toUnicode f.content).isSome = true
  main : ∃ f ∈ files, f.name = js "main.c"
  content : ∃ f ∈ files, f.content ≠ []
  clientIp : (toUnicode clientIp).isSome = true ∧ byteLength clientIp ≤ 64

theorem inRange_iff {r : Executor.CreateExecutionRequest} {visitorId clientIp : JsString}
    (hvisitor : isVisitorId visitorId = true) (hvisitorText : toUnicode visitorId = some r.visitorId)
    (hip : clientIp ≠ []) (hipText : toUnicode clientIp = some r.clientIp) :
    r.InRange ↔ byteLength clientIp ≤ 64 := by
  have hvisitorSize : r.visitorId.utf8ByteSize = 36 := by
    obtain ⟨hlength, hascii⟩ := isAscii_of_isVisitorId hvisitor
    rw [← byteLength_of_toUnicode hvisitorText, byteLength, toUtf8_ascii hascii, List.length_map,
      hlength]
  have hvisitorSome : visitorId ≠ [] := by
    rintro rfl
    cases hvisitor
  rw [byteLength_of_toUnicode hipText]
  constructor
  · exact fun h => h.clientIp.2
  · intro hsize
    exact ⟨⟨(isEmpty_of_toUnicode hvisitorText).2 hvisitorSome, by rw [hvisitorSize]; decide⟩,
      (isEmpty_of_toUnicode hipText).2 hip, hsize⟩

theorem executor_accepts_what_web_accepts (body : Json) (request : ExecutionRequest)
    (visitorId : JsString) (forwarded : Option JsString)
    (hbody : validateExecutionRequest body = .ok request) (hvisitor : isVisitorId visitorId = true) :
    Executor.accepts (internalRequest request visitorId (getClientIp forwarded)).stringify = true ↔
      Portable request.files (getClientIp forwarded) := by
  have haccepted := validateExecutionRequest_ok hbody
  have hvisitorText := toUnicode_ascii (isAscii_of_isVisitorId hvisitor).2
  have hip := getClientIp_ne_nil forwarded
  rw [accepts_eq_true, internalRequest_decode haccepted, hvisitorText]
  generalize getClientIp forwarded = clientIp at hip ⊢
  constructor
  · rintro ⟨r, hdecode, hvalid⟩
    obtain ⟨sources, hsources, hdecode⟩ := Option.bind_eq_some_iff.1 hdecode
    obtain ⟨_, ⟨⟩, hdecode⟩ := Option.bind_eq_some_iff.1 hdecode
    obtain ⟨ip, hipText, hdecode⟩ := Option.bind_eq_some_iff.1 hdecode
    cases hdecode
    obtain ⟨hfacts, htexts⟩ := decodedFiles_facts haccepted.files.names hsources
    obtain ⟨hacceptable, hrange, -⟩ := Executor.acceptable_of_validateRequest hvalid
    rw [hfacts, acceptable_fileFacts haccepted.files] at hacceptable
    exact ⟨htexts, hacceptable.1, hacceptable.2, Option.isSome_of_eq_some hipText,
      (inRange_iff hvisitor hvisitorText hip hipText).1 hrange⟩
  · intro hportable
    obtain ⟨sources, hsources⟩ := exists_decodedFiles haccepted.files.names hportable.text
    obtain ⟨ip, hipText⟩ := Option.isSome_iff_exists.1 hportable.clientIp.1
    rw [hsources, hipText]
    refine ⟨_, rfl, (Executor.validateRequest_of_acceptable ?_ ?_).trans
      (validateTerminal_ok haccepted)⟩
    · rw [(decodedFiles_facts haccepted.files.names hsources).1,
        acceptable_fileFacts haccepted.files]
      exact ⟨hportable.main, hportable.content⟩
    · exact (inRange_iff hvisitor hvisitorText hip hipText).2 hportable.clientIp.2

def bodyOf (name content : JsString) : Json :=
  .object [
    (js "files", .array [.object [(js "name", .string name), (js "content", .string content)]]),
    (js "terminal", .object [(js "cols", .number (.finite 80)), (js "rows", .number (.finite 24))])]

def visitor : JsString := js "6f9619ff-8b86-d011-b42d-00c04fc964ff"

/-- Whether the executor accepts what the route makes of a body that it accepts. -/
def submit (body : Json) (forwarded : Option JsString) : Option Bool :=
  match validateExecutionRequest body with
  | .error _ => none
  | .ok request =>
    some (Executor.accepts (internalRequest request visitor (getClientIp forwarded)).stringify)

theorem main_program_is_accepted :
    Executor.accepts (internalRequest ⟨[⟨js "main.c", js "int main(void)\x7b\x7d"⟩], ⟨80, 24⟩⟩ visitor
      (getClientIp (some (js "192.0.2.1, 10.0.0.1")))).stringify = true := by
  refine (executor_accepts_what_web_accepts (bodyOf (js "main.c") (js "int main(void)\x7b\x7d")) _ _ _
    (by decide +kernel) (by decide +kernel)).2 ⟨?_, ?_, ?_, ?_⟩
  iterate 4 decide +kernel

/-- An empty program, a main file in capitals, a lone surrogate, and an address of 65 digits. -/
theorem refused_by_the_executor :
    submit (bodyOf (js "main.c") []) none = some false ∧
    submit (bodyOf (js "Main.c") (js "int main(void)\x7b\x7d")) none = some false ∧
    submit (bodyOf (js "main.c") [0xD800]) none = some false ∧
    submit (bodyOf (js "main.c") (js "int main(void)\x7b\x7d"))
      (some (List.replicate 65 0x31)) = some false := by
  decide +kernel

end Web

end SmartC
