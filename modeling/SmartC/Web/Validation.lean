import SmartC.JsonText
import SmartC.Lsp.Workspace

/-!
# What the web front end accepts

The routes for executions and for LSP sessions check the body of a request, and
hand it on together with the identity of the visitor and the address of the
client.
-/

namespace SmartC.Web

open Lsp
open JsonText (Doc)

/-! ### Validation -/

def isRecord : Option Json → Bool
  | some (.object _) | some (.array _) => true
  | _ => false

/-- `isValidSourceFileName(name)` of an unknown value. -/
def sourceFileName (name : Option Json) : Option JsString :=
  (Value.string name).filter Lsp.isValidSourceFileName

structure FileCheck where
  names : List JsString
  totalBytes : Nat
  validated : List CSourceFile

def FileCheck.start : FileCheck := ⟨[], 0, []⟩

def FileCheck.add (c : FileCheck) (file : CSourceFile) : FileCheck :=
  ⟨toLowerCase file.name :: c.names, c.totalBytes + byteLength file.content, c.validated ++ [file]⟩

def fileNameError : String :=
  "ファイル名は英数字、ハイフン、アンダースコアを使った.cまたは.hにしてください。"

def fileContentError : String := "ファイル内容にはNUL文字を含まない文字列を指定してください。"

def checkFiles (c : FileCheck) : List Json → Except String FileCheck
  | [] => .ok c
  | file :: files =>
    if !isRecord (some file) then .error fileNameError
    else
      match sourceFileName (Value.property "name" (some file)) with
      | none => .error fileNameError
      | some name =>
        match Value.string (Value.property "content" (some file)) with
        | none => .error fileContentError
        | some content =>
          if content.contains 0 then .error fileContentError
          else if c.names.contains (toLowerCase name) then
            .error "同じファイル名を複数指定できません。"
          else checkFiles (c.add ⟨name, content⟩) files

def validateFiles (files : Option Json) : Except String (List CSourceFile) :=
  match Value.array files with
  | none => .error "filesにはファイルの配列を指定してください。"
  | some files =>
    if files.length = 0 ∨ SOURCE_FILE_MAX_COUNT < files.length then
      .error "ファイル数は1から16件にしてください。"
    else
      match checkFiles .start files with
      | .error error => .error error
      | .ok c =>
        if !c.names.contains (js "main.c") then .error "main.cは削除できません。"
        else if SOURCE_MAX_BYTES < c.totalBytes then
          .error "全ファイルの合計は64KiB以内にしてください。"
        else .ok c.validated

/-- `Number.isInteger(value)` and the bounds, for bounds that are natural. -/
def integerBetween (lower upper : Nat) : Option Json → Option Nat
  | some (.number (.finite q)) =>
    if q.den = 1 ∧ (lower : Int) ≤ q.num ∧ q.num ≤ upper then some q.num.toNat else none
  | _ => none

structure TerminalSize where
  cols : Nat
  rows : Nat
  deriving DecidableEq, Repr

structure ExecutionRequest where
  files : List CSourceFile
  terminal : TerminalSize
  deriving DecidableEq, Repr

structure LspSessionRequest where
  files : List CSourceFile
  deriving DecidableEq, Repr

def validateLspSessionRequest (value : Json) : Except String LspSessionRequest :=
  if !isRecord (some value) then .error "リクエスト本文はオブジェクトにしてください。"
  else
    match validateFiles (Value.property "files" (some value)) with
    | .error error => .error error
    | .ok files => .ok ⟨files⟩

def validateExecutionRequest (value : Json) : Except String ExecutionRequest :=
  if !isRecord (some value) then .error "リクエスト本文はオブジェクトにしてください。"
  else
    match validateFiles (Value.property "files" (some value)) with
    | .error error => .error error
    | .ok files =>
      let terminal := Value.property "terminal" (some value)
      if !isRecord terminal then .error "terminalには端末サイズを指定してください。"
      else
        match integerBetween 20 240 (Value.property "cols" terminal) with
        | none => .error "terminal.colsは20から240の整数にしてください。"
        | some cols =>
          match integerBetween 5 80 (Value.property "rows" terminal) with
          | none => .error "terminal.rowsは5から80の整数にしてください。"
          | some rows => .ok ⟨files, ⟨cols, rows⟩⟩

/-! ### The request to the internal service -/

def isWhiteSpace (u : UInt16) : Bool :=
  (9 ≤ u && u ≤ 13) || u == 0x20 || u == 0xA0 || u == 0x1680 || (0x2000 ≤ u && u ≤ 0x200A) ||
    u == 0x2028 || u == 0x2029 || u == 0x202F || u == 0x205F || u == 0x3000 || u == 0xFEFF

def trim (s : JsString) : JsString :=
  ((s.dropWhile isWhiteSpace).reverse.dropWhile isWhiteSpace).reverse

def getClientIp (forwarded : Option JsString) : JsString :=
  match forwarded with
  | none => js "unknown"
  | some forwarded =>
    let clientIp := (trim (forwarded.takeWhile (· != 0x2C))).take 128
    if clientIp.isEmpty then js "unknown" else clientIp

def isVisitorUnit (u : UInt16) : Bool :=
  (0x30 ≤ u && u ≤ 0x39) || (0x61 ≤ u && u ≤ 0x66) || (0x41 ≤ u && u ≤ 0x46) || u == 0x2D

/-- The identities that `getVisitorIdentity` restores or issues. -/
def isVisitorId (id : JsString) : Bool := id.length == 36 && id.all isVisitorUnit

def fileDoc (file : CSourceFile) : Doc :=
  .object [(js "name", .string file.name), (js "content", .string file.content)]

/-- The body that the executions route gives to `createInternalSession`. -/
def internalRequest (request : ExecutionRequest) (visitorId clientIp : JsString) : Doc :=
  .object [
    (js "files", .array (request.files.map fileDoc)),
    (js "terminal", .object [(js "cols", .number request.terminal.cols),
      (js "rows", .number request.terminal.rows)]),
    (js "visitorId", .string visitorId),
    (js "clientIp", .string clientIp)]

def internalLspRequest (request : LspSessionRequest) (visitorId clientIp : JsString) : Doc :=
  .object [
    (js "files", .array (request.files.map fileDoc)),
    (js "visitorId", .string visitorId),
    (js "clientIp", .string clientIp)]

/-! ### What is known of an accepted request -/

def normalizedNames (files : List CSourceFile) : List JsString :=
  files.map fun f => toLowerCase f.name

structure FilesAccepted (files : List CSourceFile) : Prop where
  nonempty : files ≠ []
  count : files.length ≤ SOURCE_FILE_MAX_COUNT
  names : ∀ f ∈ files, Lsp.isValidSourceFileName f.name = true
  text : ∀ f ∈ files, 0 ∉ f.content
  distinct : (normalizedNames files).Nodup
  size : (files.map fun f => byteLength f.content).sum ≤ SOURCE_MAX_BYTES

structure ExecutionRequest.Accepted (request : ExecutionRequest) : Prop where
  files : FilesAccepted request.files
  cols : 20 ≤ request.terminal.cols ∧ request.terminal.cols ≤ 240
  rows : 5 ≤ request.terminal.rows ∧ request.terminal.rows ≤ 80

/-- What the variables of the loop say about the files validated so far. -/
structure FileCheck.Consistent (c : FileCheck) : Prop where
  names : c.names = (normalizedNames c.validated).reverse
  totalBytes : c.totalBytes = (c.validated.map fun f => byteLength f.content).sum
  valid : ∀ f ∈ c.validated, Lsp.isValidSourceFileName f.name = true ∧ 0 ∉ f.content
  distinct : c.names.Nodup

theorem FileCheck.Consistent.start : FileCheck.start.Consistent :=
  ⟨rfl, rfl, nofun, List.nodup_nil⟩

theorem FileCheck.Consistent.add {c : FileCheck} (h : c.Consistent) {file : CSourceFile}
    (hname : Lsp.isValidSourceFileName file.name = true) (htext : 0 ∉ file.content)
    (hfresh : toLowerCase file.name ∉ c.names) : (c.add file).Consistent where
  names := by simp [FileCheck.add, normalizedNames, h.names]
  totalBytes := by simp [FileCheck.add, h.totalBytes]
  valid := by
    intro f hf
    rcases List.mem_append.1 hf with hf | hf
    · exact h.valid f hf
    · obtain rfl := List.mem_singleton.1 hf
      exact ⟨hname, htext⟩
  distinct := List.nodup_cons.2 ⟨hfresh, h.distinct⟩

theorem checkFiles_ok {c c' : FileCheck} {entries : List Json} (hc : c.Consistent)
    (h : checkFiles c entries = .ok c') :
    c'.Consistent ∧ c'.validated.length = c.validated.length + entries.length := by
  induction entries generalizing c with
  | nil =>
    cases h
    exact ⟨hc, rfl⟩
  | cons entry entries ih =>
    rw [checkFiles] at h
    repeat' split at h
    iterate 5 cases h
    next name hname _ content _ hnul hfresh =>
    obtain ⟨-, hvalid⟩ := Option.filter_eq_some_iff.1 hname
    rw [List.contains_iff_mem] at hnul hfresh
    obtain ⟨hconsistent, hlength⟩ := ih (hc.add hvalid hnul hfresh) h
    refine ⟨hconsistent, ?_⟩
    rw [hlength, FileCheck.add, List.length_append, List.length_singleton, List.length_cons]
    omega

theorem validateFiles_ok {value : Option Json} {files : List CSourceFile}
    (h : validateFiles value = .ok files) : FilesAccepted files := by
  unfold validateFiles at h
  split at h
  · cases h
  · next entries _ =>
    split at h
    · cases h
    · next hcount =>
      obtain ⟨hnonempty, hcount⟩ := not_or.1 hcount
      split at h
      · cases h
      · next c hloop =>
        obtain ⟨hc, hlength⟩ := checkFiles_ok .start hloop
        rw [FileCheck.start, List.length_nil, Nat.zero_add] at hlength
        repeat' split at h
        iterate 2 cases h
        next hmain hsize =>
        cases h
        refine ⟨?_, hlength ▸ Nat.le_of_not_lt hcount, fun f hf => (hc.valid f hf).1,
          fun f hf => (hc.valid f hf).2, ?_, ?_⟩
        · intro hnil
          rw [hnil] at hlength
          exact hnonempty hlength.symm
        · have hnodup := hc.distinct
          rwa [hc.names, List.nodup_reverse] at hnodup
        · rwa [hc.totalBytes, Nat.not_lt] at hsize

theorem integerBetween_some {lower upper n : Nat} {value : Option Json}
    (h : integerBetween lower upper value = some n) : lower ≤ n ∧ n ≤ upper := by
  unfold integerBetween at h
  split at h
  · split at h
    · next hrange =>
      cases h
      omega
    · cases h
  · cases h

theorem validateExecutionRequest_ok {value : Json} {request : ExecutionRequest}
    (h : validateExecutionRequest value = .ok request) : request.Accepted := by
  unfold validateExecutionRequest at h
  split at h
  · cases h
  · split at h
    · cases h
    · next files hfiles =>
      simp only at h
      repeat' split at h
      iterate 3 cases h
      next cols hcols _ rows hrows =>
      cases h
      exact ⟨validateFiles_ok hfiles, integerBetween_some hcols, integerBetween_some hrows⟩

theorem validateLspSessionRequest_ok {value : Json} {request : LspSessionRequest}
    (h : validateLspSessionRequest value = .ok request) : FilesAccepted request.files := by
  unfold validateLspSessionRequest at h
  split at h
  · cases h
  · split at h
    · cases h
    · next files hfiles =>
      cases h
      exact validateFiles_ok hfiles

theorem getClientIp_ne_nil (forwarded : Option JsString) : getClientIp forwarded ≠ [] := by
  unfold getClientIp
  split
  · decide
  · simp only
    split
    · decide
    · next h => exact fun hnil => h (List.isEmpty_iff.2 hnil)

end SmartC.Web
