import SmartC.Executor.State
import SmartC.Executor.Validation
import SmartC.Worker.Execution

/-!
# What the API accepts, the worker accepts

The worker checks the files of an assignment once more, as bytes. A file and
its encoding have the same `facts`, so both validators decide whether a
project is `Acceptable`.
-/

namespace SmartC

def ProtocolSourceFile.facts (f : ProtocolSourceFile) : FileFacts :=
  ⟨f.name, f.content.length, f.content.contains 0⟩

/-- A file as `try_dispatch_one` puts it into an assignment. -/
def Executor.SourceFile.encode (f : Executor.SourceFile) : ProtocolSourceFile :=
  ⟨f.name, utf8 f.content⟩

theorem facts_encode (f : Executor.SourceFile) : f.encode.facts = f.facts := by
  have hlength : (utf8 f.content).length = f.content.utf8ByteSize := Utf8.length_encode f.content
  have hnul : (utf8 f.content).contains 0 = f.content.toList.contains '\x00' := by
    rw [Bool.eq_iff_iff, List.contains_iff_mem, List.contains_iff_mem]
    exact Utf8.zero_mem_encode f.content
  rw [ProtocolSourceFile.facts, Executor.SourceFile.encode, Executor.SourceFile.facts, hlength, hnul]

theorem map_facts_encode (files : List Executor.SourceFile) :
    (files.map Executor.SourceFile.encode).map ProtocolSourceFile.facts =
      files.map Executor.SourceFile.facts := by
  rw [List.map_map]
  exact List.map_congr_left fun f _ => facts_encode f

theorem encode_injective {files files' : List Executor.SourceFile}
    (h : files.map Executor.SourceFile.encode = files'.map Executor.SourceFile.encode) :
    files = files' := by
  refine List.map_injective_iff.2 (fun f g hfg => ?_) h
  obtain ⟨hname, hcontent⟩ := ProtocolSourceFile.mk.inj hfg
  have hcontent : f.content = g.content := Utf8.encode_injective hcontent
  cases f
  cases g
  simp_all

theorem exists_decoded {files : List ProtocolSourceFile}
    (h : ∀ f ∈ files, f.content.toByteArray.IsValidUTF8) :
    ∃ sources : List Executor.SourceFile, sources.map Executor.SourceFile.encode = files := by
  induction files with
  | nil => exact ⟨[], rfl⟩
  | cons f rest ih =>
    obtain ⟨hf, hrest⟩ := List.forall_mem_cons.1 h
    obtain ⟨text, htext⟩ := Utf8.exists_encode hf
    obtain ⟨sources, hsources⟩ := ih hrest
    refine ⟨⟨f.name, text⟩ :: sources, ?_⟩
    rw [List.map_cons, hsources, Executor.SourceFile.encode]
    exact congrArg (· :: rest) (congrArg (ProtocolSourceFile.mk f.name) htext)

namespace Worker

theorem validateFiles_scan (names : List String) (total : Nat) (hasMain : Bool)
    (files : List ProtocolSourceFile) : (validateFiles names total hasMain files).toOption =
      scan names total hasMain (files.map ProtocolSourceFile.facts) := by
  induction files generalizing names total hasMain with
  | nil => rfl
  | cons f rest ih =>
    rw [validateFiles, toOption_checks, ih, List.map_cons, scan]
    simp only [ProtocolSourceFile.facts, FileFacts.key, List.contains_eq_mem,
      decide_eq_false_iff_not]

theorem validateSourceFiles_iff {files : List ProtocolSourceFile} :
    validateSourceFiles files = .ok () ↔ Acceptable (files.map ProtocolSourceFile.facts) := by
  rw [acceptable_iff, ← validateFiles_scan, List.length_map, Ne, List.map_eq_nil_iff]
  unfold validateSourceFiles
  split
  · next hcount =>
    refine iff_of_false nofun ?_
    rintro ⟨hnonempty, hle, -⟩
    rcases hcount with hempty | hmany
    · exact hnonempty (List.isEmpty_iff.1 hempty)
    · exact absurd hmany (Nat.not_lt.2 hle)
  · next hcount =>
    obtain ⟨hnonempty, hcount⟩ := not_or.1 hcount
    rw [List.isEmpty_iff] at hnonempty
    rw [and_iff_right hnonempty, and_iff_right (Nat.le_of_not_lt hcount)]
    cases validateFiles [] 0 false files with
    | error e => exact iff_of_false nofun nofun
    | ok result =>
      obtain ⟨total, hasMain⟩ := result
      simp only [Except.toOption, Option.some.injEq, Prod.mk.injEq]
      cases hasMain with
      | false => simp
      | true =>
        simp only [Bool.not_true, Bool.false_eq_true, if_false, and_true, exists_eq_left']
        split
        · next hsize => exact iff_of_false nofun (by omega)
        · next hsize => exact iff_of_true rfl (by omega)

theorem tryU16_toUInt32 (n : UInt16) : tryU16 n.toUInt32 = some n := by
  have hlt : n.toUInt32.toNat < 2 ^ 16 := by
    rw [UInt16.toNat_toUInt32]
    exact n.toNat_lt
  rw [tryU16, if_pos hlt, UInt16.toUInt16_toUInt32]

theorem tryFromAssignment_received {a : JobAssignment} {t : Executor.TerminalSize}
    (hcols : a.terminalCols = t.cols.toUInt32) (hrows : a.terminalRows = t.rows.toUInt32)
    (h : Executor.validateTerminal t = .ok ()) :
    Dimensions.tryFromAssignment (.received a) = .ok ⟨t.cols, t.rows⟩ := by
  have hsize : isTerminalSize t.cols t.rows = true := by
    unfold Executor.validateTerminal at h
    split at h
    · next hrange => simp [isTerminalSize, hrange]
    · cases h
  simp only [Dimensions.tryFromAssignment, Assignment.received, hcols, hrows, tryU16_toUInt32,
    hsize, if_true]

/-- What `validate_request` accepts makes an assignment that the worker accepts, whatever else is
in the state. Files with valid UTF-8 that the worker accepts are the encodings of texts, and a
request with these texts passes the file checks: only its other fields can still be refused. -/
theorem worker_accepts_what_api_accepts :
    (∀ (request : Executor.CreateExecutionRequest) (sh : Executor.Shared) (j : Uuid),
      Executor.validateRequest request = .ok () → (sh.data j).files = request.files →
      (sh.data j).terminal = request.terminal →
        validateSourceFiles (sh.assignment j).files = .ok () ∧
        Dimensions.tryFromAssignment (.received (sh.assignment j)) =
          .ok ⟨request.terminal.cols, request.terminal.rows⟩) ∧
    ∀ files : List ProtocolSourceFile, (∀ f ∈ files, f.content.toByteArray.IsValidUTF8) →
      validateSourceFiles files = .ok () →
        ∃! sources : List Executor.SourceFile, sources.map (·.encode) = files ∧
          ∀ request : Executor.CreateExecutionRequest, request.files = sources →
            request.InRange →
              Executor.validateRequest request = Executor.validateTerminal request.terminal := by
  constructor
  · intro request sh j hrequest hfiles hterminal
    obtain ⟨hacceptable, -, hsize⟩ := Executor.acceptable_of_validateRequest hrequest
    have hassigned : (sh.assignment j).files = request.files.map (·.encode) := by
      rw [← hfiles]
      rfl
    constructor
    · rw [hassigned, validateSourceFiles_iff, map_facts_encode]
      exact hacceptable
    · exact tryFromAssignment_received (by rw [← hterminal]; rfl) (by rw [← hterminal]; rfl) hsize
  · intro files hutf8 hfiles
    obtain ⟨sources, hsources⟩ := exists_decoded hutf8
    rw [← hsources, validateSourceFiles_iff, map_facts_encode] at hfiles
    refine ⟨sources, ⟨hsources, fun request hrequest hrange => ?_⟩, fun others hothers => ?_⟩
    · rw [← hrequest] at hfiles
      exact Executor.validateRequest_of_acceptable hfiles hrange
    · exact encode_injective (hothers.1.trans hsources.symm)

def greeting : Executor.CreateExecutionRequest where
  files := [⟨"main.c", "int main(void)\x7b\x7d // はい"⟩, ⟨"Answer-1.h", ""⟩]
  terminal := ⟨80, 24⟩
  visitorId := "v"
  clientIp := "192.0.2.1"

theorem greeting_is_accepted_twice :
    Executor.validateRequest greeting = .ok () ∧
    validateSourceFiles (greeting.files.map (·.encode)) = .ok () ∧
    (∃ sources : List Executor.SourceFile, sources.map (·.encode) = greeting.files.map (·.encode)) := by
  have haccepted : Executor.validateRequest greeting = .ok () := by decide +kernel
  let sh : Executor.Shared := { Executor.Shared.new with
    data := fun _ => ⟨greeting.files, greeting.visitorId, greeting.clientIp, greeting.terminal, 0⟩ }
  have hworker : validateSourceFiles (greeting.files.map (·.encode)) = .ok () :=
    (worker_accepts_what_api_accepts.1 greeting sh 7 haccepted rfl rfl).1
  have hutf8 : ∀ f ∈ greeting.files.map (·.encode), f.content.toByteArray.IsValidUTF8 := by
    intro f hf
    obtain ⟨source, -, rfl⟩ := List.mem_map.1 hf
    exact ⟨source.content.toList, rfl⟩
  obtain ⟨sources, ⟨hsources, -⟩, -⟩ := worker_accepts_what_api_accepts.2 _ hutf8 hworker
  exact ⟨haccepted, hworker, sources, hsources⟩

end Worker

end SmartC
