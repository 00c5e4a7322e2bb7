import SmartC.Executor.Model
import SmartC.Utf8

/-!
# Which projects are accepted

`Acceptable` is what every validator of the repository is there to check: the
rules for the files of a project, of which only the names, the sizes and
whether a file has a NUL matter. `scan` is the loop that the validators share;
`validate_request` accepts a request if and only if its files are acceptable
and its other fields are in their ranges.
-/

namespace SmartC

theorem mapM_eq_some {α β : Type} {f : α → Option β} {l : List α} {l' : List β} :
    l.mapM f = some l' ↔ l.map f = l'.map some := by
  induction l generalizing l' with
  | nil => cases l' <;> simp
  | cons a l ih =>
    rw [List.mapM_cons]
    cases l' with
    | nil =>
      cases f a with
      | none => simp
      | some b => cases l.mapM f <;> simp
    | cons b l' =>
      simp only [List.map_cons, List.cons.injEq, ← ih]
      cases f a with
      | none => simp
      | some b' => cases l.mapM f <;> simp

structure FileFacts where
  name : String
  bytes : Nat
  nul : Bool
  deriving DecidableEq, Repr

namespace FileFacts

def key (f : FileFacts) : String := Executor.toAsciiLowercase f.name

def total (files : List FileFacts) : Nat := (files.map bytes).sum

end FileFacts

structure Acceptable (files : List FileFacts) : Prop where
  nonempty : files ≠ []
  count : files.length ≤ sourceFileMaxCount
  names : ∀ f ∈ files, isValidSourceFileName f.name = true
  distinct : (files.map FileFacts.key).Nodup
  text : ∀ f ∈ files, f.nul = false
  main : ∃ f ∈ files, f.name = "main.c"
  content : FileFacts.total files ≠ 0
  size : FileFacts.total files ≤ sourceFilesMaxBytes

/-! ### The loop -/

/-- The loop over the files, with the names seen so far, the total size and whether `main.c` was
met; `none` if a file is refused. -/
def scan (names : List String) (total : Nat) (hasMain : Bool) :
    List FileFacts → Option (Nat × Bool)
  | [] => some (total, hasMain)
  | f :: rest =>
    if isValidSourceFileName f.name ∧ f.key ∉ names ∧ f.nul = false then
      scan (f.key :: names) (saturatingAdd total f.bytes) (hasMain || f.name == "main.c") rest
    else none

structure Scanned (seen : List String) (files : List FileFacts) : Prop where
  names : ∀ f ∈ files, isValidSourceFileName f.name = true
  fresh : ∀ f ∈ files, f.key ∉ seen
  distinct : (files.map FileFacts.key).Nodup
  text : ∀ f ∈ files, f.nul = false

theorem scanned_cons {names : List String} {f : FileFacts} {rest : List FileFacts} :
    Scanned names (f :: rest) ↔ (isValidSourceFileName f.name = true ∧ f.key ∉ names ∧
      f.nul = false) ∧ Scanned (f.key :: names) rest := by
  constructor
  · intro h
    have hdistinct := List.nodup_cons.1 h.distinct
    refine ⟨⟨h.names f List.mem_cons_self, h.fresh f List.mem_cons_self,
      h.text f List.mem_cons_self⟩, fun g hg => h.names g (List.mem_cons_of_mem _ hg),
      fun g hg hmem => ?_, hdistinct.2, fun g hg => h.text g (List.mem_cons_of_mem _ hg)⟩
    rcases List.mem_cons.1 hmem with heq | hmem
    · exact hdistinct.1 (heq ▸ List.mem_map_of_mem hg)
    · exact h.fresh g (List.mem_cons_of_mem _ hg) hmem
  · rintro ⟨⟨hname, hfresh, htext⟩, h⟩
    refine ⟨?_, ?_, ?_, ?_⟩
    · exact List.forall_mem_cons.2 ⟨hname, h.names⟩
    · exact List.forall_mem_cons.2 ⟨hfresh, fun g hg hmem =>
        h.fresh g hg (List.mem_cons_of_mem _ hmem)⟩
    · refine List.nodup_cons.2 ⟨fun hmem => ?_, h.distinct⟩
      obtain ⟨g, hg, hkey⟩ := List.mem_map.1 hmem
      exact h.fresh g hg (hkey ▸ List.mem_cons_self)
    · exact List.forall_mem_cons.2 ⟨htext, h.text⟩

theorem saturatingAdd_min (total a b : Nat) :
    min (saturatingAdd total a + b) (2 ^ 64 - 1) = min (total + (a + b)) (2 ^ 64 - 1) := by
  unfold saturatingAdd
  omega

theorem scan_eq_some {names : List String} {total : Nat} {hasMain : Bool} {files : List FileFacts}
    {result : Nat × Bool} (htotal : total ≤ 2 ^ 64 - 1) :
    scan names total hasMain files = some result ↔ Scanned names files ∧
      result = (min (total + FileFacts.total files) (2 ^ 64 - 1),
        hasMain || files.any (·.name == "main.c")) := by
  induction files generalizing names total hasMain with
  | nil =>
    have hscanned : Scanned names [] := ⟨nofun, nofun, List.nodup_nil, nofun⟩
    simp only [scan, FileFacts.total, List.map_nil, List.sum_nil, Nat.add_zero, List.any_nil,
      Bool.or_false, Nat.min_eq_left htotal, Option.some.injEq, hscanned, true_and, eq_comm]
  | cons f rest ih =>
    rw [scanned_cons, scan]
    split
    · next hf =>
      have hsat : saturatingAdd total f.bytes ≤ 2 ^ 64 - 1 := Nat.min_le_right _ _
      rw [ih hsat, saturatingAdd_min, and_iff_right hf]
      simp only [FileFacts.total, List.map_cons, List.sum_cons, List.any_cons, Bool.or_assoc]
    · next hf => simp [hf]

theorem toOption_checks {ε α : Type} {a b c : Bool} {e₁ e₂ e₃ : ε} {x : Except ε α} :
    (if !a then .error e₁ else if b then .error e₂ else if c then .error e₃ else x).toOption =
      if a = true ∧ b = false ∧ c = false then x.toOption else none := by
  cases a <;> cases b <;> cases c <;> rfl

theorem exists_main {files : List FileFacts} :
    files.any (·.name == "main.c") = true ↔ ∃ f ∈ files, f.name = "main.c" := by
  simp [List.any_eq_true]

theorem acceptable_iff {files : List FileFacts} :
    Acceptable files ↔ files ≠ [] ∧ files.length ≤ sourceFileMaxCount ∧
      ∃ total, scan [] 0 false files = some (total, true) ∧ total ≠ 0 ∧
        total ≤ sourceFilesMaxBytes := by
  simp only [scan_eq_some (Nat.zero_le _), Prod.mk.injEq, Nat.zero_add, Bool.false_or]
  have hsmall : sourceFilesMaxBytes < 2 ^ 64 - 1 := by decide
  constructor
  · intro h
    refine ⟨h.nonempty, h.count, _, ⟨⟨h.names, fun _ _ => List.not_mem_nil, h.distinct, h.text⟩,
      rfl, (exists_main.2 h.main).symm⟩, ?_, ?_⟩
    · have := h.content
      omega
    · have := h.size
      omega
  · rintro ⟨hnonempty, hcount, total, ⟨hscanned, rfl, hmain⟩, hcontent, hsize⟩
    exact ⟨hnonempty, hcount, hscanned.names, hscanned.distinct, hscanned.text,
      exists_main.1 hmain.symm, by omega, by omega⟩

/-! ### validate_request -/

namespace Executor

def SourceFile.facts (f : SourceFile) : FileFacts :=
  ⟨f.name, f.content.utf8ByteSize, f.content.toList.contains '\x00'⟩

theorem validateFiles_scan (names : List String) (total : Nat) (hasMain : Bool)
    (files : List SourceFile) : (validateFiles names total hasMain files).toOption =
      scan names total hasMain (files.map SourceFile.facts) := by
  induction files generalizing names total hasMain with
  | nil => rfl
  | cons f rest ih =>
    rw [validateFiles, toOption_checks, ih, List.map_cons, scan]
    simp only [SourceFile.facts, FileFacts.key, List.contains_eq_mem, decide_eq_false_iff_not]

structure CreateExecutionRequest.InRange (request : CreateExecutionRequest) : Prop where
  visitorId : request.visitorId.isEmpty = false ∧ request.visitorId.utf8ByteSize ≤ 128
  clientIp : request.clientIp.isEmpty = false ∧ request.clientIp.utf8ByteSize ≤ 64

theorem validateRequest_of_acceptable {request : CreateExecutionRequest}
    (hfiles : Acceptable (request.files.map SourceFile.facts)) (h : request.InRange) :
    validateRequest request = validateTerminal request.terminal := by
  obtain ⟨hnonempty, hcount, total, hscan, hcontent, hsize⟩ := acceptable_iff.1 hfiles
  rw [List.length_map] at hcount
  rw [← validateFiles_scan] at hscan
  obtain ⟨⟨hvisitor, hvisitorSize⟩, hip, hipSize⟩ := h
  cases hloop : validateFiles [] 0 false request.files with
  | error e =>
    rw [hloop] at hscan
    cases hscan
  | ok result =>
    rw [hloop] at hscan
    cases hscan
    have hsome : request.files ≠ [] := fun hnil => hnonempty (by rw [hnil]; rfl)
    simp [validateRequest, hloop, hsome, hvisitor, hip, hcontent, Nat.not_lt.2 hcount,
      Nat.not_lt.2 hsize, Nat.not_lt.2 hvisitorSize, Nat.not_lt.2 hipSize]

theorem acceptable_of_validateRequest {request : CreateExecutionRequest}
    (h : validateRequest request = .ok ()) :
    Acceptable (request.files.map SourceFile.facts) ∧ request.InRange ∧
      validateTerminal request.terminal = .ok () := by
  unfold validateRequest at h
  split at h
  · cases h
  · next hcount =>
    obtain ⟨hnonempty, hcount⟩ := not_or.1 hcount
    split at h
    · cases h
    · next total hasMain hloop =>
      have hscan := validateFiles_scan [] 0 false request.files
      rw [hloop] at hscan
      repeat' split at h
      iterate 5 cases h
      next hmain hcontent hsize hvisitor hip =>
      obtain rfl : hasMain = true := by simpa using hmain
      obtain ⟨hvisitor, hvisitorSize⟩ := not_or.1 hvisitor
      obtain ⟨hip, hipSize⟩ := not_or.1 hip
      refine ⟨acceptable_iff.2 ⟨?_, ?_, total, hscan.symm, hcontent, Nat.le_of_not_lt hsize⟩,
        ⟨⟨eq_false_of_ne_true hvisitor, Nat.le_of_not_lt hvisitorSize⟩,
          eq_false_of_ne_true hip, Nat.le_of_not_lt hipSize⟩, h⟩
      · simpa using hnonempty
      · rw [List.length_map]
        exact Nat.le_of_not_lt hcount

end Executor

end SmartC
