import SmartC.JsonParse
import SmartC.Transition
import SmartC.Web.Validation

/-!
# The project in the browser

The page loads a project from `localStorage`, changes it on behalf of its user,
and saves it. A project can be run if the server accepts its files and the
editor shows one of them. Every operation of the page keeps a project that way,
and a saved project is loaded as it was. What was loaded in the first place can
be run if its entry file is called `main.c` exactly: `loadProject` looks for
that file without regard to case, and nothing else does.
-/

namespace SmartC.Web

open Lsp
open JsonText (Doc)
open Transition (System Reachable)

/-! ### Storage -/

structure PersistedProject where
  files : List CSourceFile
  activeFileName : JsString
  deriving DecidableEq, Repr

/-- The values of the two keys. `setItem` takes a text if it fits. -/
structure LocalStorage where
  accessible : Bool
  fits : JsString → Bool
  project : Option JsString
  source : Option JsString

def entryFileName : JsString := js "main.c"

def DEFAULT_SOURCE : JsString :=
  ofUnicode ("\n".intercalate [
    "#include <stdio.h>",
    "",
    "int main(void) \x7b",
    "    char name[64];",
    "",
    "    printf(\"名前を入力してください: \");",
    "    fflush(stdout);",
    "",
    "    if (fgets(name, sizeof(name), stdin) == NULL) \x7b",
    "        return 1;",
    "    \x7d",
    "",
    "    printf(\"こんにちは、%s\", name);",
    "    return 0;",
    "\x7d",
    ""])

def DEFAULT_PROJECT : PersistedProject := ⟨[⟨entryFileName, DEFAULT_SOURCE⟩], entryFileName⟩

/-- The loop of `isPersistedProjectFiles`, with the files that it has accepted. -/
def checkPersistedFiles : List Json → List JsString → Option (List CSourceFile)
  | [], names => if names.contains (js "main.c") then some [] else none
  | file :: files, names =>
    if !isRecord (some file) then none
    else
      match sourceFileName (Value.property "name" (some file)) with
      | none => none
      | some name =>
        match Value.string (Value.property "content" (some file)) with
        | none => none
        | some content =>
          if names.contains (toLowerCase name) then none
          else (checkPersistedFiles files (toLowerCase name :: names)).map (⟨name, content⟩ :: ·)

def persistedProjectFiles (value : Option Json) : Option (List CSourceFile) :=
  match Value.array value with
  | none => none
  | some files =>
    if files.length = 0 ∨ SOURCE_FILE_MAX_COUNT < files.length then none
    else checkPersistedFiles files []

section

variable (toNumber : JsString → JsNumber)

def loadSource (storage : LocalStorage) : PersistedProject :=
  ⟨[⟨entryFileName, storage.source.getD DEFAULT_SOURCE⟩], entryFileName⟩

def loadActiveFileName (files : List CSourceFile) (value : Option Json) : JsString :=
  match Value.string value with
  | none => entryFileName
  | some name => if files.any (·.name = name) then name else entryFileName

def loadProject (storage : LocalStorage) : PersistedProject :=
  if !storage.accessible then DEFAULT_PROJECT
  else
    match storage.project with
    | none => loadSource storage
    | some raw =>
      match JsonParse.parse toNumber raw with
      -- a `SyntaxError`, and the `TypeError` of a property of `null`
      | none | some .null => DEFAULT_PROJECT
      | some value =>
        match persistedProjectFiles (Value.property "files" (some value)) with
        | none => loadSource storage
        | some files =>
          ⟨files, loadActiveFileName files (Value.property "activeFileName" (some value))⟩

end

def projectDoc (project : PersistedProject) : Doc :=
  .object [
    (js "files", .array (project.files.map fileDoc)),
    (js "activeFileName", .string project.activeFileName)]

def saveProject (project : PersistedProject) (storage : LocalStorage) : Bool × LocalStorage :=
  let text := JsonParse.stringify (projectDoc project)
  if storage.accessible && storage.fits text then
    (true, { storage with project := some text, source := none })
  else (false, storage)

/-! ### The operations of the page -/

/-- `currentName` is the file that is renamed. -/
def getFileNameError (files : List CSourceFile) (name : JsString) (currentName : Option JsString) :
    Option String :=
  if !Lsp.isValidSourceFileName name then some fileNameError
  else if files.any fun file =>
      some file.name != currentName && toLowerCase file.name == toLowerCase name then
    some "同じファイル名が既にあります。"
  else none

namespace PersistedProject

variable (project : PersistedProject)

def handleFileChange (name content : JsString) : PersistedProject :=
  { project with
    files := project.files.map fun file =>
      if file.name = name then { file with content := content } else file }

/-- An error is shown in an alert and changes nothing. A prompt that is cancelled has no input. -/
def createFile (input : Option JsString) : Except String PersistedProject :=
  if SOURCE_FILE_MAX_COUNT ≤ project.files.length then
    .error s!"ファイルは{SOURCE_FILE_MAX_COUNT}件まで作成できます。"
  else
    match input with
    | none => .ok project
    | some input =>
      match getFileNameError project.files (trim input) none with
      | some error => .error error
      | none => .ok ⟨project.files ++ [⟨trim input, []⟩], trim input⟩

def renameFile (fileName : JsString) (input : Option JsString) : Except String PersistedProject :=
  if fileName = entryFileName then .ok project
  else
    match input with
    | none => .ok project
    | some input =>
      if trim input = fileName then .ok project
      else
        match getFileNameError project.files (trim input) (some fileName) with
        | some error => .error error
        | none =>
          .ok ⟨project.files.map fun file =>
            if file.name = fileName then { file with name := trim input } else file, trim input⟩

def deleteFile (fileName : JsString) (confirmed : Bool) : PersistedProject :=
  if fileName = entryFileName || !confirmed then project
  else ⟨project.files.filter (·.name ≠ fileName), entryFileName⟩

end PersistedProject

inductive ProjectAction
  | handleFileChange (name content : JsString)
  | createFile (input : Option JsString)
  | renameFile (fileName : JsString) (input : Option JsString)
  | deleteFile (fileName : JsString) (confirmed : Bool)
  | setActiveFileName (fileName : JsString)

namespace PersistedProject

def hasTab (project : PersistedProject) (fileName : JsString) : Bool :=
  project.files.any (·.name = fileName)

/-- A tab renames, deletes or selects its own file. -/
def step (project : PersistedProject) : ProjectAction → Option PersistedProject
  | .handleFileChange name content => some (project.handleFileChange name content)
  | .createFile input => some ((project.createFile input).toOption.getD project)
  | .renameFile fileName input =>
    if project.hasTab fileName then
      some ((project.renameFile fileName input).toOption.getD project)
    else none
  | .deleteFile fileName confirmed =>
    if project.hasTab fileName then some (project.deleteFile fileName confirmed) else none
  | .setActiveFileName fileName =>
    if project.hasTab fileName then some { project with activeFileName := fileName } else none

end PersistedProject

def projectSystem (toNumber : JsString → JsNumber) (storage : LocalStorage) :
    System PersistedProject ProjectAction :=
  .ofStep (loadProject toNumber storage) PersistedProject.step

/-! ### The names of a project that can be run -/

/-- The file names of a project that the server accepts, and the one that the editor shows. -/
structure Runnable (names : List JsString) (active : JsString) : Prop where
  count : names.length ≤ SOURCE_FILE_MAX_COUNT
  valid : ∀ name ∈ names, Lsp.isValidSourceFileName name = true
  distinct : (names.map toLowerCase).Nodup
  entry : entryFileName ∈ names
  active : active ∈ names

section

variable {names : List JsString} {active name old : JsString}

theorem Runnable.append (h : Runnable names active) (hcount : names.length < SOURCE_FILE_MAX_COUNT)
    (hvalid : Lsp.isValidSourceFileName name = true)
    (hfresh : ∀ other ∈ names, toLowerCase other ≠ toLowerCase name) :
    Runnable (names ++ [name]) name where
  count := by
    rw [List.length_append, List.length_singleton]
    omega
  valid other hother := by
    rcases List.mem_append.1 hother with hold | hnew
    · exact h.valid other hold
    · exact List.mem_singleton.1 hnew ▸ hvalid
  distinct := by
    rw [List.map_append, List.map_singleton, ← List.concat_eq_append]
    refine h.distinct.concat fun hmem => ?_
    obtain ⟨other, hother, heq⟩ := List.mem_map.1 hmem
    exact hfresh other hother heq
  entry := List.mem_append_left _ h.entry
  active := by simp

theorem Runnable.replace (h : Runnable names active) (hold : old ∈ names)
    (hentry : old ≠ entryFileName) (hvalid : Lsp.isValidSourceFileName name = true)
    (hfresh : ∀ other ∈ names, other ≠ old → toLowerCase other ≠ toLowerCase name) :
    Runnable (names.map fun other => if other = old then name else other) name where
  count := (List.length_map _).symm ▸ h.count
  valid other hother := by
    obtain ⟨source, hsource, rfl⟩ := List.mem_map.1 hother
    split
    · exact hvalid
    · exact h.valid source hsource
  distinct := by
    have hdistinct := List.pairwise_map.1 h.distinct
    rw [List.Nodup, List.pairwise_map, List.pairwise_map]
    refine hdistinct.imp_of_mem fun {a b} ha hb hab => ?_
    split
    · next ha' =>
      split
      · next hb' => exact absurd (by rw [ha', hb']) hab
      · next hb' => exact (hfresh b hb hb').symm
    · next ha' =>
      split
      · exact hfresh a ha ha'
      · exact hab
  entry := List.mem_map.2 ⟨entryFileName, h.entry, if_neg hentry.symm⟩
  active := List.mem_map.2 ⟨old, hold, if_pos rfl⟩

theorem Runnable.remove (h : Runnable names active) (hentry : old ≠ entryFileName) :
    Runnable (names.filter (· ≠ old)) entryFileName := by
  have hkept : entryFileName ∈ names.filter (· ≠ old) :=
    List.mem_filter.2 ⟨h.entry, by simpa using hentry.symm⟩
  exact
    { count := (List.length_filter_le _ _).trans h.count
      valid := fun other hother => h.valid other (List.mem_of_mem_filter hother)
      distinct := h.distinct.sublist (List.filter_sublist.map _)
      entry := hkept
      active := hkept }

theorem Runnable.select (h : Runnable names active) (hname : name ∈ names) : Runnable names name :=
  { h with active := hname }

end

/-! ### The operations keep it -/

theorem getFileNameError_eq_none {files : List CSourceFile} {name : JsString}
    {currentName : Option JsString} (h : getFileNameError files name currentName = none) :
    Lsp.isValidSourceFileName name = true ∧
      ∀ other ∈ files.map (·.name), some other ≠ currentName →
        toLowerCase other ≠ toLowerCase name := by
  unfold getFileNameError at h
  split at h
  · cases h
  · next hvalid =>
    split at h
    · cases h
    · next hfresh =>
      refine ⟨by simpa using hvalid, fun other hother hcurrent heq => hfresh ?_⟩
      obtain ⟨file, hfile, rfl⟩ := List.mem_map.1 hother
      exact List.any_eq_true.2 ⟨file, hfile, by simp [hcurrent, heq]⟩

namespace PersistedProject

variable {project project' : PersistedProject}

def names (project : PersistedProject) : List JsString := project.files.map (·.name)

def IsRunnable (project : PersistedProject) : Prop := Runnable project.names project.activeFileName

theorem normalizedNames_files : normalizedNames project.files = project.names.map toLowerCase :=
  (List.map_map ..).symm

theorem hasTab_iff {fileName : JsString} : project.hasTab fileName ↔ fileName ∈ project.names := by
  simp [hasTab, names]

theorem names_handleFileChange (name content : JsString) :
    (project.handleFileChange name content).names = project.names := by
  rw [names, handleFileChange, List.map_map]
  refine List.map_congr_left fun file _ => ?_
  dsimp only [Function.comp_apply]
  split <;> rfl

theorem IsRunnable.createFile (h : project.IsRunnable) {input : Option JsString}
    (hcreate : project.createFile input = .ok project') : project'.IsRunnable := by
  unfold PersistedProject.createFile at hcreate
  split at hcreate
  · cases hcreate
  · next hcount =>
    split at hcreate
    · cases hcreate
      exact h
    · split at hcreate
      · cases hcreate
      · next hname =>
        cases hcreate
        obtain ⟨hvalid, hfresh⟩ := getFileNameError_eq_none hname
        have hlength : project.names.length < SOURCE_FILE_MAX_COUNT := by
          rw [names, List.length_map]
          omega
        have happend := h.append hlength hvalid fun other hother => hfresh other hother nofun
        simpa [IsRunnable, names] using happend

theorem IsRunnable.renameFile (h : project.IsRunnable) {fileName : JsString}
    (htab : fileName ∈ project.names) {input : Option JsString}
    (hrename : project.renameFile fileName input = .ok project') : project'.IsRunnable := by
  unfold PersistedProject.renameFile at hrename
  split at hrename
  · cases hrename
    exact h
  · next hentry =>
    split at hrename
    · cases hrename
      exact h
    · next text =>
      repeat' split at hrename
      · cases hrename
        exact h
      · cases hrename
      · next hname =>
        cases hrename
        obtain ⟨hvalid, hfresh⟩ := getFileNameError_eq_none hname
        have hreplace := h.replace htab hentry hvalid fun other hother hne =>
          hfresh other hother fun heq => hne (Option.some.inj heq)
        have hnames : (PersistedProject.mk (project.files.map fun file =>
            if file.name = fileName then { file with name := trim text } else file)
            (trim text)).names =
            project.names.map fun other => if other = fileName then trim text else other := by
          rw [names, names, List.map_map, List.map_map]
          refine List.map_congr_left fun file _ => ?_
          dsimp only [Function.comp_apply]
          split <;> rfl
        rw [IsRunnable, hnames]
        exact hreplace

theorem IsRunnable.deleteFile (h : project.IsRunnable) (fileName : JsString) (confirmed : Bool) :
    (project.deleteFile fileName confirmed).IsRunnable := by
  unfold PersistedProject.deleteFile
  split
  · exact h
  · next hdelete =>
    have hentry : fileName ≠ entryFileName := fun heq => hdelete (by simp [heq])
    have hremove := h.remove hentry
    rwa [names, List.filter_map] at hremove

theorem IsRunnable.step (h : project.IsRunnable) {a : ProjectAction}
    (hstep : project.step a = some project') : project'.IsRunnable := by
  cases a with
  | handleFileChange name content =>
    cases hstep
    rw [IsRunnable, names_handleFileChange]
    exact h
  | createFile input =>
    cases hstep
    cases hcreate : project.createFile input with
    | error _ => exact h
    | ok created => exact h.createFile hcreate
  | renameFile fileName input =>
    obtain ⟨htab, rfl⟩ := Option.ite_some_none_eq_some.1 hstep
    cases hrename : project.renameFile fileName input with
    | error _ => exact h
    | ok renamed => exact h.renameFile (hasTab_iff.1 htab) hrename
  | deleteFile fileName confirmed =>
    obtain ⟨-, rfl⟩ := Option.ite_some_none_eq_some.1 hstep
    exact h.deleteFile fileName confirmed
  | setActiveFileName fileName =>
    obtain ⟨htab, rfl⟩ := Option.ite_some_none_eq_some.1 hstep
    exact h.select (hasTab_iff.1 htab)

end PersistedProject

/-! ### Loading -/

section

variable {toNumber : JsString → JsNumber} {storage : LocalStorage} {project : PersistedProject}

theorem checkPersistedFiles_some {entries : List Json} {seen : List JsString}
    {files : List CSourceFile} (h : checkPersistedFiles entries seen = some files) :
    files.length = entries.length ∧
    (∀ file ∈ files, Lsp.isValidSourceFileName file.name = true) ∧
    (normalizedNames files).Nodup ∧ ∀ name ∈ normalizedNames files, name ∉ seen := by
  induction entries generalizing seen files with
  | nil =>
    obtain ⟨-, rfl⟩ := Option.ite_some_none_eq_some.1 h
    exact ⟨rfl, nofun, List.nodup_nil, nofun⟩
  | cons entry entries ih =>
    rw [checkPersistedFiles] at h
    repeat' split at h
    iterate 4 cases h
    next name hname _ content _ hfresh =>
    obtain ⟨-, hvalid⟩ := Option.filter_eq_some_iff.1 hname
    rw [List.contains_iff_mem] at hfresh
    obtain ⟨rest, hrest, rfl⟩ := Option.map_eq_some_iff.1 h
    obtain ⟨hlength, hvalids, hnodup, hunseen⟩ := ih hrest
    refine ⟨congrArg (· + 1) hlength, ?_, ?_, ?_⟩
    · exact List.forall_mem_cons.2 ⟨hvalid, hvalids⟩
    · exact List.nodup_cons.2 ⟨fun hmem => hunseen _ hmem List.mem_cons_self, hnodup⟩
    · refine List.forall_mem_cons.2 ⟨hfresh, fun other hother hmem => ?_⟩
      exact hunseen other hother (List.mem_cons_of_mem _ hmem)

/-- What `isPersistedProjectFiles` makes sure of. The name of the entry file is not among it. -/
theorem persistedProjectFiles_some {value : Option Json} {files : List CSourceFile}
    (h : persistedProjectFiles value = some files) :
    files.length ≤ SOURCE_FILE_MAX_COUNT ∧
    (∀ file ∈ files, Lsp.isValidSourceFileName file.name = true) ∧
    (normalizedNames files).Nodup := by
  unfold persistedProjectFiles at h
  split at h
  · cases h
  · next entries _ =>
    split at h
    · cases h
    · next hcount =>
      obtain ⟨hlength, hvalid, hnodup, -⟩ := checkPersistedFiles_some h
      exact ⟨by omega, hvalid, hnodup⟩

def storedFiles (toNumber : JsString → JsNumber) (storage : LocalStorage) :
    Option (List CSourceFile) :=
  (storage.project.bind (JsonParse.parse toNumber)).bind fun value =>
    persistedProjectFiles (Value.property "files" (some value))

theorem isRunnable_entry (content : JsString) :
    PersistedProject.IsRunnable ⟨[⟨entryFileName, content⟩], entryFileName⟩ where
  count := by
    change 1 ≤ 16
    decide
  valid name hname := by
    obtain rfl : name = entryFileName := List.mem_singleton.1 hname
    decide
  distinct := List.nodup_singleton _
  entry := List.mem_singleton_self _
  active := List.mem_singleton_self _

theorem loadActiveFileName_mem {files : List CSourceFile} {value : Option Json}
    (h : entryFileName ∈ files.map (·.name)) :
    loadActiveFileName files value ∈ files.map (·.name) := by
  unfold loadActiveFileName
  split
  · exact h
  · split
    · next hany => simpa using hany
    · exact h

theorem isRunnable_loadProject
    (h : ∀ files, storedFiles toNumber storage = some files →
      entryFileName ∈ files.map (·.name)) : (loadProject toNumber storage).IsRunnable := by
  unfold loadProject
  split
  · exact isRunnable_entry _
  · split
    · exact isRunnable_entry _
    · next raw hraw =>
      split
      · exact isRunnable_entry _
      · exact isRunnable_entry _
      · next value _ hvalue =>
        split
        · exact isRunnable_entry _
        · next files hfiles =>
          obtain ⟨hcount, hvalid, hnodup⟩ := persistedProjectFiles_some hfiles
          have hentry := h files (by simp [storedFiles, hraw, hvalue, hfiles])
          exact
            { count := (List.length_map _).symm ▸ hcount
              valid := by simpa [PersistedProject.names] using hvalid
              distinct := by
                rw [← PersistedProject.normalizedNames_files]
                exact hnodup
              entry := hentry
              active := loadActiveFileName_mem hentry }

/-! ### Loading what was saved -/

theorem property_fileDoc (toNumber : JsString → JsNumber) (file : CSourceFile) :
    Value.property "name" (some (JsonParse.ofDoc toNumber (fileDoc file))) =
        some (.string file.name) ∧
      Value.property "content" (some (JsonParse.ofDoc toNumber (fileDoc file))) =
        some (.string file.content) :=
  ⟨rfl, rfl⟩

theorem checkPersistedFiles_ofDoc {files : List CSourceFile} {seen : List JsString}
    (hvalid : ∀ file ∈ files, Lsp.isValidSourceFileName file.name = true)
    (hnodup : (normalizedNames files).Nodup) (hunseen : ∀ name ∈ normalizedNames files, name ∉ seen)
    (hentry : js "main.c" ∈ seen ∨ js "main.c" ∈ normalizedNames files) :
    checkPersistedFiles (JsonParse.ofElements toNumber (files.map fileDoc)) seen = some files := by
  induction files generalizing seen with
  | nil =>
    rcases hentry with hseen | hnone
    · exact if_pos (List.contains_iff_mem.2 hseen)
    · cases hnone
  | cons file files ih =>
    obtain ⟨hname, hcontent⟩ := property_fileDoc toNumber file
    obtain ⟨hhead, htail⟩ := List.forall_mem_cons.1 hvalid
    obtain ⟨hnew, hnodup⟩ := List.nodup_cons.1 hnodup
    obtain ⟨hfresh, hunseen⟩ := List.forall_mem_cons.1 hunseen
    have hrecord : isRecord (some (JsonParse.ofDoc toNumber (fileDoc file))) = true := rfl
    have hsource : sourceFileName (some (.string file.name)) = some file.name :=
      Option.filter_eq_some_iff.2 ⟨rfl, hhead⟩
    rw [List.map_cons, JsonParse.ofElements, checkPersistedFiles, hrecord, hname, hcontent, hsource]
    have hcontains : seen.contains (toLowerCase file.name) = false := by simpa using hfresh
    simp only [Bool.not_true, Bool.false_eq_true, if_false, Value.string, hcontains]
    rw [ih htail hnodup ?_ ?_]
    · rfl
    · intro name hmem hin
      rcases List.mem_cons.1 hin with rfl | hseen
      · exact hnew hmem
      · exact hunseen name hmem hseen
    · rcases hentry with hseen | hmem
      · exact .inl (List.mem_cons_of_mem _ hseen)
      · rcases List.mem_cons.1 hmem with hsame | hmem
        · exact .inl (hsame ▸ List.mem_cons_self)
        · exact .inr hmem

theorem length_ofElements (ds : List Doc) :
    (JsonParse.ofElements toNumber ds).length = ds.length := by
  induction ds with
  | nil => rfl
  | cons d ds ih => rw [JsonParse.ofElements, List.length_cons, List.length_cons, ih]

theorem saveProject_stored (haccess : storage.accessible = true)
    (hfits : storage.fits (JsonParse.stringify (projectDoc project)) = true) :
    saveProject project storage = (true, { storage with
      project := some (JsonParse.stringify (projectDoc project))
      source := none }) :=
  if_pos (Bool.and_eq_true_iff.2 ⟨haccess, hfits⟩)

theorem loadProject_saveProject (h : project.IsRunnable) (haccess : storage.accessible = true)
    (hfits : storage.fits (JsonParse.stringify (projectDoc project)) = true) :
    loadProject toNumber (saveProject project storage).2 = project := by
  have hlower : toLowerCase entryFileName = js "main.c" := by decide
  have hnonempty : project.files.length ≠ 0 := by
    intro hzero
    have hentry := h.entry
    rw [PersistedProject.names, List.length_eq_zero_iff.1 hzero] at hentry
    cases hentry
  have hcount : project.files.length ≤ SOURCE_FILE_MAX_COUNT := List.length_map _ ▸ h.count
  have hcheck : checkPersistedFiles
      (JsonParse.ofElements toNumber (project.files.map fileDoc)) [] = some project.files := by
    refine checkPersistedFiles_ofDoc ?_ ?_ nofun (.inr ?_)
    · simpa [PersistedProject.names] using h.valid
    · rw [PersistedProject.normalizedNames_files]
      exact h.distinct
    · rw [PersistedProject.normalizedNames_files, ← hlower]
      exact List.mem_map_of_mem h.entry
  have hfiles : persistedProjectFiles (some (.array
      (JsonParse.ofElements toNumber (project.files.map fileDoc)))) = some project.files := by
    rw [persistedProjectFiles, Value.array]
    simp only [length_ofElements, List.length_map]
    rw [if_neg (by omega), hcheck]
  have hactive : loadActiveFileName project.files (some (.string project.activeFileName)) =
      project.activeFileName :=
    if_pos (PersistedProject.hasTab_iff.2 h.active)
  rw [saveProject_stored haccess hfits, loadProject]
  simp only [haccess, JsonParse.parse_stringify]
  change (match persistedProjectFiles (some (.array (JsonParse.ofElements toNumber
    (project.files.map fileDoc)))) with
    | none => _
    | some files => PersistedProject.mk files
      (loadActiveFileName files (some (.string project.activeFileName)))) = project
  rw [hfiles]
  simp only [hactive]

/-- The project is one that can be run, and it is saved and loaded as it is. -/
theorem edited_project_is_runnable (toNumber : JsString → JsNumber) (storage : LocalStorage)
    (hentry : ∀ files, storedFiles toNumber storage = some files →
      js "main.c" ∈ files.map (·.name))
    (project : PersistedProject) (h : Reachable (projectSystem toNumber storage) project) :
    1 ≤ project.files.length ∧ project.files.length ≤ 16 ∧
    (∀ file ∈ project.files, Lsp.isValidSourceFileName file.name = true) ∧
    (project.files.map fun file => toLowerCase file.name).Nodup ∧
    js "main.c" ∈ project.files.map (·.name) ∧
    project.activeFileName ∈ project.files.map (·.name) ∧
    ∀ storage' : LocalStorage, storage'.accessible = true →
      storage'.fits (JsonParse.stringify (projectDoc project)) = true →
      (saveProject project storage').1 = true ∧
        loadProject toNumber (saveProject project storage').2 = project := by
  have hrunnable : project.IsRunnable :=
    h.invariant (isRunnable_loadProject hentry) fun _ ih _ hstep => ih.step hstep
  have hlength : project.names.length = project.files.length := List.length_map _
  refine ⟨?_, ?_, ?_, ?_, hrunnable.entry, hrunnable.active, fun storage' haccess hfits =>
    ⟨by rw [saveProject_stored haccess hfits], loadProject_saveProject hrunnable haccess hfits⟩⟩
  · exact hlength ▸ List.length_pos_of_mem hrunnable.entry
  · exact hlength ▸ hrunnable.count
  · simpa [PersistedProject.names] using hrunnable.valid
  · change (normalizedNames project.files).Nodup
    rw [PersistedProject.normalizedNames_files]
    exact hrunnable.distinct

def LocalStorage.holding (name : String) : LocalStorage where
  accessible := true
  fits _ := true
  project := some (js
    ("\x7b\"files\": [\x7b\"name\": \"" ++ name ++ "\", \"content\": \"\"\x7d]\x7d"))
  source := none

/-- A header is created and renamed, and everything is saved. -/
theorem renamed_header_is_saved :
    ∃ project, Reachable (projectSystem (fun _ => .finite 0) (.holding "main.c")) project ∧
      project.names = [js "main.c", js "list.h"] ∧
      loadProject (fun _ => .finite 0) (saveProject project (.holding "")).2 = project := by
  obtain ⟨project, hreach, hp⟩ := Transition.reachable_of_execute
    (i := loadProject (fun _ => .finite 0) (.holding "main.c")) (f := PersistedProject.step)
    [.createFile (some (js " util.h ")), .createFile (some (js "Main.c")),
      .renameFile (js "util.h") (some (js "list.h")), .deleteFile (js "main.c") true]
    (p := fun project => project.names = [js "main.c", js "list.h"]) (by decide +kernel)
  have hstored : storedFiles (fun _ => .finite 0) (.holding "main.c") =
      some [⟨js "main.c", []⟩] := by decide +kernel
  have hentry : ∀ files, storedFiles (fun _ => .finite 0) (.holding "main.c") = some files →
      js "main.c" ∈ files.map (·.name) := by
    intro files hfiles
    rw [hstored] at hfiles
    cases hfiles
    exact List.mem_singleton_self _
  obtain ⟨-, -, -, -, -, -, hsave⟩ := edited_project_is_runnable _ _ hentry project hreach
  exact ⟨project, hreach, of_decide_eq_true hp, (hsave _ rfl rfl).2⟩

/-- The entry file is found as `Main.c`. It is not shown, and it can be deleted. -/
theorem capitalised_entry_file_is_lost :
    ∃ project project',
      Reachable (projectSystem (fun _ => .finite 0) (.holding "Main.c")) project ∧
      js "main.c" ∉ project.names ∧ project.activeFileName ∉ project.names ∧
      Reachable (projectSystem (fun _ => .finite 0) (.holding "Main.c")) project' ∧
      project'.files = [] := by
  obtain ⟨project, hreach, hp⟩ := Transition.reachable_of_execute
    (i := loadProject (fun _ => .finite 0) (.holding "Main.c")) (f := PersistedProject.step) []
    (p := fun project => js "main.c" ∉ project.names ∧ project.activeFileName ∉ project.names)
    (by decide +kernel)
  obtain ⟨project', hreach', hp'⟩ := Transition.reachable_of_execute
    (i := loadProject (fun _ => .finite 0) (.holding "Main.c")) (f := PersistedProject.step)
    [.setActiveFileName (js "Main.c"), .deleteFile (js "Main.c") true]
    (p := fun project => project.files = []) (by decide +kernel)
  obtain ⟨hentry, hactive⟩ := of_decide_eq_true hp
  exact ⟨project, project', hreach, hentry, hactive, hreach', of_decide_eq_true hp'⟩

end

end SmartC.Web
