import Mathlib.Logic.Function.Basic
import SmartC.Lsp.Guard

/-!
# What a document notification means

The reference semantics of the LSP document notifications, independent of the
guard: a text is cut into lines at LF, a position lies on a line that exists
and not behind its end, a ranged change replaces what lies between two
positions, and the changes of one message are applied one after another. The
guard's search for a position and its application of a change agree with it.
-/

namespace SmartC.Lsp.Reference

structure Position where
  line : Nat
  character : Nat
  deriving DecidableEq, Repr

inductive Change
  | whole (text : JsString)
  | range (start stop : Position) (text : JsString)
  deriving DecidableEq, Repr

inductive Notification
  | didOpen (uri : JsString) (version : Int) (text : JsString)
  | didChange (uri : JsString) (version : Int) (changes : List Change)
  | didClose (uri : JsString)
  | didSave (uri : JsString) (text : Option JsString)
  deriving DecidableEq, Repr

structure Document where
  version : Int
  text : JsString
  deriving DecidableEq, Repr

abbrev Documents := JsString → Option Document

def noDocuments : Documents := fun _ => none

/-- The length of a line, a final CR not counted. -/
def lineLength (line : JsString) : Nat :=
  if line.getLast? = some carriageReturn then line.length - 1 else line.length

def Position.offset (text : JsString) (p : Position) : Option Nat :=
  match (text.splitOn lineFeed)[p.line]? with
  | none => none
  | some line =>
    if p.character ≤ lineLength line then
      some (Lines.lineOffset (text.splitOn lineFeed) p.line + p.character)
    else none

def Change.apply (text : JsString) : Change → Option JsString
  | .whole new => some new
  | .range start stop new =>
    match start.offset text, stop.offset text with
    | some a, some b => if a ≤ b then some (text.take a ++ new ++ text.drop b) else none
    | _, _ => none

def Notification.apply (docs : Documents) : Notification → Option Documents
  | .didOpen uri version text =>
    match docs uri with
    | none => some (Function.update docs uri (some ⟨version, text⟩))
    | some _ => none
  | .didChange uri version changes =>
    match docs uri with
    | none => none
    | some document =>
      (changes.foldlM Change.apply document.text).map fun text =>
        Function.update docs uri (some ⟨version, text⟩)
  | .didClose uri =>
    match docs uri with
    | none => none
    | some _ => some (Function.update docs uri none)
  | .didSave uri text =>
    match docs uri with
    | none => none
    | some document =>
      some (Function.update docs uri (some { document with text := text.getD document.text }))

def Notification.writes : Notification → Option JsString
  | .didOpen uri _ _ | .didChange uri _ _ | .didSave uri (some _) => some uri
  | _ => none

/-! ### Reading notifications -/

def readInteger : Option Json → Option Int
  | some (.number (.finite q)) => if q.den = 1 then some q.num else none
  | _ => none

def readNatural (value : Option Json) : Option Nat :=
  match readInteger value with
  | some (.ofNat n) => some n
  | _ => none

def readPosition (value : Option Json) : Option Position :=
  match readNatural (Value.property "line" value),
    readNatural (Value.property "character" value) with
  | some line, some character => some ⟨line, character⟩
  | _, _ => none

def readChange (value : Json) : Option Change :=
  match Value.string (Value.property "text" (some value)) with
  | none => none
  | some text =>
    match Value.property "range" (some value) with
    | none => some (.whole text)
    | some range =>
      match readPosition (Value.property "start" (some range)),
        readPosition (Value.property "end" (some range)) with
      | some start, some stop => some (.range start stop text)
      | _, _ => none

def method (message : Json) : Option JsString :=
  Value.string (Value.property "method" (some message))

def params (message : Json) : Option Json := Value.property "params" (some message)

def documentUri (message : Json) : Option JsString :=
  Value.string (Value.property "uri" (Value.property "textDocument" (params message)))

def readDidOpen (message : Json) : Option Notification :=
  let document := Value.property "textDocument" (params message)
  match documentUri message, readInteger (Value.property "version" document),
    Value.string (Value.property "text" document) with
  | some uri, some version, some text => some (.didOpen uri version text)
  | _, _, _ => none

def readDidChange (message : Json) : Option Notification :=
  let document := Value.property "textDocument" (params message)
  match documentUri message, readInteger (Value.property "version" document),
    Value.array (Value.property "contentChanges" (params message)) with
  | some uri, some version, some changes => (changes.mapM readChange).map (.didChange uri version)
  | _, _, _ => none

def readDidClose (message : Json) : Option Notification :=
  (documentUri message).map .didClose

def readDidSave (message : Json) : Option Notification :=
  (documentUri message).map fun uri =>
    .didSave uri (Value.string (Value.property "text" (params message)))

def readNotification (message : Json) : Option Notification :=
  if method message = some (js "textDocument/didOpen") then readDidOpen message
  else if method message = some (js "textDocument/didChange") then readDidChange message
  else if method message = some (js "textDocument/didClose") then readDidClose message
  else if method message = some (js "textDocument/didSave") then readDidSave message
  else none

def step (docs : Documents) (message : Json) : Option Documents :=
  match readNotification message with
  | none => some docs
  | some notification => notification.apply docs

/-- The open documents after a sequence of messages. -/
def replay (messages : List Json) : Option Documents := messages.foldlM step noDocuments

theorem replay_append (messages : List Json) (message : Json) :
    replay (messages ++ [message]) = (replay messages).bind fun docs => step docs message := by
  simp [replay, List.foldlM_append]

/-! ### The guard's positions and changes -/

theorem readInteger_of_safeInteger {value : Option Json} {n : Int}
    (h : Value.safeInteger value = some n) : readInteger value = some n := by
  unfold Value.safeInteger at h
  split at h
  · next x =>
    cases x with
    | finite q =>
      simp only [JsNumber.safeInteger] at h
      split at h
      · next hsafe =>
        rw [readInteger, if_pos hsafe.1]
        exact h
      · cases h
    | infinite => cases h
  · cases h

theorem readInteger_of_documentVersion {value : Option Json} {version : Int}
    (h : documentVersion value = some version) : readInteger value = some version := by
  unfold documentVersion at h
  split at h
  · next hsafe =>
    split at h
    · cases h
      exact readInteger_of_safeInteger hsafe
    · cases h
  · cases h

theorem readNatural_of_coordinate {value : Option Json} {n : Nat}
    (h : coordinate value = some n) : readNatural value = some n := by
  unfold coordinate at h
  split at h
  · next z hsafe =>
    split at h
    · next hnonneg =>
      cases h
      rw [readNatural, readInteger_of_safeInteger hsafe]
      obtain ⟨m, rfl⟩ := Int.eq_ofNat_of_zero_le hnonneg
      rfl
    · cases h
  · cases h

theorem lineLength_slice {text : JsString} {start stop : Nat} (hstop : stop ≤ text.length) :
    lineLength ((text.drop start).take (stop - start)) =
      (if start < stop ∧ text[stop - 1]? = some carriageReturn then stop - 1 else stop) - start := by
  have hlength : ((text.drop start).take (stop - start)).length = stop - start := by
    rw [List.length_take, List.length_drop]
    omega
  rw [lineLength, hlength, List.getLast?_eq_getElem?, hlength]
  by_cases hempty : start < stop
  · rw [List.getElem?_take_of_lt (by omega), List.getElem?_drop,
      show start + (stop - start - 1) = stop - 1 by omega]
    by_cases hcr : text[stop - 1]? = some carriageReturn
    · rw [if_pos hcr, if_pos ⟨hempty, hcr⟩]
      omega
    · rw [if_neg hcr, if_neg fun h => hcr h.2]
  · have hnone : ¬(start < stop ∧ text[stop - 1]? = some carriageReturn) := fun h => hempty h.1
    rw [if_neg hnone, show stop - start = 0 by omega]
    simp

theorem lineEnd_eq {text : JsString} {n lineStart : Nat}
    (h : Lines.skipLines lineFeed text n 0 = some lineStart) :
    ∃ line, (text.splitOn lineFeed)[n]? = some line ∧
      lineLength line = lineEnd text lineStart - lineStart := by
  refine ⟨_, Lines.getElem?_lines_of_skipLines h, lineLength_slice ?_⟩
  cases hfound : Lines.indexOf lineFeed text lineStart with
  | none => exact le_refl _
  | some newline => exact (Lines.lines_of_indexOf_some hfound).2.1.le

theorem positionToOffset_eq {text : JsString} {rawPosition : Option Json} {offset : Nat}
    (h : positionToOffset text rawPosition = some offset) :
    ∃ p, readPosition rawPosition = some p ∧ p.offset text = some offset := by
  unfold positionToOffset at h
  split at h
  · next line character hline hcharacter =>
    split at h
    · cases h
    · next lineStart hskip =>
      split at h
      · cases h
      · next hwithin =>
        cases h
        obtain ⟨l, hl, hlength⟩ := lineEnd_eq hskip
        have hstart : lineStart = Lines.lineOffset (text.splitOn lineFeed) line := by
          simpa using (Lines.skipLines_some hskip).1
        refine ⟨⟨line, character⟩, ?_, ?_⟩
        · rw [readPosition, readNatural_of_coordinate hline, readNatural_of_coordinate hcharacter]
        · simp only [Position.offset, hl]
          rw [if_pos (by omega), hstart]
  · cases h

theorem applyRange_eq {currentText text nextText : JsString} {range rangeLength : Option Json}
    (h : applyRange currentText text range rangeLength = some nextText) :
    ∃ start stop, readPosition (Value.property "start" range) = some start ∧
      readPosition (Value.property "end" range) = some stop ∧
      (Change.range start stop text).apply currentText = some nextText := by
  unfold applyRange at h
  split at h
  · next a b hstart hstop =>
    split at h
    · cases h
    · next hvalid =>
      obtain ⟨start, hreadStart, hstart⟩ := positionToOffset_eq hstart
      obtain ⟨stop, hreadStop, hstop⟩ := positionToOffset_eq hstop
      have hle : a ≤ b := by
        by_contra hlt
        exact hvalid (by simp [Nat.lt_of_not_le hlt])
      refine ⟨start, stop, hreadStart, hreadStop, ?_⟩
      simp only [Change.apply, hstart, hstop, if_pos hle]
      exact h
  · cases h

theorem applyDocumentChange_eq {maximumBytes : Nat} {currentText nextText : JsString}
    {rawChange : Json} (h : applyDocumentChange maximumBytes currentText rawChange = some nextText) :
    isSafeDocumentText nextText maximumBytes = true ∧
      ∃ change, readChange rawChange = some change ∧ change.apply currentText = some nextText := by
  unfold applyDocumentChange at h
  split at h
  · cases h
  · next text htext =>
    split at h
    · cases h
    · obtain ⟨hnext, hsafe⟩ := Option.filter_eq_some_iff.1 h
      refine ⟨hsafe, ?_⟩
      cases hrange : Value.property "range" (some rawChange) with
      | none =>
        rw [hrange] at hnext
        cases hnext
        exact ⟨.whole nextText, by simp only [readChange, htext, hrange], rfl⟩
      | some range =>
        rw [hrange] at hnext
        obtain ⟨start, stop, hstart, hstop, happly⟩ := applyRange_eq hnext
        refine ⟨.range start stop text, ?_, happly⟩
        simp only [readChange, htext, hrange, hstart, hstop]

theorem foldlM_applyDocumentChange {maximumBytes : Nat} {rawChanges : List Json}
    {currentText nextText : JsString}
    (h : rawChanges.foldlM (applyDocumentChange maximumBytes) currentText = some nextText) :
    ∃ changes, rawChanges.mapM readChange = some changes ∧
      changes.foldlM Change.apply currentText = some nextText := by
  induction rawChanges generalizing currentText with
  | nil => exact ⟨[], rfl, h⟩
  | cons rawChange rest ih =>
    rw [List.foldlM_cons] at h
    obtain ⟨text, happly, hrest⟩ := Option.bind_eq_some_iff.1 h
    obtain ⟨-, change, hread, hchange⟩ := applyDocumentChange_eq happly
    obtain ⟨changes, hreads, hchanges⟩ := ih hrest
    refine ⟨change :: changes, ?_, ?_⟩
    · rw [List.mapM_cons, hread, hreads]
      rfl
    · rw [List.foldlM_cons, hchange]
      exact hchanges

theorem foldlM_applyDocumentChange_safe {maximumBytes : Nat} {rawChanges : List Json}
    {currentText nextText : JsString} (hne : rawChanges ≠ [])
    (h : rawChanges.foldlM (applyDocumentChange maximumBytes) currentText = some nextText) :
    isSafeDocumentText nextText maximumBytes = true := by
  obtain ⟨before, last, rfl⟩ := (List.eq_nil_or_concat' rawChanges).resolve_left hne
  rw [List.foldlM_append] at h
  obtain ⟨text, -, hlast⟩ := Option.bind_eq_some_iff.1 h
  exact (applyDocumentChange_eq (by simpa using hlast)).1

end SmartC.Lsp.Reference
