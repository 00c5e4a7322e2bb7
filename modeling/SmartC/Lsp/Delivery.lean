import Mathlib.Data.List.Induction
import SmartC.Lsp.Adapter

/-!
# What clangd is told matches what is on disk

As long as something may still be passed on, the accepted messages are those
passed on followed by those in the chain, and the files are what the updates of
the former made of them. A link that gives up does so after a violation or on a
socket that is no longer open, and then nothing is passed on any more.
-/

namespace SmartC.Lsp

open Transition (EachAfter RecordedWhen)

variable {session : Session} {createdAt : Int} {s s' : Adapter} {log events : List Event}

def acceptedOf (log : List Event) : List (Content × Option LspDocumentUpdate) :=
  log.filterMap fun
    | .accepted content update => some (content, update)
    | _ => none

def passedOf (log : List Event) : List (Content × Disk) :=
  log.filterMap fun
    | .passed content disk => some (content, disk)
    | _ => none

def Event.isPass : Event → Bool
  | .passed _ _ | .forced _ => true
  | _ => false

def Event.isViolation : Event → Bool
  | .violated _ => true
  | _ => false

/-- A run of the adapter with everything that can be seen of it. -/
abbrev Observed (session : Session) (createdAt : Int) : Adapter → List Event → Prop :=
  RecordedWhen (adapterSystem session createdAt) (fun _ _ => True) (Adapter.events session)

/-! ### Files after a list of updates -/

def Session.writeAll (session : Session) (disk : Disk) (updates : List LspDocumentUpdate) : Disk :=
  updates.foldl (fun disk update => (session.writeUpdate disk update).getD disk) disk

def lastText (updates : List LspDocumentUpdate) (uri : JsString) : Option JsString :=
  ((updates.filter fun update => update.uri = uri).getLast?).map (·.text)

theorem lastText_append (updates : List LspDocumentUpdate) (update : LspDocumentUpdate)
    (uri : JsString) :
    lastText (updates ++ [update]) uri =
      if update.uri = uri then some update.text else lastText updates uri := by
  by_cases hu : update.uri = uri
  · simp [lastText, hu]
  · simp [lastText, hu]

theorem documentPath_injective {uri uri' name : JsString}
    (h : session.documentPath uri = some name) (h' : session.documentPath uri' = some name) :
    uri = uri' := by
  have hname : ∀ {u : JsString}, session.documentPath u = some name →
      session.createClangdDocumentUri name = u := by
    intro u hu
    obtain ⟨file, hfind, rfl⟩ := Option.map_eq_some_iff.1 hu
    simpa using List.find?_some hfind
  rw [← hname h, hname h']

theorem writeAll_append (disk : Disk) (updates : List LspDocumentUpdate)
    (update : LspDocumentUpdate) :
    session.writeAll disk (updates ++ [update]) =
      (session.writeUpdate (session.writeAll disk updates) update).getD
        (session.writeAll disk updates) := by
  rw [Session.writeAll, List.foldl_append]
  rfl

/-- Each file holds the last text of its document, or what it held before. -/
theorem get_writeAll {uri name : JsString} (hpath : session.documentPath uri = some name)
    (disk : Disk) (updates : List LspDocumentUpdate) :
    (session.writeAll disk updates).get name =
      ((lastText updates uri).map toUtf8).or (disk.get name) := by
  induction updates using List.reverseRecOn with
  | nil => rfl
  | append_singleton updates update ih =>
    rw [writeAll_append, lastText_append]
    generalize session.writeAll disk updates = written at ih ⊢
    by_cases hu : update.uri = uri
    · subst hu
      simp [Session.writeUpdate, hpath, OrderedMap.get_set]
    · rw [if_neg hu, ← ih]
      cases hother : session.documentPath update.uri with
      | none => simp [Session.writeUpdate, hother]
      | some name' =>
        have hne : name ≠ name' := by
          rintro rfl
          exact hu (documentPath_injective hother hpath)
        simp [Session.writeUpdate, hother, OrderedMap.get_set, hne]

/-! ### The chain follows the guard -/

def Link.accepted : Link → Option (Content × Option LspDocumentUpdate)
  | .message content update _ => some (content, update)
  | .rebuild _ => none

/-- The update that the first link has written but not passed on. -/
def Adapter.written (s : Adapter) : List LspDocumentUpdate :=
  match s.progress, s.messageQueue with
  | .written, .message _ (some update) _ :: _ => [update]
  | _, _ => []

/-- While something may be passed on: the accepted messages are those passed on and those in
the chain, and the files are as far as the updates. -/
structure InStep (session : Session) (s : Adapter) (log : List Event) : Prop where
  done : ∃ done, acceptedOf log = done ++ s.messageQueue.filterMap Link.accepted ∧
    done.map Prod.fst = (passedOf log).map Prod.fst ∧
    s.disk = session.writeAll (createFiles session.files) (done.filterMap Prod.snd ++ s.written)
  writing : s.progress ≠ .waiting → ∃ content update generation rest,
    s.messageQueue = .message content (some update) generation :: rest

structure Faithful (session : Session) (s : Adapter) (log : List Event) : Prop where
  inStep : s.alive = true → InStep session s log
  sent : (passedOf log).map Prod.fst <+: (acceptedOf log).map Prod.fst
  files : ∀ (k : Nat) content disk, (passedOf log)[k]? = some (content, disk) →
    disk = session.writeAll (createFiles session.files)
      (((acceptedOf log).take (k + 1)).filterMap Prod.snd)
  violated : (∃ e ∈ log, e.isViolation = true) → s.violated = true
  silent : EachAfter (fun before e => (∃ v ∈ before, v.isViolation = true) → e.isPass = false) log

theorem acceptedOf_append (log events : List Event) :
    acceptedOf (log ++ events) = acceptedOf log ++ acceptedOf events := List.filterMap_append

theorem passedOf_append (log events : List Event) :
    passedOf (log ++ events) = passedOf log ++ passedOf events := List.filterMap_append

theorem Reports.acceptedOf (h : Reports s s' events) : Lsp.acceptedOf events = [] := by
  cases h <;> rfl

theorem Reports.passedOf (h : Reports s s' events) : Lsp.passedOf events = [] := by
  cases h <;> rfl

theorem Reports.isViolation (h : Reports s s' events) : ∀ e ∈ events, e.isViolation = true := by
  cases h with
  | nothing => simp
  | violation => simp [Event.isViolation]

theorem Effect.front (h : Effect session s s' events) :
    ∃ front reports, events = front ++ reports ∧ Reports s s' reports ∧
      (∀ e ∈ front, e.isViolation = false) ∧
      ((∃ e ∈ front, e.isPass = true) → s.violated = false) := by
  have of_alive : s.alive = true → s.violated = false := by
    intro halive
    simp only [Adapter.alive, Bool.and_eq_true, Bool.not_eq_true'] at halive
    exact halive.1
  cases h with
  | quiet _ _ _ _ reported => exact ⟨[], _, rfl, reported, by simp, by simp⟩
  | accept _ _ _ _ _ _ _ same =>
    exact ⟨[_], [], rfl, .nothing same, by simp [Event.isViolation], by simp [Event.isPass]⟩
  | enqueue _ _ _ _ _ same => exact ⟨[], [], rfl, .nothing same, by simp, by simp⟩
  | stage _ _ _ _ _ _ _ same => exact ⟨[], [], rfl, .nothing same, by simp, by simp⟩
  | staged _ _ _ _ _ _ same => exact ⟨[], [], rfl, .nothing same, by simp, by simp⟩
  | write _ _ _ _ _ _ _ same => exact ⟨[], [], rfl, .nothing same, by simp, by simp⟩
  | pass live _ _ _ _ _ _ reported =>
    exact ⟨[_], _, rfl, reported, by simp [Event.isViolation], fun _ => of_alive live⟩
  | drop _ _ _ _ reported => exact ⟨[], _, rfl, reported, by simp, by simp⟩
  | @rebuilt _ _ documents _ _ _ _ _ _ _ units _ reported =>
    refine ⟨documents.map .forced, _, rfl, reported, ?_, ?_⟩
    · simp [Event.isViolation]
    · rintro ⟨e, he, -⟩
      refine of_alive (units ?_).1
      rintro rfl
      simp at he

theorem Faithful.violated_effect (h : Faithful session s log) (he : Effect session s s' events)
    (hv : ∃ e ∈ log ++ events, e.isViolation = true) : s'.violated = true := by
  obtain ⟨front, reports, rfl, hreports, hfront, -⟩ := he.front
  obtain ⟨e, hmem, hviolation⟩ := hv
  rw [List.mem_append, List.mem_append] at hmem
  rcases hmem with hmem | hmem | hmem
  · exact hreports.violated (.inl (h.violated ⟨e, hmem, hviolation⟩))
  · rw [hfront e hmem] at hviolation
    cases hviolation
  · exact hreports.violated (.inr (List.ne_nil_of_mem hmem))

theorem Faithful.silent_effect (h : Faithful session s log) (he : Effect session s s' events) :
    EachAfter (fun before e => (∃ v ∈ before, v.isViolation = true) → e.isPass = false)
      (log ++ events) := by
  obtain ⟨front, reports, rfl, hreports, hfront, hpass⟩ := he.front
  refine h.silent.append_all fun before x after hsplit hv => ?_
  by_contra hx
  have hx : x.isPass = true := by simpa using hx
  obtain ⟨v, hmem, hviolation⟩ := hv
  have hxfront : x ∈ front := by
    have hmem : x ∈ front ++ reports := hsplit ▸ by simp
    refine (List.mem_append.1 hmem).resolve_right fun hmem => ?_
    have hxviolation := hreports.isViolation x hmem
    cases x <;> simp [Event.isPass, Event.isViolation] at hx hxviolation
  -- a violation of this action comes last, so it is not before `x`
  have hlog : v ∈ log := by
    refine (List.mem_append.1 hmem).resolve_right fun hbefore => ?_
    have hreport : v ∈ reports := by
      have hmem : v ∈ front ++ reports := hsplit ▸ List.mem_append_left _ hbefore
      refine (List.mem_append.1 hmem).resolve_left fun hmem => ?_
      rw [hfront v hmem] at hviolation
      cases hviolation
    cases hreports with
    | nothing => simp at hreport
    | violation =>
      rcases List.eq_nil_or_concat' after with rfl | ⟨rest, last, rfl⟩
      · obtain ⟨-, hlast⟩ := List.append_inj' hsplit rfl
        cases hlast
        simp [Event.isPass] at hx
      · rw [← List.cons_append, ← List.append_assoc] at hsplit
        obtain ⟨hsplit, -⟩ := List.append_inj' hsplit rfl
        have hfrontv := hfront v (hsplit ▸ List.mem_append_left _ hbefore)
        rw [hfrontv] at hviolation
        cases hviolation
  have hviolated := h.violated ⟨v, hlog, hviolation⟩
  rw [hpass ⟨x, hxfront, hx⟩] at hviolated
  cases hviolated

theorem Adapter.written_of_ne (h : s.progress ≠ .written) : s.written = [] := by
  unfold Adapter.written
  split
  · next hprogress _ => exact absurd hprogress h
  · rfl

theorem InStep.written_append (h : InStep session s log) {link : Link}
    (queue : s'.messageQueue = s.messageQueue ++ [link]) (progress : s'.progress = s.progress) :
    s'.written = s.written := by
  by_cases hwaiting : s.progress = .waiting
  · rw [s.written_of_ne (by simp [hwaiting]), s'.written_of_ne (by simp [progress, hwaiting])]
  · obtain ⟨content, update, generation, rest, hqueue⟩ := h.writing hwaiting
    rw [Adapter.written, Adapter.written, queue, progress, hqueue, List.cons_append]
    cases s.progress <;> rfl

theorem InStep.writing_append (h : InStep session s log) {link : Link}
    (queue : s'.messageQueue = s.messageQueue ++ [link]) (progress : s'.progress = s.progress) :
    s'.progress ≠ .waiting → ∃ content update generation rest,
      s'.messageQueue = .message content (some update) generation :: rest := by
  intro hwaiting
  rw [progress] at hwaiting
  obtain ⟨content, update, generation, rest, hqueue⟩ := h.writing hwaiting
  exact ⟨content, update, generation, rest ++ [link], by rw [queue, hqueue, List.cons_append]⟩

/-- When the first link is about to pass on its message, the files are as far as this message. -/
theorem InStep.passable (h : InStep session s log) {content : Content}
    {update : Option LspDocumentUpdate} {generation : Option Nat} {rest : List Link}
    (queue : s.messageQueue = .message content update generation :: rest)
    (ready : s.progress = .written ∨ s.progress = .waiting ∧ update = none) :
    ∃ done, acceptedOf log = done ++ (content, update) :: rest.filterMap Link.accepted ∧
      done.map Prod.fst = (passedOf log).map Prod.fst ∧
      s.disk = session.writeAll (createFiles session.files)
        ((done ++ [(content, update)]).filterMap Prod.snd) := by
  obtain ⟨done, haccepted, hpassed, hfiles⟩ := h.done
  refine ⟨done, by rw [haccepted, queue]; rfl, hpassed, ?_⟩
  rw [hfiles, List.filterMap_append]
  rcases ready with hwritten | ⟨hwaiting, rfl⟩
  · obtain ⟨_, update', _, _, hqueue⟩ := h.writing (by simp [hwritten])
    rw [queue] at hqueue
    cases hqueue
    rw [Adapter.written, hwritten, queue]
    rfl
  · rw [s.written_of_ne (by simp [hwaiting])]
    rfl

theorem Faithful.inStep_effect (h : Faithful session s log) (he : Effect session s s' events)
    (halive' : s'.alive = true) : InStep session s' (log ++ events) := by
  cases he with
  | quiet queue progress alive documents reported =>
    obtain ⟨halive, hdisk⟩ := alive halive'
    obtain ⟨⟨done, haccepted, hpassed, hfiles⟩, hwriting⟩ := h.inStep halive
    refine ⟨⟨done, ?_, ?_, ?_⟩, ?_⟩
    · rw [acceptedOf_append, reported.acceptedOf, List.append_nil, queue, haccepted]
    · rw [passedOf_append, reported.passedOf, List.append_nil, hpassed]
    · rw [hdisk, hfiles, Adapter.written, Adapter.written, queue, progress]
    · rw [progress, queue]
      exact hwriting
  | @accept a guard update generation valid taken documents queue progress disk alive same =>
    have hin := h.inStep (alive ▸ halive')
    obtain ⟨done, haccepted, hpassed, hfiles⟩ := hin.done
    refine ⟨⟨done, ?_, ?_, ?_⟩, hin.writing_append queue progress⟩
    · rw [acceptedOf_append, haccepted, queue, List.filterMap_append, ← List.append_assoc]
      rfl
    · rw [passedOf_append, hpassed]
      exact congrArg _ (List.append_nil _).symm
    · rw [disk, hfiles, hin.written_append queue progress]
  | enqueue queue progress disk alive guard same =>
    have hin := h.inStep (alive ▸ halive')
    obtain ⟨done, haccepted, hpassed, hfiles⟩ := hin.done
    rw [List.append_nil]
    refine ⟨⟨done, ?_, hpassed, ?_⟩, hin.writing_append queue progress⟩
    · rw [haccepted, queue, List.filterMap_append]
      exact congrArg _ (List.append_nil _).symm
    · rw [disk, hfiles, hin.written_append queue progress]
  | stage queue queue' before after disk alive guard same =>
    obtain ⟨done, haccepted, hpassed, hfiles⟩ := (h.inStep (alive ▸ halive')).done
    rw [List.append_nil]
    refine ⟨⟨done, by rw [queue', haccepted], hpassed, ?_⟩, fun _ => ⟨_, _, _, _, queue'.trans queue⟩⟩
    rw [disk, hfiles, s.written_of_ne (by simp [before]), s'.written_of_ne (by simp [after])]
  | staged queue before after disk alive guard same =>
    obtain ⟨⟨done, haccepted, hpassed, hfiles⟩, hwriting⟩ := h.inStep (alive ▸ halive')
    rw [List.append_nil]
    refine ⟨⟨done, by rw [queue, haccepted], hpassed, ?_⟩, fun _ => ?_⟩
    · rw [disk, hfiles, s.written_of_ne (by simp [before]), s'.written_of_ne (by simp [after])]
    · rw [queue]
      exact hwriting (by simp [before])
  | @write content update generation rest queue queue' before after disk alive guard same =>
    obtain ⟨done, haccepted, hpassed, hfiles⟩ := (h.inStep (alive ▸ halive')).done
    rw [List.append_nil]
    refine ⟨⟨done, by rw [queue', haccepted], hpassed, ?_⟩, fun _ => ⟨_, _, _, _, queue'.trans queue⟩⟩
    -- the update is on disk, and its link is not done
    have hwritten : s'.written = [update] := by
      rw [Adapter.written, after, queue', queue]
    rw [s.written_of_ne (by simp [before]), List.append_nil] at hfiles
    rw [hwritten, writeAll_append, ← hfiles, disk, Option.getD_some]
  | @pass content update generation rest reports live queue ready queue' progress disk guard
      reported =>
    obtain ⟨done, haccepted, hpassed, hfiles⟩ := (h.inStep live).passable queue ready
    have hreports : acceptedOf (.passed content s.disk :: reports) = [] := reported.acceptedOf
    have hreports' : passedOf (.passed content s.disk :: reports) = [(content, s.disk)] :=
      congrArg _ reported.passedOf
    refine ⟨⟨done ++ [(content, update)], ?_, ?_, ?_⟩, fun hne => absurd progress hne⟩
    · rw [acceptedOf_append, hreports, List.append_nil, haccepted, queue', List.append_assoc]
      rfl
    · rw [passedOf_append, hreports', List.map_append, List.map_append, hpassed]
      rfl
    · rw [disk, hfiles, s'.written_of_ne (by simp [progress]), List.append_nil]
  -- a link is dropped only when nothing more is passed on
  | drop _ _ dead =>
    rw [dead] at halive'
    cases halive'
  | @rebuilt generation rest documents reports queue before queue' progress disk alive units guard
      reported =>
    obtain ⟨done, haccepted, hpassed, hfiles⟩ := (h.inStep (alive halive')).done
    have hforced : acceptedOf (documents.map .forced ++ reports) = [] := by
      rw [acceptedOf_append, reported.acceptedOf, List.append_nil]
      simp [acceptedOf]
    have hforced' : passedOf (documents.map .forced ++ reports) = [] := by
      rw [passedOf_append, reported.passedOf, List.append_nil]
      simp [passedOf]
    refine ⟨⟨done, ?_, ?_, ?_⟩, fun hne => absurd progress hne⟩
    · rw [acceptedOf_append, hforced, List.append_nil, haccepted, queue, queue']
      rfl
    · rw [passedOf_append, hforced', List.append_nil, hpassed]
    · rw [disk, hfiles, s.written_of_ne (by simp [before]), s'.written_of_ne (by simp [progress])]

theorem Faithful.passes (h : Faithful session s log) (he : Effect session s s' events) :
    passedOf events = [] ∨ ∃ content update done rest,
      passedOf events = [(content, s.disk)] ∧ acceptedOf events = [] ∧
      acceptedOf log = done ++ (content, update) :: rest ∧
      done.map Prod.fst = (passedOf log).map Prod.fst ∧
      s.disk = session.writeAll (createFiles session.files)
        ((done ++ [(content, update)]).filterMap Prod.snd) := by
  cases he with
  | quiet _ _ _ _ reported => exact .inl reported.passedOf
  | accept => exact .inl rfl
  | enqueue => exact .inl rfl
  | stage => exact .inl rfl
  | staged => exact .inl rfl
  | write => exact .inl rfl
  | @pass content update _ rest _ live queue ready _ _ _ _ reported =>
    obtain ⟨done, haccepted, hpassed, hfiles⟩ := (h.inStep live).passable queue ready
    exact .inr ⟨content, update, done, _, congrArg _ reported.passedOf, reported.acceptedOf,
      haccepted, hpassed, hfiles⟩
  | drop _ _ _ _ reported => exact .inl reported.passedOf
  | rebuilt _ _ _ _ _ _ _ _ reported =>
    left
    rw [passedOf_append, reported.passedOf, List.append_nil]
    simp [passedOf]

theorem Faithful.sent_effect (h : Faithful session s log) (he : Effect session s s' events) :
    (passedOf (log ++ events)).map Prod.fst <+: (acceptedOf (log ++ events)).map Prod.fst := by
  rw [acceptedOf_append, passedOf_append]
  rcases h.passes he with hnone | ⟨content, update, done, rest, hpassed, haccepted, hlog, hdone, -⟩
  · rw [hnone, List.append_nil, List.map_append]
    exact h.sent.trans (List.prefix_append _ _)
  · rw [hpassed, haccepted, List.append_nil, hlog, List.map_append, List.map_append, ← hdone]
    exact ⟨rest.map Prod.fst, by simp⟩

theorem Faithful.files_effect (h : Faithful session s log) (he : Effect session s s' events)
    (k : Nat) (content : Content) (disk : Disk)
    (hk : (passedOf (log ++ events))[k]? = some (content, disk)) :
    disk = session.writeAll (createFiles session.files)
      (((acceptedOf (log ++ events)).take (k + 1)).filterMap Prod.snd) := by
  rw [passedOf_append] at hk
  by_cases hlt : k < (passedOf log).length
  · -- passed on before: what is accepted now comes later
    rw [List.getElem?_append_left hlt] at hk
    have hle : k + 1 ≤ (acceptedOf log).length := by
      have hlength := h.sent.length_le
      rw [List.length_map, List.length_map] at hlength
      omega
    rw [acceptedOf_append, List.take_append_of_le_length hle]
    exact h.files k content disk hk
  · rw [List.getElem?_append_right (by omega)] at hk
    rcases h.passes he with hnone | ⟨content', update, done, rest, hpassed, haccepted, hlog, hdone,
      hfiles⟩
    · rw [hnone] at hk
      cases hk
    · rw [hpassed] at hk
      have hlength : done.length = (passedOf log).length := by
        simpa using congrArg List.length hdone
      have hzero : k - (passedOf log).length = 0 := by
        by_contra hne
        rw [List.getElem?_eq_none (by simp; omega)] at hk
        cases hk
      rw [hzero] at hk
      cases hk
      have hk : k + 1 = (done ++ [(content, update)]).length := by
        rw [List.length_append, List.length_singleton]
        omega
      rw [acceptedOf_append, haccepted, List.append_nil, hlog, ← List.singleton_append,
        ← List.append_assoc, hk, List.take_left]
      exact hfiles

theorem Faithful.init : Faithful session (.new session createdAt) [] := by
  refine ⟨fun _ => ⟨⟨[], rfl, rfl, rfl⟩, fun hne => absurd rfl hne⟩, List.prefix_rfl, ?_, ?_, .nil⟩
  · intro k content disk hk
    cases hk
  · rintro ⟨e, he, -⟩
    cases he

theorem Faithful.effect (h : Faithful session s log) (he : Effect session s s' events) :
    Faithful session s' (log ++ events) :=
  ⟨h.inStep_effect he, h.sent_effect he, h.files_effect he, h.violated_effect he,
    h.silent_effect he⟩

theorem react_of_step {a : Action} (h : (adapterSystem session createdAt).step s a s') :
    s.react session a = some (s', Adapter.events session s a) := by
  obtain ⟨⟨s₁, events⟩, hreact, rfl⟩ := Option.map_eq_some_iff.1 h
  rw [Adapter.events, hreact]
  rfl

theorem faithful (h : Observed session createdAt s log) : Faithful session s log := by
  refine RecordedWhen.invariant (I := fun s log => Faithful session s log) h .init ?_
  intro s s' a log _ h _ hstep
  exact h.effect (react_effect (react_of_step hstep))

/-- What is passed on to clangd is a first part of what the guard accepted, every message with
the files in which the updates up to this message are the last ones, and nothing is passed on
after a violation was reported. -/
theorem clangd_is_told_what_is_on_disk (h : Observed session createdAt s log) :
    (passedOf log).map Prod.fst <+: (acceptedOf log).map Prod.fst ∧
      (∀ (k : Nat) content disk, (passedOf log)[k]? = some (content, disk) →
        ∀ uri name, session.documentPath uri = some name →
          disk.get name =
            ((lastText (((acceptedOf log).take (k + 1)).filterMap Prod.snd) uri).map toUtf8).or
              ((createFiles session.files).get name)) ∧
      EachAfter (fun before e => (∃ v ∈ before, v.isViolation = true) → e.isPass = false) log := by
  have hf := faithful h
  refine ⟨hf.sent, fun k content disk hk uri name hpath => ?_, hf.silent⟩
  rw [hf.files k content disk hk, get_writeAll hpath]

/-- The main file is opened with a new text, which is on disk when clangd gets the message. -/
theorem opened_text_is_on_disk :
    ∃ s log content disk, Observed Browser.emptySession 0 s log ∧
      (passedOf log)[2]? = some (content, disk) ∧
      disk.get (js "main.c") = some (toUtf8 (js "int x;")) := by
  obtain ⟨s, log, hrun, htest⟩ := Transition.recordedWhen_of_execute
    (c := fun _ _ => true) (i := Adapter.new Browser.emptySession 0)
    (f := Adapter.step Browser.emptySession) (Adapter.events Browser.emptySession)
    [.message (Browser.send (Browser.initializeRequest Browser.emptySession.workspaceUri)) false,
      .start none, .message (Browser.send Browser.initialized) false, .start none,
      .message (Browser.send (Browser.didOpen Browser.mainUri 1 (js "int x;"))) false,
      .start none, .settle true, .settle true, .resume none]
    (p := fun _ log => (passedOf log)[2]?.isSome &&
      lastText (((acceptedOf log).take 3).filterMap Prod.snd) Browser.mainUri = some (js "int x;"))
    (by decide +kernel)
  have hrun : Observed Browser.emptySession 0 s log := hrun.weaken fun _ _ _ => trivial
  obtain ⟨hpassed, hlast⟩ := Bool.and_eq_true_iff.1 htest
  obtain ⟨⟨content, disk⟩, hk⟩ := Option.isSome_iff_exists.1 hpassed
  obtain ⟨-, hfiles, -⟩ := clangd_is_told_what_is_on_disk hrun
  refine ⟨s, log, content, disk, hrun, hk, ?_⟩
  rw [hfiles 2 content disk hk Browser.mainUri (js "main.c") (by decide), of_decide_eq_true hlast]
  rfl

end SmartC.Lsp
