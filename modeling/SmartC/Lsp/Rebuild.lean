import SmartC.Lsp.Delivery

/-!
# Forced rebuilds and the versions clangd has seen

A forced rebuild takes the versions of the open documents from the guard, which
knows every message that was accepted, while clangd knows those that were
passed on. The two agree unless a message that opens, changes or closes one of
the documents to rebuild waits in the chain behind the rebuild.
-/

namespace SmartC.Lsp

open Reference (Notification Documents Document replay readNotification)
open Transition (EachAfter RecordedWhen)

variable {session : Session} {createdAt : Int} {s s' : Adapter} {log events : List Event}

def acceptedMessages (log : List Event) : List Json :=
  (acceptedOf log).filterMap fun entry => entry.1.value

def clientMessages (log : List Event) : List Json :=
  (passedOf log).filterMap fun entry => entry.1.value

/-- A forced rebuild names a document that is open for clangd, with its version. -/
def RebuildAgrees (before : List Event) : Event → Prop
  | .forced document => ∃ docs d, replay (clientMessages before) = some docs ∧
      docs document.uri = some d ∧ d.version = document.version
  | _ => True

/-- The versions of a document that clangd has got since it was opened. -/
def seenAfter (uri : JsString) (seen : List Int) : Event → List Int
  | .passed content _ =>
    match content.value.bind readNotification with
    | some (.didOpen u version _) => if u = uri then [version] else seen
    | some (.didChange u version _) => if u = uri then seen ++ [version] else seen
    | some (.didClose u) => if u = uri then [] else seen
    | _ => seen
  | .forced document => if document.uri = uri then seen ++ [document.version] else seen
  | _ => seen

def seenVersions (log : List Event) (uri : JsString) : List Int := log.foldl (seenAfter uri) []

/-- A change of the client has a higher version than everything clangd has got of the
document. -/
def EditIsNewer (before : List Event) : Event → Prop
  | .passed content _ => ∀ uri version changes,
      content.value.bind readNotification = some (.didChange uri version changes) →
      ∀ seen ∈ seenVersions before uri, seen < version
  | _ => True

/-- Whether a message opens, changes or closes one of the documents. -/
def Content.setsVersion (uris : List JsString) (content : Content) : Bool :=
  match content.value.bind readNotification with
  | some (.didOpen uri _ _) | some (.didChange uri _ _) | some (.didClose uri) => uris.contains uri
  | _ => false

def Link.setsVersion (uris : List JsString) : Link → Bool
  | .message content _ _ => content.setsVersion uris
  | .rebuild _ => false

/-- Whether no message that sets the version of a translation unit waits behind a rebuild that
starts. A rebuild of an older generation does nothing. -/
def Adapter.rebuildsInTurn (session : Session) (s : Adapter) : Action → Bool
  | .start _ =>
    match s.messageQueue with
    | .rebuild generation :: rest =>
      !s.alive || generation ≠ s.headerRebuildGeneration ||
        rest.all fun link => !link.setsVersion session.translationUnitUris
    | _ => true
  | _ => true

/-! ### Versions in the reference semantics -/

theorem step_versions {docs docs' : Documents} {content : Content} {message : Json}
    {uris : List JsString} (hvalue : content.value = some message)
    (hsets : content.setsVersion uris = false)
    (h : Reference.step docs message = some docs') {uri : JsString} (huri : uri ∈ uris) :
    (docs' uri).map Document.version = (docs uri).map Document.version := by
  unfold Reference.step at h
  rw [Content.setsVersion, hvalue, Option.bind_some] at hsets
  cases hread : readNotification message with
  | none =>
    rw [hread] at h
    cases h
    rfl
  | some notification =>
    rw [hread] at h hsets
    have hother : ∀ {u}, uris.contains u = false → uri ≠ u := by
      rintro u hu rfl
      rw [List.contains_iff_mem.2 huri] at hu
      cases hu
    cases notification with
    | didOpen u version text =>
      simp only [Notification.apply] at h
      split at h
      · cases h
        rw [Function.update_of_ne (hother hsets)]
      · cases h
    | didChange u version changes =>
      simp only [Notification.apply] at h
      split at h
      · cases h
      obtain ⟨text, -, rfl⟩ := Option.map_eq_some_iff.1 h
      rw [Function.update_of_ne (hother hsets)]
    | didClose u =>
      simp only [Notification.apply] at h
      split at h
      · cases h
      cases h
      rw [Function.update_of_ne (hother hsets)]
    | didSave u text =>
      simp only [Notification.apply] at h
      split at h
      · cases h
      · next document hdocument =>
        cases h
        -- a save keeps the version
        by_cases hu : uri = u
        · subst hu
          simp [hdocument]
        · simp [hu]

theorem replay_append_list (first rest : List Json) :
    replay (first ++ rest) = (replay first).bind fun docs => rest.foldlM Reference.step docs := by
  simp [replay, List.foldlM_append]

theorem foldlM_versions {contents : List Content} {uris : List JsString}
    (hsets : ∀ content ∈ contents, content.setsVersion uris = false) {docs docs' : Documents}
    (h : (contents.filterMap Content.value).foldlM Reference.step docs = some docs')
    {uri : JsString} (huri : uri ∈ uris) :
    (docs' uri).map Document.version = (docs uri).map Document.version := by
  induction contents generalizing docs with
  | nil =>
    cases h
    rfl
  | cons content contents ih =>
    have hrest := fun c hc => hsets c (List.mem_cons_of_mem _ hc)
    cases hvalue : content.value with
    | none =>
      rw [List.filterMap_cons_none hvalue] at h
      exact ih hrest h
    | some message =>
      rw [List.filterMap_cons_some hvalue, List.foldlM_cons] at h
      obtain ⟨docs₁, hstep, h⟩ := Option.bind_eq_some_iff.1 h
      rw [ih hrest h]
      exact step_versions hvalue (hsets content (List.mem_cons_self ..)) hstep huri

/-! ### The two views -/

def ChangeIsNewer (before : List Json) (message : Json) : Prop :=
  ∀ uri version changes, readNotification message = some (.didChange uri version changes) →
    ∃ docs d, replay before = some docs ∧ docs uri = some d ∧ d.version < version

/-- What clangd has got is consistent: it knows every document it has seen a version of with
that version or a later one. -/
structure Consistent (log : List Event) : Prop where
  seen : ∀ docs, replay (clientMessages log) = some docs →
    ∀ uri, ∀ v ∈ seenVersions log uri, ∃ d, docs uri = some d ∧ v ≤ d.version
  agreed : EachAfter (fun before e => RebuildAgrees before e ∧ EditIsNewer before e) log

/-- What makes one more event consistent with those before. -/
def Fits (before : List Event) : Event → Prop
  | .passed content _ => ∀ message, content.value = some message →
      ChangeIsNewer (clientMessages before) message
  | e => RebuildAgrees before e

structure Versioned (s : Adapter) (log : List Event) : Prop where
  mirrored : ∃ docs, replay (acceptedMessages log) = some docs ∧ Mirrors s.guard docs
  newer : EachAfter ChangeIsNewer (acceptedMessages log)
  consistent : Consistent log

theorem clientMessages_append (log events : List Event) :
    clientMessages (log ++ events) = clientMessages log ++ clientMessages events := by
  rw [clientMessages, passedOf_append, List.filterMap_append]
  rfl

theorem acceptedMessages_append (log events : List Event) :
    acceptedMessages (log ++ events) = acceptedMessages log ++ acceptedMessages events := by
  rw [acceptedMessages, acceptedOf_append, List.filterMap_append]
  rfl

theorem seenVersions_append (log : List Event) (e : Event) (uri : JsString) :
    seenVersions (log ++ [e]) uri = seenAfter uri (seenVersions log uri) e := by
  rw [seenVersions, List.foldl_append]
  rfl

theorem Consistent.editIsNewer {e : Event} (h : Consistent log) (hfits : Fits log e) :
    EditIsNewer log e := by
  cases e with
  | accepted => trivial
  | forced => trivial
  | violated => trivial
  | passed content disk =>
    intro uri version changes hread v hv
    obtain ⟨message, hvalue, hread⟩ := Option.bind_eq_some_iff.1 hread
    obtain ⟨docs, d, hreplay, hd, hlt⟩ := hfits message hvalue uri version changes hread
    obtain ⟨d', hd', hle⟩ := h.seen docs hreplay uri v hv
    rw [hd] at hd'
    cases hd'
    omega

theorem Consistent.seen_passed (h : Consistent log) {content : Content} {disk : Disk}
    (hfits : Fits log (.passed content disk)) {docs : Documents}
    (hreplay : replay (clientMessages (log ++ [.passed content disk])) = some docs)
    (uri : JsString) (v : Int) (hv : v ∈ seenVersions (log ++ [.passed content disk]) uri) :
    ∃ d, docs uri = some d ∧ v ≤ d.version := by
  have hmessages : clientMessages [.passed content disk] = content.value.toList := by
    change List.filterMap _ [_] = _
    cases hvalue : content.value with
    | none => exact List.filterMap_cons_none hvalue
    | some message => exact List.filterMap_cons_some hvalue
  rw [clientMessages_append, hmessages] at hreplay
  rw [seenVersions_append, seenAfter] at hv
  cases hvalue : content.value with
  | none =>
    rw [hvalue] at hreplay hv
    rw [Option.toList_none, List.append_nil] at hreplay
    exact h.seen docs hreplay uri v hv
  | some message =>
    rw [hvalue, Option.bind_some] at hv
    rw [hvalue, Option.toList_some, Reference.replay_append] at hreplay
    obtain ⟨docs₀, hreplay₀, hstep⟩ := Option.bind_eq_some_iff.1 hreplay
    have hseen := h.seen docs₀ hreplay₀ uri
    unfold Reference.step at hstep
    cases hread : readNotification message with
    | none =>
      rw [hread] at hstep hv
      cases hstep
      exact hseen v hv
    | some notification =>
      rw [hread] at hstep hv
      cases notification with
      | didOpen u version text =>
        simp only [Notification.apply] at hstep
        split at hstep
        · cases hstep
          -- what is seen of a document begins anew when it is opened
          by_cases hu : u = uri
          · subst hu
            simp only [if_true, List.mem_singleton] at hv
            exact ⟨_, Function.update_self .., hv.le⟩
          · rw [Function.update_of_ne (Ne.symm hu)]
            exact hseen v (by simpa [hu] using hv)
        · cases hstep
      | didChange u version changes =>
        simp only [Notification.apply] at hstep
        split at hstep
        · cases hstep
        obtain ⟨text, -, rfl⟩ := Option.map_eq_some_iff.1 hstep
        by_cases hu : u = uri
        · subst hu
          simp only [if_true, List.mem_append, List.mem_singleton] at hv
          refine ⟨_, Function.update_self .., ?_⟩
          rcases hv with hv | rfl
          · have hnewer := h.editIsNewer hfits u version changes (by rw [hvalue]; exact hread) v hv
            exact hnewer.le
          · exact le_rfl
        · rw [Function.update_of_ne (Ne.symm hu)]
          exact hseen v (by simpa [hu] using hv)
      | didClose u =>
        simp only [Notification.apply] at hstep
        split at hstep
        · cases hstep
        cases hstep
        -- of a closed document nothing is seen
        by_cases hu : u = uri
        · simp [hu] at hv
        · rw [Function.update_of_ne (Ne.symm hu)]
          exact hseen v (by simpa [hu] using hv)
      | didSave u text =>
        simp only [Notification.apply] at hstep
        split at hstep
        · cases hstep
        next document hdocument =>
        cases hstep
        obtain ⟨d, hd, hle⟩ := hseen v hv
        by_cases hu : uri = u
        · subst hu
          rw [hdocument] at hd
          cases hd
          exact ⟨_, Function.update_self .., hle⟩
        · exact ⟨d, by rw [Function.update_of_ne hu, hd], hle⟩

theorem Consistent.append {e : Event} (h : Consistent log) (hfits : Fits log e) :
    Consistent (log ++ [e]) := by
  refine ⟨?_, ?_⟩
  · intro docs hreplay uri v hv
    have hdocs : clientMessages [e] = [] → replay (clientMessages log) = some docs := by
      intro hnone
      rwa [clientMessages_append, hnone, List.append_nil] at hreplay
    cases e with
    | accepted =>
      rw [seenVersions_append] at hv
      exact h.seen docs (hdocs rfl) uri v hv
    | violated =>
      rw [seenVersions_append] at hv
      exact h.seen docs (hdocs rfl) uri v hv
    | passed => exact h.seen_passed hfits hreplay uri v hv
    | forced document =>
      rw [seenVersions_append, seenAfter] at hv
      obtain ⟨docs', d, hreplay', hd, hversion⟩ := hfits
      rw [hdocs rfl] at hreplay'
      cases hreplay'
      by_cases hu : document.uri = uri
      · subst hu
        simp only [if_true, List.mem_append, List.mem_singleton] at hv
        rcases hv with hv | rfl
        · exact h.seen docs (hdocs rfl) _ v hv
        · exact ⟨d, hd, hversion.ge⟩
      · rw [if_neg hu] at hv
        exact h.seen docs (hdocs rfl) uri v hv
  · refine h.agreed.append ⟨?_, h.editIsNewer hfits⟩
    cases e with
    | passed => trivial
    | accepted => exact hfits
    | forced => exact hfits
    | violated => exact hfits

theorem Consistent.reports {reports : List Event} (h : Consistent log)
    (hreports : Reports s s' reports) : Consistent (log ++ reports) := by
  cases hreports with
  | nothing => rwa [List.append_nil]
  | violation => exact h.append trivial

theorem Consistent.forced (h : Consistent log) {documents : List LspOpenDocumentVersion}
    (hagrees : ∀ document ∈ documents, RebuildAgrees log (.forced document)) :
    Consistent (log ++ documents.map .forced) := by
  induction documents generalizing log with
  | nil => rwa [List.map_nil, List.append_nil]
  | cons document documents ih =>
    rw [List.map_cons, ← List.singleton_append, ← List.append_assoc]
    refine ih (h.append (hagrees document (List.mem_cons_self ..))) fun document' hmem => ?_
    obtain ⟨docs, d, hreplay, hd, hversion⟩ := hagrees document' (List.mem_cons_of_mem _ hmem)
    -- a forced rebuild is no message of the client
    refine ⟨docs, d, ?_, hd, hversion⟩
    rwa [clientMessages_append, show clientMessages [.forced document] = [] from rfl,
      List.append_nil]

/-! ### One action -/

theorem Effect.admits (he : Effect session s s' events) :
    acceptedMessages events = [] ∧ s'.guard.documents = s.guard.documents ∨
      ∃ message g g', acceptedMessages events = [message] ∧ g.documents = s.guard.documents ∧
        Admitted session.guardOptions g message g' ∧ s'.guard.documents = g'.documents := by
  have of_reports : ∀ {reports}, Reports s s' reports → acceptedMessages reports = [] := by
    intro reports h
    rw [acceptedMessages, h.acceptedOf]
    rfl
  cases he with
  | quiet _ _ _ documents reported => exact .inl ⟨of_reports reported, documents⟩
  | @accept a guard update generation valid taken documents =>
    right
    obtain ⟨startedAt, messages, bytes, ⟨violation, hv⟩ | ⟨message, g', hv, hvalue, hadmitted⟩⟩ :=
      validateClientMessage_cases session.guardOptions a.now a.content s.guard
    · rw [valid] at hv
      cases hv
    · rw [valid] at hv
      cases hv
      refine ⟨message, s.guard.charged startedAt messages bytes, _, ?_, rfl, hadmitted, documents⟩
      simp [acceptedMessages, acceptedOf, hvalue]
  | enqueue _ _ _ _ guard => exact .inl ⟨rfl, by rw [guard]⟩
  | stage _ _ _ _ _ _ guard => exact .inl ⟨rfl, by rw [guard]⟩
  | staged _ _ _ _ _ guard => exact .inl ⟨rfl, by rw [guard]⟩
  | write _ _ _ _ _ _ guard => exact .inl ⟨rfl, by rw [guard]⟩
  | pass _ _ _ _ _ _ guard reported =>
    have hreports := of_reports reported
    exact .inl ⟨hreports, by rw [guard]⟩
  | drop _ _ _ guard reported => exact .inl ⟨of_reports reported, by rw [guard]⟩
  | rebuilt _ _ _ _ _ _ _ guard reported =>
    refine .inl ⟨?_, by rw [guard]⟩
    rw [acceptedMessages_append, of_reports reported, List.append_nil]
    simp [acceptedMessages, acceptedOf]

theorem Versioned.mirrored_effect (h : Versioned s log) (he : Effect session s s' events) :
    ∃ docs, replay (acceptedMessages (log ++ events)) = some docs ∧ Mirrors s'.guard docs := by
  obtain ⟨docs, hreplay, hm⟩ := h.mirrored
  rw [acceptedMessages_append]
  rcases he.admits with ⟨hnone, hsame⟩ | ⟨message, g, g', hone, hbefore, hadmitted, hafter⟩
  · refine ⟨docs, by rw [hnone, List.append_nil, hreplay], fun uri => ?_⟩
    rw [hsame, hm uri]
  · have hg : Mirrors g docs := fun uri => by rw [hbefore, hm uri]
    obtain ⟨docs', hstep, hm'⟩ := hadmitted.mirrors hg
    refine ⟨docs', ?_, fun uri => by rw [hafter, hm' uri]⟩
    rw [hone, Reference.replay_append, hreplay]
    exact hstep

theorem Versioned.newer_effect (h : Versioned s log) (he : Effect session s s' events) :
    EachAfter ChangeIsNewer (acceptedMessages (log ++ events)) := by
  obtain ⟨docs, hreplay, hm⟩ := h.mirrored
  rw [acceptedMessages_append]
  rcases he.admits with ⟨hnone, -⟩ | ⟨message, g, g', hone, hbefore, hadmitted, -⟩
  · rw [hnone, List.append_nil]
    exact h.newer
  · rw [hone]
    refine h.newer.append fun uri version changes hread => ?_
    have hg : Mirrors g docs := fun uri => by rw [hbefore, hm uri]
    obtain ⟨d, hd, hlt⟩ := hadmitted.newer hg hread
    exact ⟨docs, d, hreplay, hd, hlt⟩

theorem InStep.acceptedMessages (h : InStep session s log) :
    Lsp.acceptedMessages log = clientMessages log ++
      (s.messageQueue.filterMap Link.accepted).filterMap fun entry => entry.1.value := by
  obtain ⟨done, haccepted, hpassed, -⟩ := h.done
  have hclient : (done.filterMap fun entry => entry.1.value) = clientMessages log := by
    have hvalues := congrArg (List.filterMap Content.value) hpassed
    rwa [List.filterMap_map, List.filterMap_map] at hvalues
  rw [Lsp.acceptedMessages, haccepted, List.filterMap_append, hclient]

theorem Versioned.fits_pass (h : Versioned s log) (hf : Faithful session s log)
    (live : s.alive = true) {content : Content} {update : Option LspDocumentUpdate}
    {generation : Option Nat} {rest : List Link}
    (queue : s.messageQueue = .message content update generation :: rest) :
    Fits log (.passed content s.disk) := by
  intro message hvalue
  refine h.newer (clientMessages log) message
    ((rest.filterMap Link.accepted).filterMap fun entry => entry.1.value) ?_
  rw [(hf.inStep live).acceptedMessages, queue]
  simp [Link.accepted, hvalue]

/-- A rebuild of documents whose version no message behind it sets finds the versions that
clangd has got. -/
theorem Versioned.fits_forced (h : Versioned s log) (hf : Faithful session s log)
    (live : s.alive = true) {generation : Nat} {rest : List Link}
    (queue : s.messageQueue = .rebuild generation :: rest)
    {uris : List JsString} (turn : ∀ link ∈ rest, link.setsVersion uris = false)
    {document : LspOpenDocumentVersion} (hdocument : document ∈ s.guard.openDocumentVersions)
    (huri : document.uri ∈ uris) :
    RebuildAgrees log (.forced document) := by
  obtain ⟨docs, hreplay, hm⟩ := h.mirrored
  have hwaiting : acceptedMessages log = clientMessages log ++
      ((rest.filterMap Link.accepted).map Prod.fst).filterMap Content.value := by
    rw [(hf.inStep live).acceptedMessages, queue, List.filterMap_map]
    rfl
  rw [hwaiting, replay_append_list] at hreplay
  obtain ⟨docs₀, hreplay₀, hrest⟩ := Option.bind_eq_some_iff.1 hreplay
  have hsets : ∀ content ∈ (rest.filterMap Link.accepted).map Prod.fst,
      content.setsVersion uris = false := by
    intro content hcontent
    obtain ⟨⟨content, update⟩, hentry, rfl⟩ := List.mem_map.1 hcontent
    obtain ⟨link, hlink, heq⟩ := List.mem_filterMap.1 hentry
    cases link with
    | rebuild => cases heq
    | message =>
      cases heq
      exact turn _ hlink
  have hversions := foldlM_versions hsets hrest huri
  obtain ⟨⟨uri, tracked⟩, hmem, rfl⟩ := List.mem_map.1 hdocument
  rw [hm uri, OrderedMap.mem_entries.1 hmem] at hversions
  obtain ⟨d, hd, hversion⟩ := Option.map_eq_some_iff.1 hversions.symm
  exact ⟨docs₀, d, hreplay₀, hd, hversion⟩

theorem Versioned.consistent_effect (h : Versioned s log) (hf : Faithful session s log)
    (he : Effect session s s' events)
    (turn : (∃ document, Event.forced document ∈ events) → s.alive = true → ∀ rest,
      s.messageQueue = .rebuild s.headerRebuildGeneration :: rest →
      ∀ link ∈ rest, link.setsVersion session.translationUnitUris = false) :
    Consistent (log ++ events) := by
  cases he with
  | quiet _ _ _ _ reported => exact h.consistent.reports reported
  | accept => exact h.consistent.append trivial
  | enqueue => rw [List.append_nil]; exact h.consistent
  | stage => rw [List.append_nil]; exact h.consistent
  | staged => rw [List.append_nil]; exact h.consistent
  | write => rw [List.append_nil]; exact h.consistent
  | pass live queue _ _ _ _ _ reported =>
    rw [← List.singleton_append, ← List.append_assoc]
    exact (h.consistent.append (h.fits_pass hf live queue)).reports reported
  | drop _ _ _ _ reported => exact h.consistent.reports reported
  | @rebuilt generation rest documents reports queue _ _ _ _ _ units _ reported =>
    rw [← List.append_assoc]
    refine (h.consistent.forced fun document hdocument => ?_).reports reported
    obtain ⟨live, rfl, hopen⟩ := units (List.ne_nil_of_mem hdocument)
    have hforced : Event.forced document ∈ documents.map .forced ++ reports :=
      List.mem_append_left _ (List.mem_map_of_mem hdocument)
    exact h.fits_forced hf live queue (turn ⟨document, hforced⟩ live rest queue)
      (hopen document hdocument).1 (hopen document hdocument).2

theorem forced_notMem_report (s : Adapter) (violation : Violation)
    (document : LspOpenDocumentVersion) :
    Event.forced document ∉ (s.reportViolation violation).2 := by
  unfold Adapter.reportViolation
  split <;> simp

theorem forced_notMem_passOn (s : Adapter) (content : Content) (generation thrown : Option Nat)
    (document : LspOpenDocumentVersion) :
    Event.forced document ∉ (s.passOn content generation thrown).2 := by
  unfold Adapter.passOn
  split
  · simp
  split
  · simpa using forced_notMem_report s.next synchronizationFailed document
  · split <;> simp

theorem start_of_forced {a : Action} {document : LspOpenDocumentVersion}
    (h : s.react session a = some (s', events)) (hforced : Event.forced document ∈ events) :
    ∃ thrown, a = .start thrown := by
  have quiet : ∀ {r : Adapter × List Event}, some r = some (s', events) →
      Event.forced document ∉ r.2 → False := by
    rintro r hr hnone
    obtain rfl := Option.some.inj hr
    exact hnone hforced
  -- none of the other actions passes on a forced rebuild
  cases a with
  | start thrown => exact ⟨thrown, rfl⟩
  | message arrival isBinary =>
    refine (quiet h ?_).elim
    unfold Adapter.onMessage
    split
    · exact forced_notMem_report _ _ _
    split
    · exact forced_notMem_report _ _ _
    · dsimp only
      split <;> simp
  | settle succeeds =>
    simp only [Adapter.react, Adapter.settle] at h
    split at h
    · split at h
      · exact (quiet h (by simp)).elim
      · exact (quiet h (forced_notMem_report _ _ _)).elim
    · split at h
      · obtain ⟨disk, -, heq⟩ := Option.map_eq_some_iff.1 h
        exact (quiet (congrArg some heq) (by simp)).elim
      · exact (quiet h (forced_notMem_report _ _ _)).elim
    · cases h
  | resume thrown =>
    simp only [Adapter.react, Adapter.resume] at h
    split at h
    · exact (quiet h (forced_notMem_passOn _ _ _ _ _)).elim
    · cases h
  | timer =>
    simp only [Adapter.react] at h
    split at h
    · cases h
    · exact (quiet h (by simp)).elim
  | send content bufferedAmount =>
    refine (quiet h ?_).elim
    unfold Adapter.send
    split
    · simp
    split
    · exact forced_notMem_report _ _ _
    · simp
  | closing =>
    simp only [Adapter.react] at h
    split at h
    · exact (quiet h (by simp)).elim
    · cases h
  | close => exact (quiet h (by simp)).elim
  | dispose => exact (quiet h (by simp)).elim
  | removeWorkspace =>
    simp only [Adapter.react] at h
    split at h
    · cases h
    · exact (quiet h (by simp)).elim

theorem Versioned.init : Versioned (.new session createdAt) [] := by
  refine ⟨⟨_, rfl, fun _ => rfl⟩, .nil, ?_, .nil⟩
  intro docs _ uri v hv
  cases hv

/-- Every forced rebuild names a document that is open according to the messages clangd has
got, with the version of the last one, and every change of the client that is passed on has a
higher version than all that clangd has seen of the document. -/
theorem rebuilds_agree_with_clangd
    (h : RecordedWhen (adapterSystem session createdAt)
      (fun s a => s.rebuildsInTurn session a = true) (Adapter.events session) s log) :
    EachAfter (fun before e => RebuildAgrees before e ∧ EditIsNewer before e) log := by
  have hinv : Faithful session s log ∧ Versioned s log := by
    refine RecordedWhen.invariant (I := fun s log => Faithful session s log ∧ Versioned s log) h
      ⟨.init, .init⟩ ?_
    rintro s s' a log - ⟨hf, hv⟩ hturn hstep
    have hreact := react_of_step hstep
    have he := react_effect hreact
    refine ⟨hf.effect he, hv.mirrored_effect he, hv.newer_effect he, hv.consistent_effect hf he ?_⟩
    rintro ⟨document, hforced⟩ live rest queue link hlink
    obtain ⟨thrown, rfl⟩ := start_of_forced hreact hforced
    simp only [Adapter.rebuildsInTurn, queue, live, Bool.not_true, Bool.false_or, ne_eq,
      not_true_eq_false, decide_false, List.all_eq_true, Bool.not_eq_true'] at hturn
    exact hturn link hlink
  exact hinv.2.consistent.agreed

namespace Browser

def delivered (message : Json) : List Action :=
  [.message (send message) false, .start none]

def written (message : Json) : List Action :=
  delivered message ++ [.settle true, .settle true, .resume none]

def insertion (uri : JsString) (version : Int) : Json :=
  didChange uri version [rangedChange (0, 0) (0, 0) (js " ")]

def headerChanged : List Action :=
  delivered (initializeRequest emptySession.workspaceUri) ++ delivered initialized ++
    written (didOpen mainUri 1 []) ++ written (didOpen headerUri 1 []) ++
    written (insertion headerUri 2)

end Browser

def Event.isForced : Event → Bool
  | .forced _ => true
  | _ => false

theorem rebuild_agrees_after_header_change :
    ∃ s log, RecordedWhen (adapterSystem Browser.emptySession 0)
        (fun s a => s.rebuildsInTurn Browser.emptySession a = true)
        (Adapter.events Browser.emptySession) s log ∧
      log.any Event.isForced = true ∧
      EachAfter (fun before e => RebuildAgrees before e ∧ EditIsNewer before e) log := by
  obtain ⟨s, log, hrun, hforced⟩ := Transition.recordedWhen_of_execute
    (c := Adapter.rebuildsInTurn Browser.emptySession) (i := Adapter.new Browser.emptySession 0)
    (f := Adapter.step Browser.emptySession) (Adapter.events Browser.emptySession)
    (Browser.headerChanged ++ [.timer, .start none])
    (p := fun _ log => log.any Event.isForced) (by decide +kernel)
  exact ⟨s, log, hrun, hforced, rebuilds_agree_with_clangd hrun⟩

def Event.forced? : Event → Option LspOpenDocumentVersion
  | .forced document => some document
  | _ => none

/-- While the second version of the main file is being written, the timer fires and the third
version arrives: the rebuild then names a version that clangd has not got. -/
theorem rebuild_overtakes_edit :
    ∃ s before docs d, Observed Browser.emptySession 0 s
        (before ++ [.forced ⟨Browser.mainUri, 3⟩]) ∧
      replay (clientMessages before) = some docs ∧ docs Browser.mainUri = some d ∧
      d.version = 2 ∧ ¬RebuildAgrees before (.forced ⟨Browser.mainUri, 3⟩) := by
  obtain ⟨s, log, hrun, htest⟩ := Transition.recordedWhen_of_execute
    (c := fun _ _ => true) (i := Adapter.new Browser.emptySession 0)
    (f := Adapter.step Browser.emptySession) (Adapter.events Browser.emptySession)
    (Browser.headerChanged ++
      [.message (Browser.send (Browser.insertion Browser.mainUri 2)) false, .start none, .timer,
        .message (Browser.send (Browser.insertion Browser.mainUri 3)) false,
        .settle true, .settle true, .resume none, .start none])
    (p := fun _ log =>
      log.getLast?.bind Event.forced? = some ⟨Browser.mainUri, 3⟩ &&
      ((replay (clientMessages log.dropLast)).bind (· Browser.mainUri)).map Document.version = some 2)
    (by decide +kernel)
  obtain ⟨hlast, hversion⟩ := Bool.and_eq_true_iff.1 htest
  obtain ⟨event, hget, hforced⟩ := Option.bind_eq_some_iff.1 (of_decide_eq_true hlast)
  obtain rfl : event = .forced ⟨Browser.mainUri, 3⟩ := by
    cases event <;> cases hforced
    rfl
  have hlog : log.dropLast ++ [.forced ⟨Browser.mainUri, 3⟩] = log :=
    List.dropLast_append_getLast? _ hget
  obtain ⟨d, hd, hversion⟩ := Option.map_eq_some_iff.1 (of_decide_eq_true hversion)
  obtain ⟨docs, hreplay, hdocs⟩ := Option.bind_eq_some_iff.1 hd
  refine ⟨s, log.dropLast, docs, d, ?_, hreplay, hdocs, hversion, ?_⟩
  · rw [hlog]
    exact hrun.weaken fun _ _ _ => trivial
  · rintro ⟨docs', d', hreplay', hdocs', hversion'⟩
    rw [hreplay] at hreplay'
    cases hreplay'
    rw [hdocs] at hdocs'
    cases hdocs'
    rw [hversion] at hversion'
    cases hversion'

end SmartC.Lsp
