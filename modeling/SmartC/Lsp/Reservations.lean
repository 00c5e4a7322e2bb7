import SmartC.Lsp.Changes

/-!
# Session limits

A session is counted as a reservation while it is created and as an entry of
the map afterwards. The ids of calls, sessions and cleanups do not overlap, so
a session that is created takes the place of its reservation, and every limit
that a reservation was granted under keeps holding.
-/

namespace SmartC.Lsp

def createdIds (issued : List Issue) : List JsString := issued.map (·.payload.sessionId)

/-- An id belongs to one call of `createSession`, one session or one cleanup at a time, and to
none before and after. -/
structure WellKeyed (sessions : OrderedMap JsString ManagedSession)
    (cleanupPromises : OrderedMap JsString Cleanup) (creating : OrderedMap JsString Creation)
    (issued : List Issue) : Prop where
  session_id : ∀ {id session}, sessions.get id = some session →
    session.id = id ∧ session.state ≠ .disposing
  session : ∀ {id}, sessions.get id ≠ none → cleanupPromises.get id = none ∧ id ∈ createdIds issued
  cleanup : ∀ {id cleanup}, cleanupPromises.get id = some cleanup →
    cleanup.session.state = .disposing ∧ id ∈ createdIds issued
  creating : ∀ {id}, creating.get id ≠ none → id ∉ createdIds issued
  issued : (createdIds issued).Nodup

namespace WellKeyed

variable {sessions : OrderedMap JsString ManagedSession}
  {cleanupPromises : OrderedMap JsString Cleanup} {creating : OrderedMap JsString Creation}
  {issued : List Issue} {id : JsString}

theorem empty : WellKeyed .empty .empty .empty [] where
  session_id h := by cases h
  session h := absurd rfl h
  cleanup h := by cases h
  creating h := absurd rfl h
  issued := List.nodup_nil

theorem creating_ne_none {creation : Creation} (h : creating.get id = some creation) :
    creating.get id ≠ none := by
  rw [h]
  exact Option.some_ne_none _

theorem set_creating (h : WellKeyed sessions cleanupPromises creating issued)
    (hid : id ∉ createdIds issued) (creation : Creation) :
    WellKeyed sessions cleanupPromises (creating.set id creation) issued where
  session_id := h.session_id
  session := h.session
  cleanup := h.cleanup
  creating {id'} hget := by
    rw [OrderedMap.get_set] at hget
    split at hget
    · next heq => exact heq ▸ hid
    · exact h.creating hget
  issued := h.issued

theorem delete_creating (h : WellKeyed sessions cleanupPromises creating issued) (id : JsString) :
    WellKeyed sessions cleanupPromises (creating.delete id) issued where
  session_id := h.session_id
  session := h.session
  cleanup := h.cleanup
  creating {id'} hget := by
    rw [OrderedMap.get_delete] at hget
    split at hget
    · exact absurd rfl hget
    · exact h.creating hget
  issued := h.issued

theorem update (h : WellKeyed sessions cleanupPromises creating issued)
    {session session' : ManagedSession} (hget : sessions.get id = some session)
    (hid : session'.id = session.id) (hstate : session'.state ≠ .disposing) :
    WellKeyed (sessions.set id session') cleanupPromises creating issued where
  session_id {id' s} hs := by
    rw [OrderedMap.get_set] at hs
    split at hs
    · next heq =>
      cases hs
      exact ⟨by rw [hid, heq, (h.session_id hget).1], hstate⟩
    · exact h.session_id hs
  session {id'} hs := by
    rw [OrderedMap.get_set] at hs
    split at hs
    · next heq => exact heq ▸ h.session (by simp [hget])
    · exact h.session hs
  cleanup := h.cleanup
  creating := h.creating
  issued := h.issued

theorem create (h : WellKeyed sessions cleanupPromises creating issued) {creation : Creation}
    (hget : creating.get id = some creation) {session : ManagedSession} (hid : session.id = id)
    (hstate : session.state ≠ .disposing) {issue : Issue} (hissue : issue.payload.sessionId = id) :
    WellKeyed (sessions.set id session) cleanupPromises (creating.delete id) (issued ++ [issue]) := by
  have hnew := h.creating (creating_ne_none hget)
  have hmem : ∀ {id'}, id' ∈ createdIds (issued ++ [issue]) ↔ id' ∈ createdIds issued ∨ id' = id := by
    simp [createdIds, hissue]
  constructor
  case session_id =>
    intro id' s hs
    rw [OrderedMap.get_set] at hs
    split at hs
    · next heq =>
      cases hs
      exact ⟨hid.trans heq.symm, hstate⟩
    · exact h.session_id hs
  case session =>
    intro id' hs
    rw [OrderedMap.get_set] at hs
    split at hs
    · next heq =>
      refine ⟨?_, hmem.2 (.inr heq)⟩
      cases hcleanup : cleanupPromises.get id' with
      | none => rfl
      | some cleanup => exact absurd (heq ▸ (h.cleanup hcleanup).2) hnew
    · exact ⟨(h.session hs).1, hmem.2 (.inl (h.session hs).2)⟩
  case cleanup => exact fun hs => ⟨(h.cleanup hs).1, hmem.2 (.inl (h.cleanup hs).2)⟩
  case creating =>
    intro id' hs hcreated
    rw [OrderedMap.get_delete] at hs
    split at hs
    · exact hs rfl
    · next hne => exact (hmem.1 hcreated).elim (h.creating hs) hne
  case issued =>
    rw [createdIds, List.map_append, List.map_singleton, hissue]
    exact List.nodup_append.2 ⟨h.issued, List.nodup_singleton _, by
      rintro a ha b hb rfl
      exact hnew (List.mem_singleton.1 hb ▸ ha)⟩

theorem close (h : WellKeyed sessions cleanupPromises creating issued)
    {session : ManagedSession} (hget : sessions.get id = some session) {cleanup : Cleanup}
    (hstate : cleanup.session.state = .disposing) :
    WellKeyed (sessions.delete id) (cleanupPromises.set id cleanup) creating issued where
  session_id {id' s} hs := by
    rw [OrderedMap.get_delete] at hs
    split at hs
    · cases hs
    · exact h.session_id hs
  session {id'} hs := by
    rw [OrderedMap.get_delete] at hs
    split at hs
    · exact absurd rfl hs
    · next hne =>
      rw [OrderedMap.get_set, if_neg hne]
      exact h.session hs
  cleanup {id' c} hc := by
    rw [OrderedMap.get_set] at hc
    split at hc
    · next heq =>
      cases hc
      exact ⟨hstate, heq ▸ (h.session (by simp [hget])).2⟩
    · exact h.cleanup hc
  creating := h.creating
  issued := h.issued

theorem proceed (h : WellKeyed sessions cleanupPromises creating issued) {cleanup : Cleanup}
    (hget : cleanupPromises.get id = some cleanup) (next : CleanupAt) :
    WellKeyed sessions (cleanupPromises.set id { cleanup with at_ := next }) creating issued where
  session_id := h.session_id
  session {id'} hs := by
    have hne : id' ≠ id := by
      rintro rfl
      rw [(h.session hs).1] at hget
      cases hget
    rw [OrderedMap.get_set, if_neg hne]
    exact h.session hs
  cleanup {id' c} hc := by
    rw [OrderedMap.get_set] at hc
    split at hc
    · next heq =>
      cases hc
      exact ⟨(h.cleanup hget).1, heq ▸ (h.cleanup hget).2⟩
    · exact h.cleanup hc
  creating := h.creating
  issued := h.issued

theorem remove (h : WellKeyed sessions cleanupPromises creating issued) (id : JsString) :
    WellKeyed sessions (cleanupPromises.delete id) creating issued where
  session_id := h.session_id
  session {id'} hs := by
    rw [OrderedMap.get_delete]
    split
    · exact ⟨rfl, (h.session hs).2⟩
    · exact h.session hs
  cleanup {id' c} hc := by
    rw [OrderedMap.get_delete] at hc
    split at hc
    · cases hc
    · exact h.cleanup hc
  creating := h.creating
  issued := h.issued

end WellKeyed

namespace LspSessionManager

open Transition

variable {o : SessionManagerOptions} {now : Int} {m m' : LspSessionManager} {c : Change}
  {D : LspSessionManager → Change → Prop}

def WellKeyed (m : LspSessionManager) : Prop :=
  Lsp.WellKeyed m.sessions m.cleanupPromises m.creating m.issued

theorem not_created_of_isFresh {id : JsString} (h : m.isFresh id = true) :
    m.creating.get id = none ∧ id ∉ createdIds m.issued := by
  simp only [isFresh, Bool.and_eq_true, Bool.not_eq_true', OrderedMap.has, List.all_eq_true,
    decide_eq_true_eq, Option.isSome_eq_false_iff, Option.isNone_iff_eq_none] at h
  refine ⟨h.1, fun hmem => ?_⟩
  obtain ⟨issue, hissue, heq⟩ := List.mem_map.1 hmem
  exact h.2 issue hissue heq

theorem reserve_ok {visitorId clientIp : JsString}
    (h : m.reserve o visitorId clientIp = .ok m') :
    m.shuttingDown = false ∧ size m.sessions + m.pendingCount < o.maxSessions ∧
    countWhere m.sessions (fun session => session.visitorId = visitorId) +
      (m.pendingVisitors.get visitorId).getD 0 < o.maxSessionsPerVisitor ∧
    countWhere m.sessions (fun session => session.clientIp = clientIp) +
      (m.pendingIps.get clientIp).getD 0 < o.maxSessionsPerIp ∧
    m' = { m with
      pendingCount := m.pendingCount + 1
      pendingVisitors := incrementCount m.pendingVisitors visitorId
      pendingIps := incrementCount m.pendingIps clientIp } := by
  unfold reserve at h
  dsimp only at h
  split at h
  · cases h
  · next hrunning =>
    split at h
    · cases h
    · next hglobal =>
      split at h
      · cases h
      · next hvisitor =>
        split at h
        · cases h
        · next hip =>
          cases h
          exact ⟨Bool.eq_false_iff.2 hrunning, Int.not_le.1 hglobal, Int.not_le.1 hvisitor,
            Int.not_le.1 hip, rfl⟩

theorem WellKeyed.step (h : m.WellKeyed) (hs : Change.Step o m c m') : m'.WellKeyed := by
  cases hs with
  | reserve hfresh hreserve =>
    obtain ⟨-, -, -, -, rfl⟩ := reserve_ok hreserve
    exact Lsp.WellKeyed.set_creating h (not_created_of_isFresh hfresh).2 _
  | mkdir hget | write hget | fail hget =>
    exact Lsp.WellKeyed.set_creating h (h.creating (WellKeyed.creating_ne_none hget)) _
  | create hget hat nonce =>
    refine Lsp.WellKeyed.create h hget rfl ?_ rfl
    exact SessionState.noConfusion
  | abandon hget succeeds => exact Lsp.WellKeyed.delete_creating h _
  | authorize hget => exact Lsp.WellKeyed.update h hget rfl nofun
  | touch hget hstate =>
    exact Lsp.WellKeyed.update h hget rfl (h.session_id hget).2
  | attach hget hstate result =>
    cases result <;> exact Lsp.WellKeyed.update h hget rfl nofun
  | close hget => exact Lsp.WellKeyed.close h hget rfl
  | expire hget => exact Lsp.WellKeyed.close h hget rfl
  | proceed hget next => exact Lsp.WellKeyed.proceed h hget next
  | remove hget => exact Lsp.WellKeyed.remove h _
  | drop | exit | shutDown | pass | report => exact h

theorem wellKeyed (h : ReachableWhen (changeSystem o now) D m) : m.WellKeyed :=
  h.invariant Lsp.WellKeyed.empty fun _ ih _ hs => ih.step hs

end LspSessionManager

/-! ### Counts -/

section Counts

variable {β : Type} {entries : OrderedMap JsString β} {id : JsString} {v old : β} {p : β → Bool}

theorem countWhere_nonneg : 0 ≤ countWhere entries p :=
  OrderedMap.total_nonneg entries fun v => by split <;> decide

theorem countWhere_set_new (h : entries.get id = none) :
    countWhere (entries.set id v) p = countWhere entries p + if p v then 1 else 0 :=
  OrderedMap.total_set_new h v _

theorem countWhere_set_same (h : entries.get id = some old) (hp : p v = p old) :
    countWhere (entries.set id v) p = countWhere entries p := by
  rw [countWhere, OrderedMap.total_set h, hp, sub_add_cancel]
  rfl

theorem countWhere_delete (h : entries.get id = some old) :
    countWhere (entries.delete id) p = countWhere entries p - if p old then 1 else 0 :=
  OrderedMap.total_delete h _

/-- The map holds, for every key that occurs, how often it does, and nothing else. -/
def Tallies (counts : OrderedMap JsString Int) (entries : OrderedMap JsString β)
    (key : β → JsString) : Prop :=
  ∀ k, counts.get k =
    if countWhere entries (fun v => key v = k) = 0 then none
    else some (countWhere entries fun v => key v = k)

namespace Tallies

variable {counts : OrderedMap JsString Int} {key : β → JsString}

theorem getD (h : Tallies counts entries key) (k : JsString) :
    (counts.get k).getD 0 = countWhere entries fun v => key v = k := by
  rw [h k]
  split
  · next hzero => exact hzero.symm
  · rfl

theorem pos (h : Tallies counts entries key) {k : JsString} {n : Int}
    (hget : counts.get k = some n) : 0 < n := by
  rw [h k] at hget
  split at hget
  · cases hget
  · next hne =>
    cases hget
    exact lt_of_le_of_ne countWhere_nonneg (Ne.symm hne)

theorem increment (h : Tallies counts entries key) (hnew : entries.get id = none) (v : β) :
    Tallies (incrementCount counts (key v)) (entries.set id v) key := by
  intro k
  rw [incrementCount, OrderedMap.get_set, countWhere_set_new hnew, h.getD]
  by_cases hk : k = key v
  · subst hk
    have hpos : 0 ≤ countWhere entries fun v' => key v' = key v := countWhere_nonneg
    rw [if_pos rfl, decide_eq_true rfl, if_pos rfl, if_neg (by omega)]
  · rw [if_neg hk, decide_eq_false (Ne.symm hk), if_neg Bool.false_ne_true, add_zero]
    exact h k

theorem decrement (h : Tallies counts entries key) (hget : entries.get id = some v) :
    Tallies (decrementCount counts (key v)) (entries.delete id) key := by
  intro k
  have hrest := countWhere_delete (p := fun v' => key v' = k) hget
  by_cases hk : k = key v
  · subst hk
    have hnonneg : 0 ≤ countWhere (entries.delete id) fun v' => key v' = key v := countWhere_nonneg
    rw [decide_eq_true rfl, if_pos rfl] at hrest
    have hcount : (counts.get (key v)).getD 1 = countWhere entries fun v' => key v' = key v := by
      rw [h (key v), if_neg (by omega)]
      rfl
    rw [decrementCount, hcount, ← hrest]
    split
    · rw [OrderedMap.get_delete, if_pos rfl, if_pos (by omega)]
    · rw [OrderedMap.get_set, if_pos rfl, if_neg (by omega)]
  · rw [decide_eq_false (Ne.symm hk), if_neg Bool.false_ne_true, sub_zero] at hrest
    rw [hrest, ← h k, decrementCount]
    split
    · rw [OrderedMap.get_delete, if_neg hk]
    · rw [OrderedMap.get_set, if_neg hk]

theorem set_same (h : Tallies counts entries key) (hget : entries.get id = some old)
    (hkey : key v = key old) : Tallies counts (entries.set id v) key := by
  intro k
  rw [countWhere_set_same hget (by rw [hkey])]
  exact h k

end Tallies

end Counts

/-! ### The limits -/

namespace LspSessionManager

open Transition

variable {o : SessionManagerOptions} {now : Int} {m m' : LspSessionManager} {c : Change}
  {D : LspSessionManager → Change → Prop}

/-- The sessions and calls of `createSession` whose visitor and client IP satisfy `P`. -/
def occupied (sessions : OrderedMap JsString ManagedSession)
    (creating : OrderedMap JsString Creation) (P : JsString → JsString → Bool) : Int :=
  countWhere sessions (fun session => P session.visitorId session.clientIp) +
    countWhere creating fun creation => P creation.request.visitorId creation.request.clientIp

section Occupied

variable {sessions : OrderedMap JsString ManagedSession} {creating : OrderedMap JsString Creation}
  {P : JsString → JsString → Bool} {id : JsString} {session session' : ManagedSession}
  {creation creation' : Creation}

theorem occupied_reserve (sessions : OrderedMap JsString ManagedSession)
    (hnew : creating.get id = none) (creation : Creation) (P : JsString → JsString → Bool) :
    occupied sessions (creating.set id creation) P = occupied sessions creating P +
      if P creation.request.visitorId creation.request.clientIp then 1 else 0 := by
  rw [occupied, occupied, countWhere_set_new hnew, add_assoc]

theorem occupied_advance (hget : creating.get id = some creation)
    (hrequest : creation'.request = creation.request) :
    occupied sessions (creating.set id creation') P = occupied sessions creating P := by
  rw [occupied, occupied, countWhere_set_same hget (by rw [hrequest])]

theorem occupied_create (hnew : sessions.get id = none) (hget : creating.get id = some creation)
    (hvisitor : session.visitorId = creation.request.visitorId)
    (hip : session.clientIp = creation.request.clientIp) :
    occupied (sessions.set id session) (creating.delete id) P = occupied sessions creating P := by
  rw [occupied, occupied, countWhere_set_new hnew, countWhere_delete hget, hvisitor, hip]
  omega

theorem occupied_abandon (hget : creating.get id = some creation) :
    occupied sessions (creating.delete id) P ≤ occupied sessions creating P := by
  rw [occupied, occupied, countWhere_delete hget]
  split <;> omega

theorem occupied_update (hget : sessions.get id = some session)
    (hvisitor : session'.visitorId = session.visitorId) (hip : session'.clientIp = session.clientIp) :
    occupied (sessions.set id session') creating P = occupied sessions creating P := by
  rw [occupied, occupied, countWhere_set_same hget (by rw [hvisitor, hip])]

theorem occupied_close (hget : sessions.get id = some session) :
    occupied (sessions.delete id) creating P ≤ occupied sessions creating P := by
  rw [occupied, occupied, countWhere_delete hget]
  split <;> omega

end Occupied

/-- Only a reservation takes a place; a session that is created takes that of its call. -/
theorem occupied_step (hw : m.WellKeyed) (hs : Change.Step o m c m')
    (hreserve : ∀ sessionId request, c ≠ .reserve sessionId request)
    (P : JsString → JsString → Bool) :
    occupied m'.sessions m'.creating P ≤ occupied m.sessions m.creating P := by
  cases hs with
  | reserve => exact absurd rfl (hreserve _ _)
  | mkdir hget | write hget | fail hget => exact le_of_eq (occupied_advance hget rfl)
  | @create sessionId creation hget =>
    have hnone : m.sessions.get sessionId = none := by
      by_contra hsome
      exact hw.creating (WellKeyed.creating_ne_none hget) (hw.session hsome).2
    exact le_of_eq (occupied_create hnone hget rfl rfl)
  | abandon hget => exact occupied_abandon hget
  | authorize hget => exact le_of_eq (occupied_update hget rfl rfl)
  | touch hget => exact le_of_eq (occupied_update hget rfl rfl)
  | attach hget hstate result => cases result <;> exact le_of_eq (occupied_update hget rfl rfl)
  | close hget => exact occupied_close hget
  | expire hget => exact occupied_close hget
  | drop | exit | proceed | remove | shutDown | pass | report => exact le_rfl

structure Tallied (pendingCount : Int) (pendingVisitors pendingIps : OrderedMap JsString Int)
    (creating : OrderedMap JsString Creation) : Prop where
  count : pendingCount = size creating
  visitors : Tallies pendingVisitors creating fun creation => creation.request.visitorId
  ips : Tallies pendingIps creating fun creation => creation.request.clientIp

namespace Tallied

variable {pendingCount : Int} {pendingVisitors pendingIps : OrderedMap JsString Int}
  {creating : OrderedMap JsString Creation} {id : JsString} {creation creation' : Creation}

theorem reserve (h : Tallied pendingCount pendingVisitors pendingIps creating)
    (hnew : creating.get id = none) (creation : Creation) :
    Tallied (pendingCount + 1) (incrementCount pendingVisitors creation.request.visitorId)
      (incrementCount pendingIps creation.request.clientIp) (creating.set id creation) where
  count := by rw [h.count, size, size, countWhere_set_new hnew, if_pos rfl]
  visitors := h.visitors.increment hnew creation
  ips := h.ips.increment hnew creation

theorem release (h : Tallied pendingCount pendingVisitors pendingIps creating)
    (hget : creating.get id = some creation) :
    Tallied (pendingCount - 1) (decrementCount pendingVisitors creation.request.visitorId)
      (decrementCount pendingIps creation.request.clientIp) (creating.delete id) where
  count := by rw [h.count, size, size, countWhere_delete hget, if_pos rfl]
  visitors := h.visitors.decrement hget
  ips := h.ips.decrement hget

theorem advance (h : Tallied pendingCount pendingVisitors pendingIps creating)
    (hget : creating.get id = some creation) (hrequest : creation'.request = creation.request) :
    Tallied pendingCount pendingVisitors pendingIps (creating.set id creation') where
  count := h.count.trans (countWhere_set_same (v := creation') hget rfl).symm
  visitors := h.visitors.set_same hget (by rw [hrequest])
  ips := h.ips.set_same hget (by rw [hrequest])

end Tallied

def Tally (m : LspSessionManager) : Prop :=
  Tallied m.pendingCount m.pendingVisitors m.pendingIps m.creating

theorem Tally.step (h : m.Tally) (hs : Change.Step o m c m') : m'.Tally := by
  cases hs with
  | @reserve sessionId request _ hfresh hreserve =>
    obtain ⟨-, -, -, -, rfl⟩ := reserve_ok hreserve
    exact Tallied.reserve h (not_created_of_isFresh hfresh).1 ⟨sessionId, request, .mkdir⟩
  | mkdir hget | write hget | fail hget => exact Tallied.advance h hget rfl
  | create hget => exact Tallied.release h hget
  | abandon hget => exact Tallied.release h hget
  | attach hget hstate result => cases result <;> exact h
  | authorize | touch | close | expire | drop | exit | proceed | remove | shutDown | pass | report =>
    exact h

theorem tally (h : ReachableWhen (changeSystem o now) D m) : m.Tally :=
  h.invariant
    ⟨rfl, fun _ => (if_pos rfl).symm, fun _ => (if_pos rfl).symm⟩ fun _ ih _ hs => ih.step hs

structure Limited (o : SessionManagerOptions) (m : LspSessionManager) : Prop where
  global : occupied m.sessions m.creating (fun _ _ => true) ≤ o.maxSessions
  visitor : ∀ visitorId,
    occupied m.sessions m.creating (fun v _ => v = visitorId) ≤ o.maxSessionsPerVisitor
  ip : ∀ clientIp, occupied m.sessions m.creating (fun _ i => i = clientIp) ≤ o.maxSessionsPerIp

theorem le_of_taken {n limit : Int} {taken : Bool} (h : n ≤ limit) (hroom : taken → n < limit) :
    n + (if taken then 1 else 0) ≤ limit := by
  cases taken with
  | false => simpa using h
  | true => exact Int.add_one_le_of_lt (hroom rfl)

theorem Limited.reserve (h : m.Limited o) (ht : m.Tally) {sessionId : JsString}
    {request : InternalCreateLspSessionRequest} (hfresh : m.isFresh sessionId = true)
    (hreserve : m.reserve o request.visitorId request.clientIp = .ok m') :
    Limited o { m' with creating := m.creating.set sessionId ⟨sessionId, request, .mkdir⟩ } := by
  obtain ⟨-, hglobal, hvisitor, hip, rfl⟩ := reserve_ok hreserve
  rw [ht.count] at hglobal
  rw [ht.visitors.getD] at hvisitor
  rw [ht.ips.getD] at hip
  have htakes := occupied_reserve m.sessions (not_created_of_isFresh hfresh).1
    ⟨sessionId, request, .mkdir⟩
  constructor
  · exact (htakes _).trans_le (le_of_taken h.global fun _ => hglobal)
  · refine fun visitorId => (htakes _).trans_le (le_of_taken (h.visitor visitorId) fun htaken => ?_)
    obtain rfl := of_decide_eq_true htaken
    exact hvisitor
  · refine fun clientIp => (htakes _).trans_le (le_of_taken (h.ip clientIp) fun htaken => ?_)
    obtain rfl := of_decide_eq_true htaken
    exact hip

theorem Limited.step (h : m.Limited o) (hw : m.WellKeyed) (ht : m.Tally)
    (hs : Change.Step o m c m') : m'.Limited o := by
  by_cases hreserve : ∃ sessionId request, c = .reserve sessionId request
  · obtain ⟨sessionId, request, rfl⟩ := hreserve
    cases hs with | reserve hfresh hreserve => exact h.reserve ht hfresh hreserve
  · have hshrinks := occupied_step hw hs fun sessionId request heq =>
      hreserve ⟨sessionId, request, heq⟩
    exact ⟨(hshrinks _).trans h.global, fun v => (hshrinks _).trans (h.visitor v),
      fun i => (hshrinks _).trans (h.ip i)⟩

theorem limited (h : ReachableWhen (changeSystem o now) D m) : m.Limited o := by
  refine h.invariant ⟨?_, fun _ => ?_, fun _ => ?_⟩ fun hr ih _ hs => ih.step (wellKeyed hr) (tally hr) hs
  · exact Int.natCast_nonneg _
  · exact Int.natCast_nonneg _
  · exact Int.natCast_nonneg _

theorem session_limits_hold {m : LspSessionManager} (h : Reachable (managerSystem o now) m) :
    size m.sessions + m.pendingCount ≤ o.maxSessions ∧
    (∀ visitorId, countWhere m.sessions (fun session => session.visitorId = visitorId) +
      (m.pendingVisitors.get visitorId).getD 0 ≤ o.maxSessionsPerVisitor) ∧
    (∀ clientIp, countWhere m.sessions (fun session => session.clientIp = clientIp) +
      (m.pendingIps.get clientIp).getD 0 ≤ o.maxSessionsPerIp) ∧
    m.pendingCount = size m.creating ∧
    Tallies m.pendingVisitors m.creating (fun creation => creation.request.visitorId) ∧
    Tallies m.pendingIps m.creating (fun creation => creation.request.clientIp) ∧
    (∀ key n, m.pendingVisitors.get key = some n ∨ m.pendingIps.get key = some n → 0 < n) := by
  have hchanges := reachable_changes h
  have ht := tally hchanges
  have hl := limited hchanges
  refine ⟨?_, fun visitorId => ?_, fun clientIp => ?_, ht.count, ht.visitors, ht.ips, ?_⟩
  · rw [ht.count]
    exact hl.global
  · rw [ht.visitors.getD]
    exact hl.visitor visitorId
  · rw [ht.ips.getD]
    exact hl.ip clientIp
  · rintro key n (hget | hget)
    · exact ht.visitors.pos hget
    · exact ht.ips.pos hget

/-- One session exists while another one is created. -/
theorem limits_hold_during_a_creation : ∃ m : LspSessionManager,
    size m.sessions = 1 ∧ m.pendingCount = 1 ∧ size m.sessions + m.pendingCount ≤ (8 : Nat) := by
  let o : SessionManagerOptions :=
    { ticketService := Sample.ticketService }
  obtain ⟨m, hr, hp⟩ := reachable_of_execute (f := step o) (i := .new 0)
    [.createSession ⟨[], js "v1", js "ip"⟩ (js "s1"), .createSession ⟨[], js "v2", js "ip"⟩ (js "s2"),
      .creationSettles (js "s1") true [], .creationSettles (js "s1") true (js "n")]
    (p := fun m => size m.sessions = 1 && m.pendingCount = 1) (by decide +kernel)
  simp only [Bool.and_eq_true, decide_eq_true_eq] at hp
  exact ⟨m, hp.1, hp.2, (session_limits_hold hr).1⟩

end LspSessionManager

end SmartC.Lsp
