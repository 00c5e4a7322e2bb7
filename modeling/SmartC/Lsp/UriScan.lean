import SmartC.Lsp.Admission
import SmartC.Traversal

/-!
# The scan for foreign URIs

`hasUnexpectedUri` searches a message with a stack, and refuses it when it is too
large or too deep to be searched. What it lets through has no foreign URI
anywhere, and it lets through everything that is small enough and has none.
-/

namespace SmartC.Lsp

open Traversal (Node)

/-- The values that are put on the stack for a value: every element of an array, but only the
arrays and objects among the members of an object. -/
def Json.nodesBelow : Json → List Json
  | .array elements => elements
  | .object fields => (fields.map Prod.snd).filter Json.isContainer
  | _ => []

mutual

def Json.nodeCount : Json → Nat
  | .array elements => elementCount elements + 1
  | .object fields => memberCount fields + 1
  | _ => 1

def elementCount : List Json → Nat
  | [] => 0
  | element :: elements => element.nodeCount + elementCount elements

def memberCount : List (JsString × Json) → Nat
  | [] => 0
  | (_, child) :: fields => (if child.isContainer then child.nodeCount else 0) + memberCount fields

end

/-- `Occurs v value`: the value `v` is `value` or stands somewhere in it. -/
inductive Json.Occurs : Json → Json → Prop
  | self {v : Json} : Occurs v v
  | element {v child : Json} {elements : List Json} (mem : child ∈ elements)
      (within : Occurs v child) : Occurs v (.array elements)
  | member {v child : Json} {key : JsString} {fields : List (JsString × Json)}
      (mem : (key, child) ∈ fields) (within : Occurs v child) : Occurs v (.object fields)

/-- Every object in a value has only URIs of the session under the names of URIs. -/
def MentionsOnlySessionUris (o : LspJsonRpcGuardOptions) (value : Json) : Prop :=
  ∀ fields, Json.Occurs (.object fields) value → ∀ key uri, (key, .string uri) ∈ fields →
    key ∈ URI_PROPERTY_NAMES → uri = o.workspaceUri ∨ uri ∈ o.documentUris

def Json.holdsUnexpectedUri (o : LspJsonRpcGuardOptions) : Json → Bool
  | .object fields => fields.any (isUnexpectedUri o)
  | _ => false

/-! ### The scan as a search -/

theorem searchUnexpectedUri_eq (o : LspJsonRpcGuardOptions) (nodes : Nat)
    (pending : List (Nat × Json)) :
    searchUnexpectedUri o nodes pending =
      Traversal.search Json.nodesBelow (Json.holdsUnexpectedUri o) MAX_JSON_DEPTH nodes pending := by
  induction nodes generalizing pending with
  | zero => cases pending <;> rfl
  | succ nodes ih =>
    cases pending with
    | nil => rfl
    | cons entry pending =>
      obtain ⟨depth, current⟩ := entry
      cases current <;>
        simp only [searchUnexpectedUri, Traversal.search, ih, Json.nodesBelow,
          Json.holdsUnexpectedUri, Bool.false_eq_true, if_false] <;>
        rfl

theorem elementCount_eq (elements : List Json) :
    elementCount elements = (elements.map Json.nodeCount).sum := by
  induction elements with
  | nil => rfl
  | cons element elements ih => rw [elementCount, ih, List.map_cons, List.sum_cons]

theorem memberCount_eq (fields : List (JsString × Json)) :
    memberCount fields =
      (((fields.map Prod.snd).filter Json.isContainer).map Json.nodeCount).sum := by
  induction fields with
  | nil => rfl
  | cons field fields ih =>
    obtain ⟨key, child⟩ := field
    rw [memberCount, ih, List.map_cons, List.filter_cons]
    split
    · rw [List.map_cons, List.sum_cons]
    · rw [Nat.zero_add]

theorem nodeCount_eq (v : Json) :
    v.nodeCount = (v.nodesBelow.map Json.nodeCount).sum + 1 := by
  cases v with
  | array elements => rw [Json.nodeCount, elementCount_eq, Json.nodesBelow]
  | object fields => rw [Json.nodeCount, memberCount_eq, Json.nodesBelow]
  | _ => rfl

/-! ### What is visited -/

theorem mem_nodesBelow_object {fields : List (JsString × Json)} {child : Json} :
    child ∈ (Json.object fields).nodesBelow ↔
      (∃ key, (key, child) ∈ fields) ∧ child.isContainer = true := by
  rw [Json.nodesBelow, List.mem_filter, List.mem_map]
  simp

theorem occurs_of_node {v w : Json} {d : Nat} (h : Node Json.nodesBelow v d w) :
    Json.Occurs w v := by
  induction h with
  | root => exact .self
  | @child v c w d mem _ ih =>
    cases v with
    | array elements => exact .element mem ih
    | object fields =>
      obtain ⟨⟨key, hmem⟩, _⟩ := mem_nodesBelow_object.1 mem
      exact .member hmem ih
    | _ => cases mem

/-- Every object is visited: a member that holds one is itself an array or an object. -/
theorem node_of_occurs {v : Json} {fields : List (JsString × Json)}
    (h : Json.Occurs (.object fields) v) : ∃ d, Node Json.nodesBelow v d (.object fields) := by
  induction h with
  | self => exact ⟨0, .root⟩
  | element mem _ ih =>
    obtain ⟨d, hnode⟩ := ih
    exact ⟨d + 1, .child mem hnode⟩
  | @member child key members mem within ih =>
    obtain ⟨d, hnode⟩ := ih
    refine ⟨d + 1, .child (mem_nodesBelow_object.2 ⟨⟨key, mem⟩, ?_⟩) hnode⟩
    cases within <;> rfl

variable {o : LspJsonRpcGuardOptions}

theorem isUnexpectedUri_eq_false {field : JsString × Json} :
    isUnexpectedUri o field = false ↔ ∀ uri, field.2 = .string uri →
      field.1 ∈ URI_PROPERTY_NAMES → uri = o.workspaceUri ∨ uri ∈ o.documentUris := by
  obtain ⟨key, child⟩ := field
  cases child with
  | string s =>
    simp only [isUnexpectedUri, Bool.and_eq_false_iff, Json.string.injEq, forall_eq',
      List.contains_eq_mem, decide_eq_false_iff_not, bne_eq_false_iff_eq, Bool.not_eq_false',
      decide_eq_true_eq]
    tauto
  | _ => simp [isUnexpectedUri]

theorem mentionsOnlySessionUris_iff {v : Json} :
    MentionsOnlySessionUris o v ↔
      ∀ d w, Node Json.nodesBelow v d w → w.holdsUnexpectedUri o = false := by
  constructor
  · intro h d w hw
    cases w with
    | object fields =>
      rw [Json.holdsUnexpectedUri, List.any_eq_false]
      intro field hfield
      refine ne_true_of_eq_false (isUnexpectedUri_eq_false.2 fun uri huri hkey => ?_)
      exact h fields (occurs_of_node hw) field.1 uri (huri ▸ hfield) hkey
    | _ => rfl
  · intro h fields hoccurs key uri hmem hkey
    obtain ⟨d, hnode⟩ := node_of_occurs hoccurs
    have hnone := h d _ hnode
    rw [Json.holdsUnexpectedUri, List.any_eq_false] at hnone
    exact isUnexpectedUri_eq_false.1 (eq_false_of_ne_true (hnone _ hmem)) uri rfl hkey

theorem hasUnexpectedUri_eq_false_iff {v : Json} :
    hasUnexpectedUri o v = false ↔
      MentionsOnlySessionUris o v ∧ v.nodeCount ≤ MAX_JSON_NODES ∧
        ∀ d w, Node Json.nodesBelow v d w → d ≤ MAX_JSON_DEPTH := by
  rw [hasUnexpectedUri, searchUnexpectedUri_eq, Traversal.search_eq_false_iff nodeCount_eq,
    mentionsOnlySessionUris_iff]
  simp only [List.map_singleton, List.sum_singleton, List.forall_mem_singleton, Traversal.Clean,
    Nat.zero_add]
  constructor
  · rintro ⟨hcount, hclean⟩
    exact ⟨fun d w hw => (hclean d w hw).2, hcount, fun d w hw => (hclean d w hw).1⟩
  · rintro ⟨hgood, hcount, hdepth⟩
    exact ⟨hcount, fun d w hw => ⟨hdepth d w hw, hgood d w hw⟩⟩

/-! ### The messages -/

variable {g g' : LspJsonRpcGuard} {content : Content}

theorem scanned_of_validateClientContent (h : g.validateClientContent o content = .ok g') :
    ∃ message, content.value = some message ∧ hasUnexpectedUri o message = false := by
  unfold LspJsonRpcGuard.validateClientContent at h
  split at h
  · cases h
  next message hparse =>
  split at h
  · cases h
  split at h
  · cases h
  next hscan =>
  exact ⟨message, value_of_parseJsonObject hparse, eq_false_of_ne_true hscan⟩

theorem scanned_of_validateClientMessage {now : Int}
    (h : (g.validateClientMessage o now content).1 = .ok ()) :
    ∃ message, content.value = some message ∧ hasUnexpectedUri o message = false := by
  obtain ⟨_, _, _, ⟨_, hv⟩ | ⟨_, _, hok⟩⟩ := validateClientMessage_content o now content g
  · rw [hv] at h
    cases h
  · exact scanned_of_validateClientContent hok

theorem scanned_of_validateServerMessage {bufferedAmount : Nat}
    (h : g.validateServerMessage o content bufferedAmount = .ok g') :
    ∃ message, content.value = some message ∧ hasUnexpectedUri o message = false := by
  unfold LspJsonRpcGuard.validateServerMessage at h
  split at h
  · cases h
  split at h
  · cases h
  split at h
  · cases h
  split at h
  · cases h
  next message hparse =>
  split at h
  · cases h
  split at h
  · cases h
  next hscan =>
  exact ⟨message, value_of_parseJsonObject hparse, eq_false_of_ne_true hscan⟩

theorem uri_scan_is_exact (o : LspJsonRpcGuardOptions) :
    (∀ fields, hasUnexpectedUri o (.object fields) = false ↔
      MentionsOnlySessionUris o (.object fields) ∧
      (Json.object fields).nodeCount ≤ MAX_JSON_NODES ∧
      ∀ d w, Node Json.nodesBelow (.object fields) d w → d ≤ MAX_JSON_DEPTH) ∧
    (∀ g now content, (LspJsonRpcGuard.validateClientMessage o now content g).1 = .ok () →
      ∃ message, content.value = some message ∧ MentionsOnlySessionUris o message) ∧
    (∀ g content bufferedAmount g',
      LspJsonRpcGuard.validateServerMessage o content bufferedAmount g = .ok g' →
      ∃ message, content.value = some message ∧ MentionsOnlySessionUris o message) := by
  refine ⟨fun fields => hasUnexpectedUri_eq_false_iff, ?_, ?_⟩
  · intro g now content h
    obtain ⟨message, hvalue, hscan⟩ := scanned_of_validateClientMessage h
    exact ⟨message, hvalue, (hasUnexpectedUri_eq_false_iff.1 hscan).1⟩
  · intro g content bufferedAmount g' h
    obtain ⟨message, hvalue, hscan⟩ := scanned_of_validateServerMessage h
    exact ⟨message, hvalue, (hasUnexpectedUri_eq_false_iff.1 hscan).1⟩

theorem foreign_uri_is_found :
    hasUnexpectedUri Browser.session (Browser.didOpen Browser.mainUri 1 []) = false ∧
    MentionsOnlySessionUris Browser.session (Browser.didOpen Browser.mainUri 1 []) ∧
    ¬ MentionsOnlySessionUris Browser.session (.object [(js "result", .array [.object [
      (js "targetUri", .string (js "file:///etc/passwd"))]])]) := by
  refine ⟨by decide +kernel, (((uri_scan_is_exact Browser.session).1 _).1 (by decide +kernel)).1, ?_⟩
  intro h
  obtain heq | hmem := h _ (.member (.head _) (.element (.head _) .self)) (js "targetUri")
    (js "file:///etc/passwd") (.head _) (by decide)
  · exact absurd heq (by decide)
  · exact absurd hmem (by decide)

end SmartC.Lsp
