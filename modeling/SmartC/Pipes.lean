import Mathlib.Algebra.Order.BigOperators.Group.Finset
import Mathlib.Data.Fintype.Basic
import Mathlib.Data.Fintype.BigOperators
import Mathlib.Data.List.Basic

/-!
# Readers that feed one channel

Each reader reads blocks from a source of its own and puts them into a bounded
channel that all of them share. A last item tells how its source ended, and the
reader is gone after it. What is received of one reader is what it has read, in
order, up to some point; after its last item it is everything.
-/

namespace SmartC

inductive Item (β ε : Type)
  | block (b : β)
  | last (e : ε)
  deriving DecidableEq

def Item.block? {β ε : Type} : Item β ε → Option β
  | .block b => some b
  | .last _ => none

def Item.isLast {β ε : Type} : Item β ε → Bool
  | .block _ => false
  | .last _ => true

/-- A reader waits for its source, or for room in the channel, or is gone. -/
inductive ReaderAt (β ε : Type)
  | reading
  | sending (item : Item β ε)
  | gone
  deriving DecidableEq

def ReaderAt.isGone {β ε : Type} : ReaderAt β ε → Bool
  | .gone => true
  | _ => false

/-- `blocks` is everything the reader has read so far. -/
structure Reader (β ε : Type) where
  blocks : List β
  at_ : ReaderAt β ε
  deriving DecidableEq

inductive ReaderAct (β ε : Type)
  | read (b : β)
  | stop (e : ε)
  | put

structure Pipes (ι β ε : Type) where
  reader : ι → Reader β ε
  queue : List (ι × Item β ε)
  received : List (ι × Item β ε)
  closed : Bool

namespace Pipes

variable {ι β ε : Type} [DecidableEq ι]

def new : Pipes ι β ε := ⟨fun _ => ⟨[], .reading⟩, [], [], false⟩

def setReader (p : Pipes ι β ε) (i : ι) (r : Reader β ε) : Pipes ι β ε :=
  { p with reader := Function.update p.reader i r }

def afterPut : Item β ε → ReaderAt β ε
  | .block _ => .reading
  | .last _ => .gone

/-- A step of reader `i`. When the receiver is gone, so is the reader at its next item. -/
def act (capacity : Nat) (p : Pipes ι β ε) (i : ι) : ReaderAct β ε → Option (Pipes ι β ε)
  | .read b =>
    match (p.reader i).at_ with
    | .reading => some (p.setReader i ⟨(p.reader i).blocks ++ [b], .sending (.block b)⟩)
    | _ => none
  | .stop e =>
    match (p.reader i).at_ with
    | .reading => some (p.setReader i ⟨(p.reader i).blocks, .sending (.last e)⟩)
    | _ => none
  | .put =>
    match (p.reader i).at_ with
    | .sending item =>
      if p.closed then some (p.setReader i ⟨(p.reader i).blocks, .gone⟩)
      else if p.queue.length < capacity then
        some { p.setReader i ⟨(p.reader i).blocks, afterPut item⟩ with
          queue := p.queue ++ [(i, item)] }
      else none
    | _ => none

/-- The oldest item, or `none` when the channel is empty and all readers are gone. -/
def receive [Fintype ι] (p : Pipes ι β ε) : Option (Option (ι × Item β ε) × Pipes ι β ε) :=
  match p.queue with
  | x :: rest => some (some x, { p with queue := rest, received := p.received ++ [x] })
  | [] => if ∀ i, (p.reader i).at_.isGone = true then some (none, p) else none

/-- The receiver is dropped, with what is still in the channel. -/
def close (p : Pipes ι β ε) : Pipes ι β ε := { p with queue := [], closed := true }

/-! ### The items of one reader -/

def ofReader {α : Type} (i : ι) (l : List (ι × α)) : List α :=
  (l.filter fun x => x.1 = i).map Prod.snd

def blocks (l : List (ι × Item β ε)) : List (ι × β) :=
  l.filterMap fun x => x.2.block?.map fun b => (x.1, b)

def lasts (l : List (ι × Item β ε)) : Nat := l.countP fun x => x.2.isLast

section

variable {α : Type} {i j : ι} {l m : List (ι × α)} {a : α}

@[simp] theorem ofReader_nil : ofReader i ([] : List (ι × α)) = [] := rfl

@[simp] theorem ofReader_append : ofReader i (l ++ m) = ofReader i l ++ ofReader i m := by
  simp [ofReader]

theorem ofReader_cons : ofReader i ((j, a) :: l) = if j = i then a :: ofReader i l else ofReader i l := by
  by_cases hji : j = i <;> simp [ofReader, hji]

theorem ofReader_prefix (h : l <+: m) : ofReader i l <+: ofReader i m := by
  obtain ⟨rest, rfl⟩ := h
  exact ⟨ofReader i rest, ofReader_append.symm⟩

end

section

variable {l : List (ι × Item β ε)} {i : ι}

theorem ofReader_blocks : ofReader i (blocks l) = (ofReader i l).filterMap Item.block? := by
  induction l with
  | nil => rfl
  | cons x l ih =>
    obtain ⟨j, item⟩ := x
    cases item with
    | block b =>
      have hcons : blocks ((j, Item.block (ε := ε) b) :: l) = (j, b) :: blocks l := rfl
      rw [hcons, ofReader_cons, ofReader_cons, ih]
      split <;> rfl
    | last e =>
      have hcons : blocks ((j, Item.last (β := β) e) :: l) = blocks l := rfl
      rw [hcons, ofReader_cons, ih]
      split <;> rfl

theorem lasts_eq_sum [Fintype ι] : lasts l = ∑ i, (ofReader i l).countP Item.isLast := by
  induction l with
  | nil => simp [lasts]
  | cons x l ih =>
    obtain ⟨j, item⟩ := x
    have hcount : ∀ i, (ofReader i ((j, item) :: l)).countP Item.isLast =
        (ofReader i l).countP Item.isLast + if j = i then (if item.isLast then 1 else 0) else 0 := by
      intro i
      rw [ofReader_cons]
      split
      · rw [List.countP_cons]
      · rw [Nat.add_zero]
    have hlasts : lasts ((j, item) :: l) = lasts l + if item.isLast then 1 else 0 :=
      List.countP_cons
    rw [hlasts, ih]
    simp only [hcount, Finset.sum_add_distrib, Finset.sum_ite_eq, Finset.mem_univ, if_true]

end

/-! ### The invariant -/

inductive Sends : Reader β ε → List (Item β ε) → Prop
  | reading {bs : List β} : Sends ⟨bs, .reading⟩ (bs.map .block)
  | block {bs : List β} {b : β} : Sends ⟨bs ++ [b], .sending (.block b)⟩ (bs.map .block)
  | last {bs : List β} {e : ε} : Sends ⟨bs, .sending (.last e)⟩ (bs.map .block)
  | gone {bs : List β} {e : ε} : Sends ⟨bs, .gone⟩ (bs.map .block ++ [.last e])

/-- What is received of a reader: some of what it has read, or with a last item all of it. -/
structure Seen (r : Reader β ε) (l : List (Item β ε)) : Prop where
  some : l.filterMap Item.block? <+: r.blocks
  all : ∀ e, .last e ∈ l → l = r.blocks.map .block ++ [.last e] ∧ r.at_ = .gone
  once : l.countP Item.isLast ≤ 1

structure Sound (p : Pipes ι β ε) : Prop where
  flow : p.closed = false → ∀ i, Sends (p.reader i) (ofReader i (p.received ++ p.queue))
  seen : ∀ i, Seen (p.reader i) (ofReader i p.received)

section

variable {r : Reader β ε} {l m : List (Item β ε)} {bs : List β}

theorem filterMap_block : (bs.map (Item.block (ε := ε))).filterMap Item.block? = bs := by
  rw [List.filterMap_map]
  exact List.filterMap_some

theorem filterMap_block_last {e : ε} :
    (bs.map Item.block ++ [Item.last e]).filterMap Item.block? = bs := by
  rw [List.filterMap_append, filterMap_block]
  exact List.append_nil bs

theorem last_notMem_block {e : ε} : Item.last e ∉ bs.map Item.block := by
  simp

theorem countP_block : (bs.map (Item.block (ε := ε))).countP Item.isLast = 0 := by
  simp [List.countP_eq_zero, Item.isLast]

theorem Seen.of_blocks (h : l <+: bs.map .block) (hbs : bs <+: r.blocks) : Seen r l where
  some := by
    have hprefix := h.filterMap Item.block?
    rw [filterMap_block] at hprefix
    exact hprefix.trans hbs
  all _ he := absurd (h.subset he) last_notMem_block
  once := by
    have hle := h.sublist.countP_le (p := Item.isLast)
    rw [countP_block] at hle
    omega

theorem Sends.seen (h : Sends r (l ++ m)) : Seen r l := by
  have hprefix : l <+: l ++ m := List.prefix_append l m
  generalize l ++ m = sent at h hprefix
  cases h with
  | reading => exact .of_blocks hprefix (List.prefix_refl _)
  | block => exact .of_blocks hprefix (List.prefix_append _ _)
  | last => exact .of_blocks hprefix (List.prefix_refl _)
  | @gone bs e =>
    obtain rfl | hblocks := List.prefix_concat_iff.1 hprefix
    · refine ⟨?_, fun e' he' => ⟨?_, rfl⟩, ?_⟩
      · rw [filterMap_block_last]
      · rw [List.mem_append, List.mem_singleton] at he'
        rw [he'.resolve_left last_notMem_block]
      · rw [List.countP_append, countP_block]
        exact Nat.le_refl 1
    · exact .of_blocks hblocks (List.prefix_refl _)

end

theorem Sound.new : Sound (new : Pipes ι β ε) where
  flow _ _ := @Sends.reading β ε []
  seen _ := by
    have hsends : Sends ⟨[], .reading⟩ ([] ++ [] : List (Item β ε)) := @Sends.reading β ε []
    exact hsends.seen

section

variable {p p' : Pipes ι β ε} {i : ι} {capacity : Nat} {r : Reader β ε}

theorem Sound.setReader (h : Sound p)
    (hflow : p.closed = false → ∀ l, Sends (p.reader i) l → Sends r l)
    (hseen : ∀ l, Seen (p.reader i) l → Seen r l) : Sound (p.setReader i r) where
  flow hopen j := by
    by_cases hj : j = i
    · subst hj
      simpa [Pipes.setReader] using hflow hopen _ (h.flow hopen j)
    · simpa [Pipes.setReader, hj] using h.flow hopen j
  seen j := by
    by_cases hj : j = i
    · subst hj
      simpa [Pipes.setReader] using hseen _ (h.seen j)
    · simpa [Pipes.setReader, hj] using h.seen j

theorem Seen.move {l : List (Item β ε)} {r' : Reader β ε} (h : Seen r l) (hat : r.at_ ≠ .gone)
    (hblocks : r.blocks <+: r'.blocks) : Seen r' l where
  some := h.some.trans hblocks
  all e hlast := absurd (h.all e hlast).2 hat
  once := h.once

theorem Sends.put {bs : List β} {item : Item β ε} {l : List (Item β ε)}
    (h : Sends ⟨bs, .sending item⟩ l) : Sends ⟨bs, afterPut item⟩ (l ++ [item]) := by
  cases h with
  | @block bs b =>
    have hreading : Sends (ε := ε) ⟨bs ++ [b], .reading⟩ ((bs ++ [b]).map .block) := .reading
    rwa [List.map_append] at hreading
  | last => exact .gone

theorem Sound.put {bs : List β} {item : Item β ε} (h : Sound p)
    (hr : p.reader i = ⟨bs, .sending item⟩) :
    Sound { p.setReader i ⟨bs, afterPut item⟩ with queue := p.queue ++ [(i, item)] } where
  flow hopen j := by
    have hflow := h.flow hopen j
    show Sends (Function.update p.reader i ⟨bs, afterPut item⟩ j)
      (ofReader j (p.received ++ (p.queue ++ [(i, item)])))
    rw [← List.append_assoc, ofReader_append, ofReader_cons]
    by_cases hj : j = i
    · subst hj
      rw [Function.update_self, if_pos rfl]
      exact (hr ▸ hflow).put
    · rw [Function.update_of_ne hj, if_neg (Ne.symm hj), ofReader_nil, List.append_nil]
      exact hflow
  seen j := by
    have hseen := h.seen j
    show Seen (Function.update p.reader i ⟨bs, afterPut item⟩ j) (ofReader j p.received)
    by_cases hj : j = i
    · subst hj
      rw [Function.update_self]
      rw [hr] at hseen
      exact hseen.move nofun (List.prefix_refl _)
    · rwa [Function.update_of_ne hj]

theorem Sound.act {a : ReaderAct β ε} (h : Sound p) (ha : p.act capacity i a = some p') :
    Sound p' := by
  cases hr : p.reader i with
  | mk bs at_ => ?_
  cases a with
  | read b =>
    simp only [Pipes.act, hr] at ha
    split at ha <;> cases ha
    refine h.setReader (fun _ l hl => ?_) fun l hl => ?_
    · rw [hr] at hl
      cases hl
      exact .block
    · rw [hr] at hl
      exact hl.move nofun (List.prefix_append _ _)
  | stop e =>
    simp only [Pipes.act, hr] at ha
    split at ha <;> cases ha
    refine h.setReader (fun _ l hl => ?_) fun l hl => ?_
    · rw [hr] at hl
      cases hl
      exact .last
    · rw [hr] at hl
      exact hl.move nofun (List.prefix_refl _)
  | put =>
    simp only [Pipes.act, hr] at ha
    split at ha
    · split at ha
      · next hclosed =>
        cases ha
        refine h.setReader (fun hopen => ?_) fun l hl => ?_
        · rw [hclosed] at hopen
          cases hopen
        · rw [hr] at hl
          exact hl.move nofun (List.prefix_refl _)
      · split at ha <;> cases ha
        exact h.put hr
    · cases ha

theorem received_act {a : ReaderAct β ε} (ha : p.act capacity i a = some p') :
    p'.received = p.received ∧ p'.closed = p.closed := by
  cases a <;> simp only [Pipes.act] at ha <;> repeat' split at ha
  all_goals cases ha
  all_goals exact ⟨rfl, rfl⟩

theorem Sound.close (h : Sound p) : Sound p.close where
  flow := nofun
  seen := h.seen

/-! ### What was received -/

theorem Sound.prefix_read (h : Sound p) (i : ι) :
    ofReader i (blocks p.received) <+: (p.reader i).blocks := by
  rw [ofReader_blocks]
  exact (h.seen i).some

theorem mem_ofReader {α : Type} {l : List (ι × α)} {a : α} : a ∈ ofReader i l ↔ (i, a) ∈ l := by
  simp [ofReader]

/-- After the last item of a reader. -/
theorem Sound.all_of_last (h : Sound p) {e : ε} (hlast : (i, .last e) ∈ p.received) :
    ofReader i (blocks p.received) = (p.reader i).blocks := by
  obtain ⟨hall, -⟩ := (h.seen i).all e (mem_ofReader.2 hlast)
  rw [ofReader_blocks, hall, filterMap_block_last]

theorem Sound.last_notMem (h : Sound p) {l : List (ι × Item β ε)} {b : β} {e : ε}
    (hreceived : p.received = l ++ [(i, .block b)]) : (i, .last e) ∉ p.received := by
  intro hlast
  obtain ⟨hall, -⟩ := (h.seen i).all e (mem_ofReader.2 hlast)
  rw [hreceived, ofReader_append, ofReader_cons, if_pos rfl] at hall
  cases (List.append_inj' hall rfl).2

theorem Sound.last_of_drained (h : Sound p) (hopen : p.closed = false) (hqueue : p.queue = [])
    (hgone : (p.reader i).at_.isGone = true) : ∃ e, (i, .last e) ∈ p.received := by
  have hflow := h.flow hopen i
  rw [hqueue, List.append_nil] at hflow
  simp only [← mem_ofReader]
  generalize p.reader i = r at hflow hgone
  generalize ofReader i p.received = l at hflow
  cases hflow with
  | @gone bs e => exact ⟨e, by simp⟩
  | _ => cases hgone

variable [Fintype ι] {item : Option (ι × Item β ε)}

omit [DecidableEq ι] in
theorem receive_cases (h : p.receive = some (item, p')) :
    (∃ x rest, p.queue = x :: rest ∧ item = some x ∧
      p' = { p with queue := rest, received := p.received ++ [x] }) ∨
    p.queue = [] ∧ (∀ i, (p.reader i).at_.isGone = true) ∧ item = none ∧ p' = p := by
  unfold receive at h
  split at h
  · next x rest hqueue =>
    cases h
    exact .inl ⟨x, rest, hqueue, rfl, rfl⟩
  · next hqueue =>
    split at h <;> cases h
    next hgone => exact .inr ⟨hqueue, hgone, rfl, rfl⟩

theorem Sound.receive (h : Sound p) (hopen : p.closed = false) (hr : p.receive = some (item, p')) :
    Sound p' := by
  obtain ⟨x, rest, hqueue, -, rfl⟩ | ⟨-, -, -, rfl⟩ := receive_cases hr
  · have hflow : ∀ i, Sends (p.reader i) (ofReader i (p.received ++ [x] ++ rest)) := by
      intro i
      rw [List.append_assoc, List.singleton_append, ← hqueue]
      exact h.flow hopen i
    refine ⟨fun _ => hflow, fun i => ?_⟩
    have hsends := hflow i
    rw [ofReader_append] at hsends
    exact hsends.seen
  · exact h

/-- As many last items as there are readers are one of each. -/
theorem Sound.last_of_lasts (h : Sound p) (hlasts : Fintype.card ι ≤ lasts p.received) (i : ι) :
    ∃ e, (i, .last e) ∈ p.received := by
  by_contra hnone
  have hzero : (ofReader i p.received).countP Item.isLast = 0 := by
    rw [List.countP_eq_zero]
    intro item hitem hlast
    cases item with
    | block => cases hlast
    | last e => exact hnone ⟨e, mem_ofReader.1 hitem⟩
  have hlt : ∑ j, (ofReader j p.received).countP Item.isLast < ∑ _j : ι, 1 :=
    Finset.sum_lt_sum (fun j _ => (h.seen j).once) ⟨i, Finset.mem_univ i, by omega⟩
  rw [← lasts_eq_sum] at hlt
  simp at hlt
  omega

theorem Sound.lasts_le (h : Sound p) : lasts p.received ≤ Fintype.card ι := by
  rw [lasts_eq_sum]
  calc ∑ i, (ofReader i p.received).countP Item.isLast
      ≤ ∑ _i : ι, 1 := Finset.sum_le_sum fun i _ => (h.seen i).once
    _ = Fintype.card ι := by simp

end

end Pipes

end SmartC
