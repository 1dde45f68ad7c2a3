import Strix.Foundation.History
import Mathlib.Algebra.Order.BigOperators.Group.Finset
import Mathlib.Algebra.Order.Group.Multiset
import Mathlib.Tactic.Abel

/-! # A bounded channel with many senders and several receivers

A sender appends while there is room, a receiver takes the first item and holds it
until it has finished with it. In every interleaving the items leave in the order in
which they came, and each one is in exactly one place: finished, held or buffered.
-/
namespace BoundedChannel
open RunHistory

structure Channel (κ α : Type*) where
  buffer : List α
  held : κ → Option α

inductive Act (κ α : Type*)
  | send (x : α)
  | take (k : κ) (x : α)
  | finish (k : κ) (x : α)

variable {κ α : Type*}

section Acts

def Act.sent : Act κ α → Option α
  | .send x => some x
  | _ => none

def Act.taken : Act κ α → Option α
  | .take _ x => some x
  | _ => none

def Act.finished : Act κ α → Option α
  | .finish _ x => some x
  | _ => none

def sent (acts : List (Act κ α)) : List α := acts.filterMap Act.sent

def taken (acts : List (Act κ α)) : List α := acts.filterMap Act.taken

def finished (acts : List (Act κ α)) : List α := acts.filterMap Act.finished

theorem filterMap_snoc {τ : Type*} (f : τ → Option α) (es : List τ) (e : τ) :
    (es ++ [e]).filterMap f = es.filterMap f ++ (f e).toList := by
  rw [List.filterMap_append]
  cases h : f e <;> simp [h]

variable (acts : List (Act κ α)) (act : Act κ α)

theorem sent_append (acts acts' : List (Act κ α)) :
    sent (acts ++ acts') = sent acts ++ sent acts' := List.filterMap_append

@[simp] theorem sent_snoc : sent (acts ++ [act]) = sent acts ++ act.sent.toList :=
  filterMap_snoc ..

@[simp] theorem taken_snoc : taken (acts ++ [act]) = taken acts ++ act.taken.toList :=
  filterMap_snoc ..

@[simp] theorem finished_snoc :
    finished (acts ++ [act]) = finished acts ++ act.finished.toList := filterMap_snoc ..

variable [DecidableEq κ] (k : κ)

def Act.takenBy : Act κ α → Option α
  | .take j x => if j = k then some x else none
  | _ => none

def Act.finishedBy : Act κ α → Option α
  | .finish j x => if j = k then some x else none
  | _ => none

def takenBy : List α := acts.filterMap (Act.takenBy k)

def finishedBy : List α := acts.filterMap (Act.finishedBy k)

@[simp] theorem takenBy_snoc :
    takenBy (acts ++ [act]) k = takenBy acts k ++ (act.takenBy k).toList := filterMap_snoc ..

@[simp] theorem finishedBy_snoc :
    finishedBy (acts ++ [act]) k = finishedBy acts k ++ (act.finishedBy k).toList :=
  filterMap_snoc ..

end Acts

def Channel.empty : Channel κ α := ⟨[],fun _ => none⟩

variable [DecidableEq κ]

inductive Step (cap : ℕ) : Channel κ α → Act κ α → Channel κ α → Prop
  | send {c : Channel κ α} {x : α} (room : c.buffer.length < cap) :
    Step cap c (.send x) ⟨c.buffer ++ [x],c.held⟩
  | take {c : Channel κ α} {k : κ} {x : α} {rest : List α} (free : c.held k = none)
    (first : c.buffer = x :: rest) :
    Step cap c (.take k x) ⟨rest,Function.update c.held k (some x)⟩
  | finish {c : Channel κ α} {k : κ} {x : α} (holds : c.held k = some x) :
    Step cap c (.finish k x) ⟨c.buffer,Function.update c.held k none⟩

/-- What holds of a channel behind a list of actions. -/
structure Channel.Accounts (cap : ℕ) (acts : List (Act κ α)) (c : Channel κ α) : Prop where
  order : sent acts = taken acts ++ c.buffer
  room : c.buffer.length ≤ cap
  receiver : ∀ k, takenBy acts k = finishedBy acts k ++ (c.held k).toList

theorem Channel.accounts_empty (cap : ℕ) : (Channel.empty : Channel κ α).Accounts cap [] where
  order := rfl
  room := Nat.zero_le cap
  receiver _ := rfl

theorem Channel.Accounts.step {cap : ℕ} {acts : List (Act κ α)} {c c' : Channel κ α}
    {act : Act κ α} (h : c.Accounts cap acts) (hstep : Step cap c act c') :
    c'.Accounts cap (acts ++ [act]) := by
  obtain ⟨horder,hroom,hreceiver⟩ := h
  cases hstep with
  | send room =>
    exact ⟨by simp [horder, Act.sent, Act.taken],by simpa using Nat.succ_le_of_lt room,
      fun j => by simp [hreceiver, Act.takenBy, Act.finishedBy]⟩
  | @take k x rest free first =>
    rw [first] at horder hroom
    refine ⟨by simp [horder, Act.sent, Act.taken],(Nat.le_succ _).trans hroom,fun j => ?_⟩
    by_cases hkj : k = j
    · subst hkj
      simp [hreceiver, free, Act.takenBy, Act.finishedBy]
    · simp [hreceiver, Act.takenBy, Act.finishedBy, hkj, Function.update_of_ne (Ne.symm hkj)]
  | @finish k x holds =>
    refine ⟨by simp [horder, Act.sent, Act.taken],hroom,fun j => ?_⟩
    by_cases hkj : k = j
    · subst hkj
      simp [hreceiver, holds, Act.takenBy, Act.finishedBy]
    · simp [hreceiver, Act.takenBy, Act.finishedBy, hkj, Function.update_of_ne (Ne.symm hkj)]

section Places
variable [Fintype κ]

def Channel.heldItems (c : Channel κ α) : Multiset α := ∑ k, ((c.held k).toList : Multiset α)

theorem Channel.heldItems_update (c : Channel κ α) (b : List α) (k : κ) (o : Option α) :
    (⟨b,Function.update c.held k o⟩ : Channel κ α).heldItems + ((c.held k).toList : Multiset α) =
      c.heldItems + (o.toList : Multiset α) := by
  unfold heldItems
  rw [← Finset.add_sum_erase _ _ (Finset.mem_univ k),
    ← Finset.add_sum_erase (f := fun k => ((c.held k).toList : Multiset α)) _ (Finset.mem_univ k)]
  have hothers : ∑ j ∈ Finset.univ.erase k, ((Function.update c.held k o j).toList : Multiset α) =
      ∑ j ∈ Finset.univ.erase k, ((c.held j).toList : Multiset α) :=
    Finset.sum_congr rfl fun j hj => by
      rw [Function.update_of_ne (Finset.ne_of_mem_erase hj)]
  simp only [Function.update_self, hothers]
  abel

/-- Each accepted item is in one place: finished, held or buffered. -/
def Channel.Conserves (acts : List (Act κ α)) (c : Channel κ α) : Prop :=
  (sent acts : Multiset α) = finished acts + c.heldItems + c.buffer

omit [DecidableEq κ] in
theorem Channel.conserves_empty : (Channel.empty : Channel κ α).Conserves [] := by
  simp [Channel.Conserves, Channel.empty, sent, finished, heldItems]

theorem Channel.Conserves.step {cap : ℕ} {acts : List (Act κ α)} {c c' : Channel κ α}
    {act : Act κ α} (h : c.Conserves acts) (hstep : Step cap c act c') :
    c'.Conserves (acts ++ [act]) := by
  unfold Channel.Conserves at h ⊢
  rw [sent_snoc, finished_snoc, ← Multiset.coe_add, ← Multiset.coe_add, h]
  cases hstep with
  | @send x room =>
    have hheld : (⟨c.buffer ++ [x],c.held⟩ : Channel κ α).heldItems = c.heldItems := rfl
    simp only [hheld, Act.sent, Act.finished, Option.toList_some, Option.toList_none,
      ← Multiset.coe_add, Multiset.coe_nil]
    abel
  | @take k x rest free first =>
    have hheld := c.heldItems_update rest k (some x)
    rw [free] at hheld
    simp only [Option.toList_none, Option.toList_some, Multiset.coe_nil, add_zero] at hheld
    rw [first, hheld, ← List.singleton_append, ← Multiset.coe_add]
    simp only [Act.sent, Act.finished, Option.toList_none, Multiset.coe_nil]
    abel
  | @finish k x holds =>
    have hheld := c.heldItems_update c.buffer k none
    rw [holds] at hheld
    simp only [Option.toList_none, Option.toList_some, Multiset.coe_nil, add_zero] at hheld
    rw [← hheld]
    simp only [Act.sent, Act.finished, Option.toList_some, Option.toList_none, Multiset.coe_nil]
    abel

/-- How many steps the receivers need for what is left. -/
def Channel.left (c : Channel κ α) : ℕ := 2 * c.buffer.length + c.heldItems.card

theorem Step.left_take {cap : ℕ} {c c' : Channel κ α} {k : κ} {x : α}
    (h : Step cap c (.take k x) c') : c'.left + 1 = c.left := by
  cases h with
  | @take _ _ rest free first =>
    have hheld := congrArg Multiset.card (c.heldItems_update rest k (some x))
    rw [free] at hheld
    simp only [Option.toList_none, Option.toList_some, Multiset.coe_nil, add_zero,
      Multiset.card_add, Multiset.coe_card, List.length_singleton] at hheld
    simp only [Channel.left, first, List.length_cons]
    omega

theorem Step.left_finish {cap : ℕ} {c c' : Channel κ α} {k : κ} {x : α}
    (h : Step cap c (.finish k x) c') : c'.left + 1 = c.left := by
  cases h with
  | finish holds =>
    have hheld := congrArg Multiset.card (c.heldItems_update c.buffer k none)
    rw [holds] at hheld
    simp only [Option.toList_none, Option.toList_some, Multiset.coe_nil, add_zero,
      Multiset.card_add, Multiset.coe_card, List.length_singleton] at hheld
    simp only [Channel.left]
    omega

omit [DecidableEq κ] in
theorem Channel.heldItems_eq_zero {c : Channel κ α} :
    c.heldItems = 0 ↔ ∀ k, c.held k = none := by
  simp [Channel.heldItems, Finset.sum_eq_zero_iff]

omit [DecidableEq κ] in
theorem Channel.card_heldItems_le (c : Channel κ α) : c.heldItems.card ≤ Fintype.card κ := by
  rw [Channel.heldItems, Multiset.card_sum]
  refine (Finset.sum_le_card_nsmul _ _ 1 fun k _ => ?_).trans (by simp)
  cases c.held k <;> simp

omit [DecidableEq κ] in
theorem Channel.left_eq_zero {c : Channel κ α} :
    c.left = 0 ↔ c.buffer = [] ∧ ∀ k, c.held k = none := by
  simp [Channel.left, Channel.heldItems_eq_zero]

end Places

abbrev ChannelRun (cap : ℕ) (es : List (Transition (Channel κ α) (Act κ α)))
    (c : Channel κ α) : Prop := Run (Step cap) Channel.empty es c

section Runs
variable {cap : ℕ} {es : List (Transition (Channel κ α) (Act κ α))} {c : Channel κ α}

/-- The items leave in the order in which they came, and each receiver finishes those
it has taken, in its own order. -/
theorem ChannelRun.accounts (h : ChannelRun cap es c) :
    c.Accounts cap (es.map fun τ => τ.act) := by
  refine h.historyInvariant (I := fun es u => u.Accounts cap (es.map fun τ => τ.act))
    (P := fun _ => True) ?_ (fun _ _ => trivial) (Channel.accounts_empty cap)
  intro es τ hstep _ ih
  rw [List.map_append]
  exact ih.step hstep

/-- No item is lost or doubled. -/
theorem ChannelRun.conserves [Fintype κ] (h : ChannelRun cap es c) :
    c.Conserves (es.map fun τ => τ.act) := by
  refine h.historyInvariant (I := fun es u => u.Conserves (es.map fun τ => τ.act))
    (P := fun _ => True) ?_ (fun _ _ => trivial) Channel.conserves_empty
  intro es τ hstep _ ih
  rw [List.map_append]
  exact ih.step hstep

end Runs

end BoundedChannel
