import Strix.Foundation.History
import Mathlib.Order.Lattice
import Mathlib.Tactic.Common

/-! # Caches that answer by similarity

A query is scored against the queries its slots stand for. The best of them answers
it if it scores high enough; else the query reserves a free slot, which somebody may
fill later. A reservation lapses with time and a slot may be released at any moment.
What such a cache promises over whole runs is proved for any queries, scores, answers
and clocks.
-/
namespace AnswerCache
open RunHistory

inductive Cell (Q P T : Type*)
  | empty
  | awaited (query : Q) (since : T)
  | answered (query : Q) (payload : P)

inductive Event (Q P T : Type*)
  | hit (query : Q) (now : T) (payload : P)
  | pending (query : Q) (now : T) (n : ℕ)
  | reserve (query : Q) (now : T) (n : ℕ)
  | busy (query : Q) (now : T)
  | accept (n : ℕ) (payload : P)
  | decline (n : ℕ) (payload : P)
  | release (n : ℕ)

/-- How queries are compared and how long a reservation lasts: whether it is still
`fresh` or has `lapsed` depends on the time and on when it was made. -/
structure Setting (Q S T : Type*) where
  size : ℕ
  score : Q → Q → S
  threshold : S
  fresh : T → T → Bool
  lapsed : T → T → Bool
  stale_of_lapsed : ∀ now since, lapsed now since = true → fresh now since = false

section Model
variable {Q P S T : Type*} (c : Setting Q S T)

def Setting.serves (now : T) : Cell Q P T → Option Q
  | .empty => none
  | .awaited query since => if c.fresh now since then some query else none
  | .answered query _ => some query

def Setting.sweepCell (now : T) : Cell Q P T → Cell Q P T
  | .awaited query since => if c.lapsed now since then .empty else .awaited query since
  | cell => cell

def Setting.sweep (now : T) (cells : ℕ → Cell Q P T) (i : ℕ) : Cell Q P T :=
  if i < c.size then c.sweepCell now (cells i) else cells i

def Cell.fill (payload : P) : Cell Q P T → Cell Q P T
  | .awaited query _ => .answered query payload
  | cell => cell

structure Setting.Best [LinearOrder S] (query : Q) (now : T) (cells : ℕ → Cell Q P T) (n : ℕ)
    (v : Q) : Prop where
  lt : n < c.size
  serves : c.serves now (cells n) = some v
  greatest : ∀ i < c.size, ∀ w, c.serves now (cells i) = some w →
    c.score query w ≤ c.score query v
  first : ∀ i < n, ∀ w, c.serves now (cells i) = some w → c.score query w < c.score query v

structure Setting.FirstFree (now : T) (cells : ℕ → Cell Q P T) (n : ℕ) : Prop where
  lt : n < c.size
  free : c.sweepCell now (cells n) = .empty
  first : ∀ i < n, c.sweepCell now (cells i) ≠ .empty

def Setting.Below [LinearOrder S] (query : Q) (now : T) (cells : ℕ → Cell Q P T) : Prop :=
  ∀ i < c.size, ∀ w, c.serves now (cells i) = some w → c.score query w < c.threshold

inductive Setting.Allows [LinearOrder S] (cells : ℕ → Cell Q P T) : Event Q P T → Prop
  | hit {query v : Q} {now : T} {n : ℕ} {payload : P} (best : c.Best query now cells n v)
      (near : c.threshold ≤ c.score query v) (cell : cells n = .answered v payload) :
      Setting.Allows cells (.hit query now payload)
  | pending {query v : Q} {now since : T} {n : ℕ} (best : c.Best query now cells n v)
      (near : c.threshold ≤ c.score query v) (cell : cells n = .awaited v since) :
      Setting.Allows cells (.pending query now n)
  | reserve {query : Q} {now : T} {n : ℕ} (below : c.Below query now cells)
      (free : c.FirstFree now cells n) : Setting.Allows cells (.reserve query now n)
  | busy {query : Q} {now : T} (below : c.Below query now cells)
      (full : ∀ i < c.size, c.sweepCell now (cells i) ≠ .empty) :
      Setting.Allows cells (.busy query now)
  | accept {n : ℕ} {query : Q} {since : T} {payload : P} (cell : cells n = .awaited query since) :
      Setting.Allows cells (.accept n payload)
  | decline {n : ℕ} {payload : P} (cell : ∀ query since, cells n ≠ .awaited query since) :
      Setting.Allows cells (.decline n payload)
  | release {n : ℕ} (cell : cells n ≠ .empty) : Setting.Allows cells (.release n)

/-- What an answered request leaves. -/
def Setting.after (cells : ℕ → Cell Q P T) : Event Q P T → ℕ → Cell Q P T
  | .hit _ now _ | .pending _ now _ | .busy _ now => c.sweep now cells
  | .reserve query now n => Function.update (c.sweep now cells) n (.awaited query now)
  | .accept n payload => Function.update cells n ((cells n).fill payload)
  | .decline _ _ => cells
  | .release n => Function.update cells n .empty

def CacheStep [LinearOrder S] (cells : ℕ → Cell Q P T) (e : Event Q P T)
    (cells' : ℕ → Cell Q P T) : Prop :=
  c.Allows cells e ∧ cells' = c.after cells e

abbrev CacheBeat (Q P T : Type*) := Transition (ℕ → Cell Q P T) (Event Q P T)

def CacheRun [LinearOrder S] (es : List (CacheBeat Q P T)) (cells : ℕ → Cell Q P T) : Prop :=
  Run (CacheStep c) (fun _ => .empty) es cells

def Event.clock : Event Q P T → Option T
  | .hit _ now _ | .pending _ now _ | .reserve _ now _ | .busy _ now => some now
  | _ => none

/-- The request has put something into slot `n`. -/
def Event.Fills (n : ℕ) : Event Q P T → Prop
  | .reserve _ _ m | .accept m _ => m = n
  | _ => False

/-- What a request does to slot `n`. -/
inductive CellMove (n : ℕ) : Event Q P T → Cell Q P T → Cell Q P T → Prop
  | kept {e : Event Q P T} {cell : Cell Q P T} (off : ¬ e.Fills n) : CellMove n e cell cell
  | reserved {query : Q} {now : T} {cell : Cell Q P T} :
      CellMove n (.reserve query now n) cell (.awaited query now)
  | accepted {query : Q} {since : T} {payload : P} :
      CellMove n (.accept n payload) (.awaited query since) (.answered query payload)
  | released {cell : Cell Q P T} : CellMove n (.release n) cell .empty
  | lapsed {e : Event Q P T} {query : Q} {now since : T} (clock : e.clock = some now)
      (due : c.lapsed now since = true) (off : ¬ e.Fills n) :
      CellMove n e (.awaited query since) .empty

end Model

section Moves
variable {Q P S T : Type*} [LinearOrder S] {c : Setting Q S T} {cells cells' : ℕ → Cell Q P T}
  {e : Event Q P T} {now : T}

omit [LinearOrder S] in
theorem cellMove_sweep (n : ℕ) (hclock : e.clock = some now) (hoff : ¬ e.Fills n) :
    CellMove c n e (cells n) (c.sweep now cells n) := by
  unfold Setting.sweep
  split
  swap
  · exact .kept hoff
  cases cells n with
  | empty => exact .kept hoff
  | answered query payload => exact .kept hoff
  | awaited query since =>
    by_cases hdue : c.lapsed now since = true
    · simp only [Setting.sweepCell, if_pos hdue]
      exact .lapsed hclock hdue hoff
    · simp only [Setting.sweepCell, if_neg hdue]
      exact .kept hoff

omit [LinearOrder S] in
theorem Setting.sweep_of_serves {n : ℕ} {v : Q} (h : c.serves now (cells n) = some v) :
    c.sweep now cells n = cells n := by
  unfold Setting.sweep
  split
  swap
  · rfl
  cases hcell : cells n with
  | empty => rfl
  | answered => rfl
  | awaited query since =>
    simp only [hcell, Setting.serves] at h
    split at h
    · next hfresh =>
      have hkept : c.lapsed now since = false := by
        by_contra hdue
        rw [c.stale_of_lapsed _ _ (Bool.not_eq_false _ ▸ hdue)] at hfresh
        cases hfresh
      simp [Setting.sweepCell, hkept]
    · cases h

theorem CacheStep.move (h : CacheStep c cells e cells') (n : ℕ) :
    CellMove c n e (cells n) (cells' n) := by
  obtain ⟨hallowed,rfl⟩ := h
  cases hallowed with
  | hit | pending | busy => exact cellMove_sweep n rfl id
  | @reserve query now m below free =>
    by_cases hn : n = m
    · subst hn
      simp only [Setting.after, Function.update_self]
      exact .reserved
    · simp only [Setting.after, Function.update_of_ne hn]
      exact cellMove_sweep n rfl (Ne.symm hn)
  | @accept m query since payload cell =>
    by_cases hn : n = m
    · subst hn
      simp only [Setting.after, Function.update_self, cell, Cell.fill]
      exact .accepted
    · simp only [Setting.after, Function.update_of_ne hn]
      exact .kept (Ne.symm hn)
  | decline => exact .kept id
  | @release m cell =>
    by_cases hn : n = m
    · subst hn
      simp only [Setting.after, Function.update_self]
      exact .released
    · simp only [Setting.after, Function.update_of_ne hn]
      exact .kept id

end Moves

section Payloads
variable {Q P P' S T : Type*} {c : Setting Q S T} {cells cells' : ℕ → Cell Q P T}
  {e : Event Q P T} {now : T}

/-- A slot whose payload is seen through `g` only. -/
def Cell.map (g : P → P') : Cell Q P T → Cell Q P' T
  | .empty => .empty
  | .awaited query since => .awaited query since
  | .answered query payload => .answered query (g payload)

def Event.map (g : P → P') : Event Q P T → Event Q P' T
  | .hit query now payload => .hit query now (g payload)
  | .pending query now n => .pending query now n
  | .reserve query now n => .reserve query now n
  | .busy query now => .busy query now
  | .accept n payload => .accept n (g payload)
  | .decline n payload => .decline n (g payload)
  | .release n => .release n

@[simp] theorem Cell.map_eq_empty {g : P → P'} {cell : Cell Q P T} :
    cell.map g = .empty ↔ cell = .empty := by
  cases cell <;> simp [Cell.map]

@[simp] theorem Cell.map_eq_awaited {g : P → P'} {cell : Cell Q P T} {query : Q} {since : T} :
    cell.map g = .awaited query since ↔ cell = .awaited query since := by
  cases cell <;> simp [Cell.map]

@[simp] theorem Setting.serves_map (g : P → P') (cell : Cell Q P T) :
    c.serves now (cell.map g) = c.serves now cell := by
  cases cell <;> rfl

@[simp] theorem Setting.sweepCell_map (g : P → P') (cell : Cell Q P T) :
    c.sweepCell now (cell.map g) = (c.sweepCell now cell).map g := by
  cases cell with
  | empty | answered => rfl
  | awaited query since =>
    simp only [Cell.map, Setting.sweepCell]
    split <;> rfl

theorem Setting.sweep_map (g : P → P') (cells : ℕ → Cell Q P T) :
    c.sweep now (fun i => (cells i).map g) = fun i => (c.sweep now cells i).map g := by
  funext i
  unfold Setting.sweep
  split
  · exact c.sweepCell_map g (cells i)
  · rfl

variable [LinearOrder S]

theorem Setting.Best.map {query v : Q} {n : ℕ} (g : P → P') (h : c.Best query now cells n v) :
    c.Best query now (fun i => (cells i).map g) n v where
  lt := h.lt
  serves := by simpa using h.serves
  greatest := by simpa using h.greatest
  first := by simpa using h.first

theorem Setting.Allows.map (g : P → P') (h : c.Allows cells e) :
    c.Allows (fun i => (cells i).map g) (e.map g) := by
  cases h with
  | hit best near cell => exact .hit (best.map g) near (by simp only [cell, Cell.map])
  | pending best near cell => exact .pending (best.map g) near (Cell.map_eq_awaited.mpr cell)
  | reserve below free =>
    refine .reserve (by simpa [Setting.Below] using below) ⟨free.lt,?_,fun i hi => ?_⟩
    · simp [free.free]
    · simpa using free.first i hi
  | busy below full =>
    exact .busy (by simpa [Setting.Below] using below) (by simpa using full)
  | accept cell => exact .accept (Cell.map_eq_awaited.mpr cell)
  | decline cell => exact .decline (by simpa using cell)
  | release cell => exact .release (by simpa using cell)

/-- What the cache does does not depend on its payloads. -/
theorem CacheStep.map (g : P → P') (h : CacheStep c cells e cells') :
    CacheStep c (fun i => (cells i).map g) (e.map g) (fun i => (cells' i).map g) := by
  obtain ⟨hallowed,rfl⟩ := h
  refine ⟨hallowed.map g,?_⟩
  cases e with
  | hit | pending | busy => exact (c.sweep_map g cells).symm
  | decline => rfl
  | reserve query now n =>
    simp only [Event.map, Setting.after, c.sweep_map g cells]
    exact Function.comp_update (Cell.map g) (c.sweep now cells) n (.awaited query now)
  | accept n payload =>
    have hfill : ((cells n).fill payload).map g = ((cells n).map g).fill (g payload) := by
      cases cells n <;> rfl
    simp only [Event.map, Setting.after, ← hfill]
    exact Function.comp_update (Cell.map g) cells n _
  | release n => exact Function.comp_update (Cell.map g) cells n .empty

end Payloads

section Histories
variable {Q P S T : Type*} {es : List (CacheBeat Q P T)} {τ : CacheBeat Q P T} {n : ℕ} {q : Q}
  {p : P} {s : T}

/-- Slot `n` was reserved for `q`, and nothing has been put into it since. -/
def Reserved (n : ℕ) (q : Q) (s : T) (es : List (CacheBeat Q P T)) : Prop :=
  ∃ before ρ since, es = before ++ ρ :: since ∧ ρ.act = .reserve q s n ∧
    ∀ υ ∈ since, ¬ υ.act.Fills n

/-- The reservation of slot `n` for `q` was answered with `p`, and nothing has been
put into it since. -/
def Answered (n : ℕ) (q : Q) (p : P) (es : List (CacheBeat Q P T)) : Prop :=
  ∃ before σ since, es = before ++ σ :: since ∧ σ.act = .accept n p ∧
    (∀ υ ∈ since, ¬ υ.act.Fills n) ∧ ∃ s, Reserved n q s before

theorem Reserved.snoc (h : Reserved n q s es) (hoff : ¬ τ.act.Fills n) :
    Reserved n q s (es ++ [τ]) := by
  obtain ⟨before,ρ,since,rfl,hact,hsince⟩ := h
  refine ⟨before,ρ,since ++ [τ],by simp,hact,?_⟩
  rw [List.forall_mem_append, List.forall_mem_singleton]
  exact ⟨hsince,hoff⟩

theorem Answered.snoc (h : Answered n q p es) (hoff : ¬ τ.act.Fills n) :
    Answered n q p (es ++ [τ]) := by
  obtain ⟨before,σ,since,rfl,hact,hsince,hreserved⟩ := h
  refine ⟨before,σ,since ++ [τ],by simp,hact,?_,hreserved⟩
  rw [List.forall_mem_append, List.forall_mem_singleton]
  exact ⟨hsince,hoff⟩

/-- Every filled slot goes back to the requests that have filled it. -/
structure Recorded (es : List (CacheBeat Q P T)) (cells : ℕ → Cell Q P T) : Prop where
  awaited : ∀ n q s, cells n = .awaited q s → Reserved n q s es
  answered : ∀ n q p, cells n = .answered q p → Answered n q p es

variable {c : Setting Q S T} [LinearOrder S] {cells : ℕ → Cell Q P T}

theorem Recorded.step (h : Recorded es τ.before) (hfire : CacheStep c τ.before τ.act τ.after) :
    Recorded (es ++ [τ]) τ.after := by
  obtain ⟨before,e,after⟩ := τ
  constructor
  · intro n q s hcell
    have hmove := hfire.move n
    simp only at hmove hcell h
    rw [hcell] at hmove
    generalize hold : before n = old at hmove
    cases hmove with
    | kept hoff => exact (h.awaited n q s hold).snoc hoff
    | reserved => exact ⟨es,_,[],rfl,rfl,by simp⟩
  · intro n q p hcell
    have hmove := hfire.move n
    simp only at hmove hcell h
    rw [hcell] at hmove
    generalize hold : before n = old at hmove
    cases hmove with
    | kept hoff => exact (h.answered n q p hold).snoc hoff
    | accepted => exact ⟨es,_,[],rfl,rfl,by simp,_,h.awaited n q _ hold⟩

theorem CacheRun.recorded (hrun : CacheRun c es cells) : Recorded es cells :=
  hrun.historyInvariant (P := fun _ => True) (fun _ _ hfire _ h => h.step hfire)
    (fun _ _ => trivial) ⟨by simp,by simp⟩

variable {es₁ es₂ es₃ : List (CacheBeat Q P T)} {σ : CacheBeat Q P T}

/-- A query is answered with what somebody stored for a similar query, into the slot that
was reserved for that query and has not been filled again. -/
theorem CacheRun.hit_answered {now : T} (hrun : CacheRun c es cells) (hes : es = es₁ ++ τ :: es₂)
    (hhit : τ.act = .hit q now p) :
    ∃ n v, n < c.size ∧ c.threshold ≤ c.score q v ∧ Answered n v p es₁ := by
  subst hes
  obtain ⟨hbefore,hfire,-⟩ := Run.split_at hrun
  obtain ⟨hallowed,-⟩ := hfire
  rw [hhit] at hallowed
  cases hallowed with
  | @hit _ v _ n _ best near cell =>
    exact ⟨n,v,best.lt,near,(CacheRun.recorded hbefore).answered n v p cell⟩

/-- Some request reads the clock when a reservation since `s` is no longer fresh, and
slot `n` has not been answered before that. -/
def RunsOut (c : Setting Q S T) (n : ℕ) (s : T) (es : List (CacheBeat Q P T)) : Prop :=
  ∃ before υ after now, es = before ++ υ :: after ∧ υ.act.clock = some now ∧
    c.fresh now s = false ∧ ∀ φ ∈ before, ∀ p, φ.act ≠ .accept n p

omit [LinearOrder S] in
theorem RunsOut.mono (h : RunsOut c n s es) (fs : List (CacheBeat Q P T)) :
    RunsOut c n s (es ++ fs) := by
  obtain ⟨before,υ,after,now,rfl,hrest⟩ := h
  exact ⟨before,υ,after ++ fs,now,by simp,hrest⟩

/-- Slot `n` waits for the answer to `q`, or holds it. -/
def Standing (n : ℕ) (q : Q) (s : T) (es : List (CacheBeat Q P T))
    (cells : ℕ → Cell Q P T) : Prop :=
  (cells n = .awaited q s ∧ ∀ φ ∈ es, ∀ p, φ.act ≠ .accept n p) ∨ ∃ p, cells n = .answered q p

theorem Standing.step (h : Standing n q s es τ.before) (hfire : CacheStep c τ.before τ.act τ.after)
    (hkept : τ.act ≠ .release n) (hstays : ¬ RunsOut c n s (es ++ [τ])) :
    Standing n q s (es ++ [τ]) τ.after := by
  obtain ⟨before,e,after⟩ := τ
  simp only at h hfire hkept
  have hdue : before n = .awaited q s → ∀ now, e.clock = some now → c.lapsed now s = false := by
    intro hcell now hnow
    by_contra hlapsed
    have hopen : ∀ φ ∈ es, ∀ p, φ.act ≠ .accept n p := by
      rcases h with ⟨-,hopen⟩ | ⟨p,hanswered⟩
      · exact hopen
      · rw [hcell] at hanswered
        cases hanswered
    exact hstays ⟨es,_,[],now,rfl,hnow,c.stale_of_lapsed now s (by simpa using hlapsed),hopen⟩
  have hmove := hfire.move n
  generalize hold : before n = old at hmove
  generalize hnew : after n = new at hmove
  cases hmove with
  | kept hoff =>
    refine h.imp (fun h => ⟨by simp only; rw [hnew, ← hold, h.1],?_⟩) fun ⟨p,h⟩ =>
      ⟨p,by simp only; rw [hnew, ← hold, h]⟩
    rw [List.forall_mem_append, List.forall_mem_singleton]
    refine ⟨h.2,?_⟩
    rintro p rfl
    exact hoff rfl
  | reserved =>
    -- a standing slot is not free, so it is not reserved again
    obtain ⟨hallowed,-⟩ := hfire
    cases hallowed with
    | reserve below free =>
      have hempty := free.free
      rcases h with ⟨hcell,-⟩ | ⟨p,hcell⟩
      · rw [hcell, Setting.sweepCell, hdue hcell _ rfl] at hempty
        cases hempty
      · rw [hcell, Setting.sweepCell] at hempty
        · cases hempty
        · simp
  | accepted =>
    rcases h with ⟨hcell,-⟩ | ⟨p,hcell⟩
    · obtain ⟨rfl,rfl⟩ := Cell.awaited.inj (hold.symm.trans hcell)
      exact .inr ⟨_,hnew⟩
    · cases hold.symm.trans hcell
  | released => exact absurd rfl hkept
  | lapsed clock due =>
    rcases h with ⟨hcell,-⟩ | ⟨p,hcell⟩
    · obtain ⟨rfl,rfl⟩ := Cell.awaited.inj (hold.symm.trans hcell)
      rw [hdue hcell _ clock] at due
      cases due
    · cases hold.symm.trans hcell

end Histories

end AnswerCache
