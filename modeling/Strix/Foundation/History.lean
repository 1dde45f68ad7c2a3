import Mathlib.Logic.Function.Basic
import Mathlib.Data.List.Induction

/-! # Runs of a labelled transition system and what their histories record

A run keeps the list of its transitions, each with the state before and after
it, so that a property may speak about any moment of the past. The induction
over a run is done here once: an invariant of states, an invariant tied to the
history, and the last value a history has written under a key.
-/
namespace RunHistory

structure Transition (S A : Type*) where
  before : S
  act : A
  after : S

theorem Transition.act_mem {S A : Type*} {es : List (Transition S A)} {acts : List A}
    {τ : Transition S A} (h : es.map (fun τ => τ.act) = acts) (hτ : τ ∈ es) : τ.act ∈ acts := by
  rw [← h]
  exact List.mem_map_of_mem hτ

/-- `Run step s es t`: the steps `es`, taken in order, lead from `s` to `t`. -/
inductive Run {S A : Type*} (step : S → A → S → Prop) : S → List (Transition S A) → S → Prop
  | nil (s : S) : Run step s [] s
  | snoc {s t u : S} {es : List (Transition S A)} {a : A} (run : Run step s es t)
      (fire : step t a u) : Run step s (es ++ [⟨t,a,u⟩]) u

def Happened {τ : Type*} (P : τ → Prop) (es : List τ) : Prop := ∃ e ∈ es, P e

section Events
variable {τ : Type*} {P : τ → Prop} {es : List τ} {e : τ}

theorem not_happened_nil : ¬ Happened P [] := by
  rintro ⟨e,he,-⟩
  cases he

theorem Happened.mono (h : Happened P es) (fs : List τ) : Happened P (es ++ fs) :=
  h.imp fun _ he => ⟨List.mem_append_left fs he.1,he.2⟩

theorem happened_last (es : List τ) (h : P e) : Happened P (es ++ [e]) := ⟨e,by simp,h⟩

theorem happened_snoc : Happened P (es ++ [e]) ↔ Happened P es ∨ P e := by
  unfold Happened
  simp only [List.mem_append, List.mem_singleton, or_and_right, exists_or, exists_eq_left]

/-- `since` is what has come after the last event that is as `P` says. -/
def SinceLast {τ : Type*} (P : τ → Prop) (es since : List τ) : Prop :=
  ∃ before e, es = before ++ e :: since ∧ P e ∧ ∀ σ ∈ since, ¬ P σ

theorem sinceLast_last (es : List τ) (h : P e) : SinceLast P (es ++ [e]) [] :=
  ⟨es,e,rfl,h,by simp⟩

theorem SinceLast.snoc {since : List τ} (h : SinceLast P es since) (he : ¬ P e) :
    SinceLast P (es ++ [e]) (since ++ [e]) := by
  obtain ⟨before,last,rfl,hlast,hsince⟩ := h
  refine ⟨before,last,by simp,hlast,?_⟩
  rw [List.forall_mem_append, List.forall_mem_singleton]
  exact ⟨hsince,he⟩

theorem SinceLast.suffix {since before after : List τ} (h : SinceLast P es since) (he : P e)
    (hes : es = before ++ e :: after) : since <:+ after := by
  obtain ⟨front,last,hsplit,-,hsince⟩ := h
  have hlong : since <:+ es := ⟨front ++ [last],by simp [hsplit]⟩
  have hat : e :: after <:+ es := ⟨before,hes.symm⟩
  rcases List.suffix_or_suffix_of_suffix hlong hat with hshort | hshort
  · rcases List.suffix_cons_iff.mp hshort with rfl | hshort
    · exact absurd he (hsince e List.mem_cons_self)
    · exact hshort
  · exact absurd he (hsince e (hshort.subset List.mem_cons_self))

theorem Happened.of_suffix {fs : List τ} (h : Happened P es) (hsuffix : es <:+ fs) :
    Happened P fs :=
  h.imp fun _ he => ⟨hsuffix.subset he.1,he.2⟩

end Events

section Runs
variable {S A : Type*} {step : S → A → S → Prop} {s t u : S} {es fs : List (Transition S A)}

theorem Run.single {a : A} (h : step s a t) : Run step s [⟨s,a,t⟩] t := by
  simpa using (Run.nil s : Run step s [] s).snoc h

theorem Run.append (h : Run step s es t) (k : Run step t fs u) : Run step s (es ++ fs) u := by
  induction k with
  | nil => simpa using h
  | snoc _ fire ih =>
    rw [← List.append_assoc]
    exact ih.snoc fire

theorem Run.cons {a : A} (h : step s a t) (k : Run step t fs u) :
    Run step s (⟨s,a,t⟩ :: fs) u := (Run.single h).append k

theorem Run.snoc_inv {τ : Transition S A} (h : Run step s (es ++ [τ]) t) :
    Run step s es τ.before ∧ step τ.before τ.act τ.after ∧ τ.after = t := by
  generalize he : es ++ [τ] = all at h
  cases h with
  | nil => simp at he
  | snoc run fire =>
    obtain ⟨rfl,hτ⟩ := List.append_inj' he rfl
    obtain rfl := List.singleton_inj.mp hτ
    exact ⟨run,fire,rfl⟩

theorem Run.split (h : Run step s (es ++ fs) u) : ∃ t, Run step s es t ∧ Run step t fs u := by
  induction fs using List.reverseRecOn generalizing u with
  | nil => exact ⟨u,by simpa using h,.nil u⟩
  | append_singleton fs τ ih =>
    rw [← List.append_assoc] at h
    obtain ⟨hrun,hfire,rfl⟩ := h.snoc_inv
    obtain ⟨t,hes,hfs⟩ := ih hrun
    exact ⟨t,hes,hfs.snoc hfire⟩

theorem Run.split_at {τ : Transition S A} (h : Run step s (es ++ τ :: fs) u) :
    Run step s es τ.before ∧ step τ.before τ.act τ.after ∧ Run step τ.after fs u := by
  rw [List.append_cons] at h
  obtain ⟨t,hfirst,hrest⟩ := h.split
  obtain ⟨hes,hfire,rfl⟩ := hfirst.snoc_inv
  exact ⟨hes,hfire,hrest⟩

/-- An invariant that ties the state to the history behind it, with the run behind
each step at hand. -/
theorem Run.historyInvariant_of_run {I : List (Transition S A) → S → Prop}
    {P : Transition S A → Prop}
    (keep : ∀ es τ, Run step s es τ.before → step τ.before τ.act τ.after → P τ →
      I es τ.before → I (es ++ [τ]) τ.after)
    (h : Run step s es t) (hP : ∀ τ ∈ es, P τ) (hI : I [] s) : I es t := by
  induction h with
  | nil => exact hI
  | snoc run fire ih =>
    rw [List.forall_mem_append] at hP
    exact keep _ _ run fire (hP.2 _ (List.mem_singleton_self _)) (ih hP.1)

theorem Run.historyInvariant {I : List (Transition S A) → S → Prop} {P : Transition S A → Prop}
    (keep : ∀ es τ, step τ.before τ.act τ.after → P τ → I es τ.before → I (es ++ [τ]) τ.after)
    (h : Run step s es t) (hP : ∀ τ ∈ es, P τ) (hI : I [] s) : I es t :=
  h.historyInvariant_of_run (fun es τ _ => keep es τ) hP hI

/-- An invariant that every step meeting `P` keeps holds at the end of a run
whose steps all meet `P`. -/
theorem Run.invariant {I : S → Prop} {P : Transition S A → Prop}
    (keep : ∀ τ, step τ.before τ.act τ.after → P τ → I τ.before → I τ.after)
    (h : Run step s es t) (hP : ∀ τ ∈ es, P τ) (hI : I s) : I t :=
  h.historyInvariant (I := fun _ => I) (fun _ => keep) hP hI

/-- What each step that meets `P` leaves alone is the same at both ends of a run
whose steps all meet `P`. -/
theorem Run.frame {β : Type*} (view : S → β) {P : Transition S A → Prop}
    (keep : ∀ τ, step τ.before τ.act τ.after → P τ → view τ.after = view τ.before)
    (h : Run step s es t) (hP : ∀ τ ∈ es, P τ) : view t = view s :=
  h.invariant (I := fun u => view u = view s)
    (fun τ hfire hτ hview => (keep τ hfire hτ).trans hview) hP rfl

theorem Run.map {T B : Type*} {step' : T → B → T → Prop} (f : S → T) (g : Transition S A → B)
    (project : ∀ τ, step τ.before τ.act τ.after → step' (f τ.before) (g τ) (f τ.after))
    (h : Run step s es t) :
    Run step' (f s) (es.map fun τ => ⟨f τ.before,g τ,f τ.after⟩) (f t) := by
  induction h with
  | nil => exact .nil _
  | @snoc t u es a run fire ih =>
    rw [List.map_append]
    exact ih.snoc (project ⟨t,a,u⟩ fire)

/-- A run seen through a projection in which some of its steps stand still. -/
theorem Run.filterMap_of_run {T B : Type*} {step' : T → B → T → Prop} (f : S → T)
    (g : Transition S A → Option B) {P : Transition S A → Prop}
    (still : ∀ es τ, Run step s es τ.before → (∀ σ ∈ es ++ [τ], P σ) →
      step τ.before τ.act τ.after → g τ = none → f τ.after = f τ.before)
    (project : ∀ es τ b, Run step s es τ.before → (∀ σ ∈ es ++ [τ], P σ) →
      step τ.before τ.act τ.after → g τ = some b → step' (f τ.before) b (f τ.after))
    (h : Run step s es t) (hP : ∀ τ ∈ es, P τ) :
    Run step' (f s) (es.filterMap fun τ => (g τ).map fun b => ⟨f τ.before,b,f τ.after⟩) (f t) := by
  induction h with
  | nil => exact .nil _
  | @snoc t u es a run fire ih =>
    have hrun := ih fun τ hτ => hP τ (List.mem_append_left _ hτ)
    rw [List.filterMap_append]
    cases hg : g ⟨t,a,u⟩ with
    | none => simpa [hg, still es ⟨t,a,u⟩ run hP fire hg] using hrun
    | some b => simpa [hg] using hrun.snoc (project es ⟨t,a,u⟩ b run hP fire hg)

theorem Run.filterMap {T B : Type*} {step' : T → B → T → Prop} (f : S → T)
    (g : Transition S A → Option B)
    (still : ∀ τ, step τ.before τ.act τ.after → g τ = none → f τ.after = f τ.before)
    (project : ∀ τ b, step τ.before τ.act τ.after → g τ = some b →
      step' (f τ.before) b (f τ.after)) (h : Run step s es t) :
    Run step' (f s) (es.filterMap fun τ => (g τ).map fun b => ⟨f τ.before,b,f τ.after⟩) (f t) :=
  h.filterMap_of_run (P := fun _ => True) f g (fun _ τ _ _ => still τ)
    (fun _ τ b _ _ => project τ b) fun _ _ => trivial

/-- Two properties of steps that agree as long as the first has held before
hold along the same runs. -/
theorem Run.forall_iff {P Q : Transition S A → Prop}
    (agree : ∀ es τ, Run step s es τ.before → (∀ σ ∈ es, P σ) → step τ.before τ.act τ.after →
      (Q τ ↔ P τ)) (h : Run step s es t) : (∀ τ ∈ es, Q τ) ↔ ∀ τ ∈ es, P τ := by
  induction h with
  | nil => simp
  | snoc run fire ih =>
    rw [List.forall_mem_append, List.forall_mem_append, ih, List.forall_mem_singleton,
      List.forall_mem_singleton]
    exact and_congr_right fun hP => agree _ _ run hP fire

end Runs

section Latest
variable {τ κ β : Type*} [DecidableEq κ] (f : τ → Option (κ × β))

def record (m : κ → Option β) (e : τ) : κ → Option β :=
  match f e with
  | some (k, v) => Function.update m k (some v)
  | none => m

/-- The last value the events wrote under each key. -/
def latest (es : List τ) : κ → Option β := es.foldl (record f) (fun _ => none)

@[simp] theorem latest_nil (k : κ) : latest f [] k = none := rfl

@[simp] theorem latest_snoc (es : List τ) (e : τ) :
    latest f (es ++ [e]) = record f (latest f es) e := by
  simp [latest]

theorem record_none {m : κ → Option β} {e : τ} (h : f e = none) : record f m e = m := by
  simp [record, h]

theorem record_some {m : κ → Option β} {e : τ} {k : κ} {v : β} (h : f e = some (k, v)) :
    record f m e = Function.update m k (some v) := by
  simp [record, h]

theorem latest_append (es fs : List τ) (k : κ) :
    latest f (es ++ fs) k = (latest f fs k).or (latest f es k) := by
  induction fs using List.reverseRecOn with
  | nil => simp
  | append_singleton fs e ih =>
    rw [← List.append_assoc, latest_snoc, latest_snoc]
    cases he : f e with
    | none => simpa only [record_none f he] using ih
    | some p =>
      obtain ⟨k',v⟩ := p
      rw [record_some f he, record_some f he]
      by_cases hk : k = k'
      · subst hk
        simp
      · simpa [Function.update_of_ne hk] using ih

theorem latest_eq_some {es : List τ} {k : κ} {v : β} : latest f es k = some v ↔
    ∃ fs e gs, es = fs ++ e :: gs ∧ f e = some (k, v) ∧ latest f gs k = none := by
  constructor
  · intro h
    induction es using List.reverseRecOn with
    | nil => simp at h
    | append_singleton es e ih =>
      rw [latest_append] at h
      cases hlast : latest f [e] k with
      | none =>
        rw [hlast, Option.none_or] at h
        obtain ⟨fs,e',gs,rfl,he',hgs⟩ := ih h
        exact ⟨fs,e',gs ++ [e],by simp,he',by rw [latest_append, hlast, hgs]; rfl⟩
      | some w =>
        rw [hlast, Option.some_or] at h
        obtain rfl := Option.some.inj h
        refine ⟨es,e,[],rfl,?_,rfl⟩
        have hrec : record f (fun _ => none) e k = some w := hlast
        cases he : f e with
        | none => simp [record_none f he] at hrec
        | some p =>
          obtain ⟨k',v'⟩ := p
          rw [record_some f he] at hrec
          by_cases hk : k = k'
          · subst hk
            simpa using hrec
          · simp [Function.update_of_ne hk] at hrec
  · rintro ⟨fs,e,gs,rfl,he,hgs⟩
    rw [show fs ++ e :: gs = fs ++ [e] ++ gs by simp, latest_append, hgs, Option.none_or,
      latest_snoc, record_some f he, Function.update_self]

theorem latest_eq_none {es : List τ} {k : κ} : latest f es k = none ↔
    ∀ e ∈ es, ∀ v, f e ≠ some (k, v) := by
  constructor
  · intro h e he v hv
    obtain ⟨fs,gs,rfl⟩ := List.append_of_mem he
    rw [show fs ++ e :: gs = fs ++ [e] ++ gs by simp, latest_append, Option.or_eq_none_iff,
      latest_snoc, record_some f hv, Function.update_self] at h
    exact Option.some_ne_none _ h.2
  · intro h
    by_contra hne
    obtain ⟨v,hv⟩ := Option.ne_none_iff_exists'.mp hne
    obtain ⟨fs,e,gs,rfl,he,-⟩ := (latest_eq_some f).mp hv
    exact h e (by simp) v he

end Latest

section Store
variable {S A κ β : Type*} [DecidableEq κ] {step : S → A → S → Prop} {s t : S}
  {es : List (Transition S A)}

/-- A store that each step leaves alone or updates with what it records holds the
last value recorded under each key. -/
theorem Run.store_eq_latest (f : Transition S A → Option (κ × β)) (store : S → κ → β)
    (write : ∀ τ, step τ.before τ.act τ.after →
      (f τ = none ∧ store τ.after = store τ.before) ∨
      ∃ k v, f τ = some (k, v) ∧ store τ.after = Function.update (store τ.before) k v)
    (h : Run step s es t) (k : κ) : store t k = (latest f es k).getD (store s k) := by
  induction h with
  | nil => rfl
  | @snoc u w es act run fire ih =>
    rw [latest_snoc]
    rcases write ⟨u,act,w⟩ fire with ⟨hnone,hstore⟩ | ⟨k',v,hsome,hstore⟩
    · rw [record_none f hnone]
      exact (congrFun hstore k).trans ih
    · rw [record_some f hsome]
      refine (congrFun hstore k).trans ?_
      by_cases hk : k = k'
      · subst hk
        simp
      · rw [Function.update_of_ne hk, Function.update_of_ne hk, ih]

end Store

end RunHistory
