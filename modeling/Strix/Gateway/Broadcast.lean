import Strix.Gateway.Registry

/-! # What the herd is woken with

A promise has one pioneer, which alone writes it, and its contents stand from
the moment its channel is closed. So whatever registrations and deletions take
place under its node ID or in its shard, a waiter that has found a promise gets
what the promise's own pioneer has passed.
-/
namespace Strix
open RunHistory ThreadPool

variable {ι E : Type*} {es : List (RegistryBeat ι E)} {pool : RegistryPool ι E} {r r' : Registry E}
  {c c' : Caller E} {a : CallerAction E} {i j : ι} {p : ℕ} {n : Int32} {payload : List UInt8}
  {err : Option E}

/-- Pioneer `j` has registered `p` for `n`, has passed `payload` and `err` to
`pioneerFulfill` and has closed the channel. -/
structure Published (es : List (RegistryBeat ι E)) (j : ι) (n : Int32) (p : ℕ)
    (payload : List UInt8) (err : Option E) : Prop where
  registered : Happened (Registers j n p) es
  fulfilled : Happened (Fulfills j n p payload err) es
  closed : Happened (Closes j p) es

theorem Published.mono (h : Published es j n p payload err) (fs : List (RegistryBeat ι E)) :
    Published (es ++ fs) j n p payload err :=
  ⟨h.registered.mono fs,h.fulfilled.mono fs,h.closed.mono fs⟩

/-- What a promise holds when its `pioneerFulfill` has come to `stage`. -/
def Promise.At (q : Promise E) (payload : List UInt8) (err : Option E) : FulfillStage → Prop
  | .setPayload => q.ready = false
  | .setErr => q.ready = false ∧ q.payload = payload
  | .close => q.ready = false ∧ q.payload = payload ∧ q.err = err
  | .remove => q.ready = true ∧ q.payload = payload ∧ q.err = err

structure Consistent (es : List (RegistryBeat ι E)) (r : Registry E) : Prop where
  fresh : ∀ j n p, Happened (Registers j n p) es → p < r.allocated
  owner : ∀ i j m n p, Happened (Registers i m p) es → Happened (Registers j n p) es →
    i = j ∧ m = n
  entry : ∀ n p, r.lookUp n = some p → ∃ j, Happened (Registers j n p) es
  ready : ∀ p, (r.promises p).ready = true →
    ∃ j n, Published es j n p (r.promises p).payload (r.promises p).err
  closed : ∀ j p, Happened (Closes j p) es → (r.promises p).ready = true
  placed : Striped.Placed getShard r.shards

/-- A caller's locals against the registry and the history. -/
def Caller.Sound (es : List (RegistryBeat ι E)) (r : Registry E) (i : ι) : Caller E → Prop
  | .idle => True
  | .pioneer n p => Happened (Registers i n p) es ∧ (r.promises p).ready = false
  | .fulfilling stage n p payload err => Happened (Registers i n p) es ∧
    Happened (Fulfills i n p payload err) es ∧ (r.promises p).At payload err stage
  | .fulfilled n p payload err => Published es i n p payload err
  | .waiting n p => Happened (Finds i n p) es ∧ ∃ j, Happened (Registers j n p) es
  | .reading n p => Happened (Finds i n p) es ∧ (∃ j, Happened (Registers j n p) es) ∧
    (r.promises p).ready = true
  | .returned n result => result.found = true → result.selfCancelled = false →
    ∃ p j, Happened (Finds i n p) es ∧ Published es j n p result.payload result.pioneerErr

section Steps
variable {stage : FulfillStage}

theorem pioneerFulfill_write (h : r.pioneerFulfill n p payload err stage = some r')
    (hstage : stage ≠ .remove) : r' = r.setPromise p (r'.promises p) := by
  cases stage with
  | setPayload | setErr =>
    obtain rfl := Option.some.inj h
    simp [Registry.setPromise]
  | close =>
    simp only [Registry.pioneerFulfill, Option.ite_none_left_eq_some, Option.some.injEq] at h
    obtain rfl := h.2
    simp [Registry.setPromise]
  | remove => exact absurd rfl hstage

theorem pioneerFulfill_remove (h : r.pioneerFulfill n p payload err .remove = some r') :
    r' = { r with shards := Striped.put getShard r.shards n none } :=
  (Option.some.inj h).symm

theorem pioneerFulfill_cases (h : r.pioneerFulfill n p payload err stage = some r') :
    (stage = .remove ∧ r' = { r with shards := Striped.put getShard r.shards n none }) ∨
      (stage ≠ .remove ∧ r' = r.setPromise p (r'.promises p)) := by
  by_cases hstage : stage = .remove
  · subst hstage
    exact .inl ⟨rfl,pioneerFulfill_remove h⟩
  · exact .inr ⟨hstage,pioneerFulfill_write h hstage⟩

theorem CallerStep.promises_eq (h : CallerStep r c a r' c') (hp : p < r.allocated)
    (hown : ∀ stage n payload err, c = .fulfilling stage n p payload err → stage = .remove) :
    r'.promises p = r.promises p := by
  cases h with
  | register => exact Function.update_of_ne (Nat.ne_of_lt hp) _ _
  | @fulfilling _ stage n q payload err h =>
    rcases pioneerFulfill_cases h with ⟨rfl,rfl⟩ | ⟨hstage,heq⟩
    · rfl
    · have hne : p ≠ q := by
        rintro rfl
        exact hstage (hown _ _ _ _ rfl)
      rw [heq]
      exact Function.update_of_ne hne _ _
  | fulfill | lookUp | wake | cancel | read => rfl

theorem CallerStep.allocated_le (h : CallerStep r c a r' c') : r.allocated ≤ r'.allocated := by
  cases h with
  | register => exact Nat.le_succ _
  | @fulfilling _ stage n q payload err h =>
    rcases pioneerFulfill_cases h with ⟨rfl,rfl⟩ | ⟨-,heq⟩
    · exact le_rfl
    · rw [heq]
      exact le_rfl
  | fulfill | lookUp | wake | cancel | read => exact le_rfl

theorem CallerStep.lookUp_cases (h : CallerStep r c a r' c') :
    (∃ n, a = .register n ∧ r'.lookUp = Function.update r.lookUp n (some r.allocated)) ∨
    (∃ n p payload err, c = .fulfilling .remove n p payload err ∧ a = .proceed ∧
      r'.lookUp = Function.update r.lookUp n none) ∨
    ((∀ n, a ≠ .register n) ∧ (∀ n p payload err, c ≠ .fulfilling .remove n p payload err) ∧
      r'.lookUp = r.lookUp) := by
  cases h with
  | @register n => exact .inl ⟨n,rfl,Striped.get_put⟩
  | @fulfilling _ stage n q payload err h =>
    rcases pioneerFulfill_cases h with ⟨rfl,rfl⟩ | ⟨hstage,heq⟩
    · exact .inr (.inl ⟨n,q,payload,err,rfl,rfl,Striped.get_put⟩)
    · rw [heq]
      exact .inr (.inr ⟨by simp,fun _ _ _ _ heq => hstage (by injection heq),rfl⟩)
  | fulfill | lookUp | wake | cancel | read =>
    exact .inr (.inr ⟨by simp,by simp,rfl⟩)

theorem CallerStep.placed (h : CallerStep r c a r' c')
    (hplaced : Striped.Placed getShard r.shards) : Striped.Placed getShard r'.shards := by
  cases h with
  | register => exact hplaced.put
  | @fulfilling _ stage n q payload err h =>
    rcases pioneerFulfill_cases h with ⟨rfl,rfl⟩ | ⟨-,heq⟩
    · exact hplaced.put
    · rw [heq]
      exact hplaced
  | fulfill | lookUp | wake | cancel | read => exact hplaced

theorem CallerStep.register_eq (h : CallerStep r c (.register n) r' c') :
    r' = (r.pioneerRegister n).2 ∧ c' = .pioneer n r.allocated := by
  cases h
  exact ⟨rfl,rfl⟩

theorem CallerStep.inFlight_of (h : CallerStep r c a r' c') (hin : c'.InFlight n p) :
    c.InFlight n p ∨ (a = .register n ∧ p = r.allocated) := by
  cases h with
  | register =>
    obtain ⟨rfl,rfl⟩ := hin
    exact .inr ⟨rfl,rfl⟩
  | fulfill => exact .inl hin
  | @fulfilling _ stage m q payload err h =>
    cases stage with
    | remove => exact absurd hin id
    | setPayload | setErr | close => exact .inl hin
  | @lookUp m =>
    cases hlook : r.lookUp m <;> rw [hlook] at hin <;> exact absurd hin id
  | wake | cancel | read => exact absurd hin id

theorem CallerStep.await_eq (h : CallerStep r c (.await n) r' c') :
    c = .idle ∧ r' = r ∧ c' = .lookedUp n (r.lookUp n) := by
  cases h
  exact ⟨rfl,rfl,rfl⟩

theorem CallerStep.remove_eq (h : CallerStep r (.fulfilling .remove n p payload err) a r' c') :
    a = .proceed ∧ r' = { r with shards := Striped.put getShard r.shards n none } ∧
      c' = .fulfilled n p payload err := by
  cases h with
  | fulfilling h => exact ⟨rfl,pioneerFulfill_remove h,rfl⟩

theorem CallerStep.inFlight (h : CallerStep r c a r' c') (hin : c.InFlight n p) :
    c'.InFlight n p ∨ ∃ payload err, c = .fulfilling .remove n p payload err := by
  cases h with
  | fulfill => exact .inl hin
  | @fulfilling _ stage m q payload err h =>
    obtain ⟨rfl,rfl⟩ := hin
    cases stage with
    | remove => exact .inr ⟨payload,err,rfl⟩
    | setPayload | setErr | close => exact .inl ⟨rfl,rfl⟩
  | register | lookUp | wake | cancel | read => exact absurd hin id

theorem CallerStep.ready_cases (h : CallerStep r c a r' c')
    (hready : (r'.promises p).ready = true) :
    (r.promises p).ready = true ∨ ∃ n payload err, c = .fulfilling .close n p payload err ∧
      r'.promises p = { r.promises p with ready := true } := by
  cases h with
  | @register n =>
    by_cases hp : p = r.allocated
    · subst hp
      simp [Registry.pioneerRegister] at hready
    · simp only [Registry.pioneerRegister, Function.update_of_ne hp] at hready
      exact .inl hready
  | @fulfilling _ stage n q payload err h =>
    by_cases hq : p = q
    · subst hq
      cases stage with
      | setPayload | setErr | remove =>
        obtain rfl := Option.some.inj h
        exact .inl (by simpa [Registry.setPromise] using hready)
      | close =>
        simp only [Registry.pioneerFulfill, Option.ite_none_left_eq_some, Option.some.injEq] at h
        obtain rfl := h.2
        exact .inr ⟨n,payload,err,rfl,by simp [Registry.setPromise]⟩
    · rcases pioneerFulfill_cases h with ⟨rfl,rfl⟩ | ⟨-,heq⟩
      · exact .inl hready
      · rw [heq, Registry.setPromise] at hready
        simp only [Function.update_of_ne hq] at hready
        exact .inl hready
  | fulfill | lookUp | wake | cancel | read => exact .inl hready

theorem pioneerFulfill_at (h : r.pioneerFulfill n p payload err stage = some r')
    (hat : (r.promises p).At payload err stage) : (r'.promises p).At payload err stage.next := by
  cases stage with
  | setPayload | setErr =>
    obtain rfl := Option.some.inj h
    simpa [Registry.setPromise, Promise.At, FulfillStage.next] using hat
  | close =>
    simp only [Registry.pioneerFulfill, Option.ite_none_left_eq_some, Option.some.injEq] at h
    obtain rfl := h.2
    simpa [Registry.setPromise, Promise.At, FulfillStage.next] using hat.2
  | remove =>
    rw [pioneerFulfill_remove h]
    exact hat

end Steps

section Invariant

theorem Consistent.ready_stays (hG : Consistent es r) (hc : c.Sound es r j)
    (h : CallerStep r c a r' c') (hready : (r.promises p).ready = true) :
    r'.promises p = r.promises p := by
  obtain ⟨j',n',hpub⟩ := hG.ready p hready
  refine h.promises_eq (hG.fresh _ _ _ hpub.registered) ?_
  rintro stage n payload err rfl
  obtain ⟨-,-,hat⟩ := hc
  cases stage with
  | remove => rfl
  | setPayload => simp [Promise.At, hready] at hat
  | setErr | close => simp [Promise.At, hready] at hat

theorem Consistent.other_stays (hG : Consistent es r) (hc : c.Sound es r j)
    (h : CallerStep r c a r' c') (hreg : Happened (Registers i n p) es) (hne : i ≠ j) :
    r'.promises p = r.promises p := by
  refine h.promises_eq (hG.fresh _ _ _ hreg) ?_
  rintro stage m payload err rfl
  exact absurd (hG.owner _ _ _ _ _ hreg hc.1).1 hne

theorem Caller.Sound.frame {l : Caller E} (hl : l.Sound es r i) (hG : Consistent es r)
    (hc : c.Sound es r j) (h : CallerStep r c a r' c') (hne : i ≠ j)
    (fs : List (RegistryBeat ι E)) : l.Sound (es ++ fs) r' i := by
  cases l with
  | idle => trivial
  | pioneer n p =>
    refine ⟨hl.1.mono fs,?_⟩
    rw [hG.other_stays hc h hl.1 hne]
    exact hl.2
  | fulfilling stage n p payload err =>
    refine ⟨hl.1.mono fs,hl.2.1.mono fs,?_⟩
    rw [hG.other_stays hc h hl.1 hne]
    exact hl.2.2
  | fulfilled n p payload err => exact hl.mono fs
  | waiting n p => exact ⟨hl.1.mono fs,hl.2.imp fun _ h => h.mono fs⟩
  | reading n p =>
    refine ⟨hl.1.mono fs,hl.2.1.imp fun _ h => h.mono fs,?_⟩
    rw [hG.ready_stays hc h hl.2.2]
    exact hl.2.2
  | returned n result =>
    intro hfound hself
    obtain ⟨p,j,hfinds,hpub⟩ := hl hfound hself
    exact ⟨p,j,hfinds.mono fs,hpub.mono fs⟩

theorem keep_consistent {τ : RegistryBeat ι E} (hmove : Moves CallerStep τ.before τ.act τ.after)
    (hG : Consistent es τ.before.shared)
    (hc : (τ.before.threads τ.act.1).Sound es τ.before.shared τ.act.1) :
    Consistent (es ++ [τ]) τ.after.shared := by
  have hstep := hmove.own
  have hnew : ∀ j n p, Registers j n p τ →
      j = τ.act.1 ∧ p = τ.before.shared.allocated ∧ τ.act.2 = .register n := by
    rintro j n p ⟨hact,hafter⟩
    rw [hact] at hstep
    have hp := hstep.register_eq.2
    rw [hafter] at hp
    injection hp with _ hp
    exact ⟨by rw [hact],hp,by rw [hact]⟩
  refine ⟨?_,?_,?_,?_,?_,hstep.placed hG.placed⟩
  · intro j n p h
    rcases happened_snoc.mp h with h | h
    · exact lt_of_lt_of_le (hG.fresh j n p h) hstep.allocated_le
    · obtain ⟨-,rfl,hact⟩ := hnew j n p h
      rw [hact] at hstep
      rw [hstep.register_eq.1]
      exact Nat.lt_succ_self _
  · intro i j m n p hi hj
    rcases happened_snoc.mp hi with hi | hi <;> rcases happened_snoc.mp hj with hj | hj
    · exact hG.owner i j m n p hi hj
    · exact absurd (hnew j n p hj).2.1 (hG.fresh i m p hi).ne
    · exact absurd (hnew i m p hi).2.1 (hG.fresh j n p hj).ne
    · obtain ⟨rfl,-,hm⟩ := hnew i m p hi
      obtain ⟨rfl,-,hn⟩ := hnew j n p hj
      rw [hm] at hn
      injection hn with hn
      exact ⟨rfl,hn⟩
  · intro n p hlook
    have hold : τ.before.shared.lookUp n = some p → ∃ j, Happened (Registers j n p) (es ++ [τ]) :=
      fun h => (hG.entry n p h).imp fun _ h => h.mono [τ]
    rcases hstep.lookUp_cases with ⟨m,hact,heq⟩ | ⟨m,q,payload,err,-,-,heq⟩ | ⟨-,-,heq⟩
    · rw [heq] at hlook
      by_cases hm : n = m
      · subst hm
        rw [Function.update_self] at hlook
        obtain rfl := Option.some.inj hlook
        refine ⟨τ.act.1,happened_last es ⟨Prod.ext rfl hact,?_⟩⟩
        rw [hact] at hstep
        exact hstep.register_eq.2
      · rw [Function.update_of_ne hm] at hlook
        exact hold hlook
    · rw [heq] at hlook
      by_cases hm : n = m
      · subst hm
        simp at hlook
      · rw [Function.update_of_ne hm] at hlook
        exact hold hlook
    · rw [heq] at hlook
      exact hold hlook
  · intro p hready
    rcases hstep.ready_cases hready with hold | ⟨n,payload,err,hclose,heq⟩
    · rw [hG.ready_stays hc hstep hold]
      obtain ⟨j,n,hpub⟩ := hG.ready p hold
      exact ⟨j,n,hpub.mono [τ]⟩
    · rw [hclose] at hc
      obtain ⟨hreg,hful,-,hpayload,herr⟩ := hc
      rw [heq, hpayload, herr]
      exact ⟨τ.act.1,n,hreg.mono [τ],hful.mono [τ],happened_last es ⟨rfl,n,payload,err,hclose⟩⟩
  · intro j p h
    rcases happened_snoc.mp h with h | ⟨rfl,n,payload,err,hclose⟩
    · rw [hG.ready_stays hc hstep (hG.closed j p h)]
      exact hG.closed j p h
    · rw [hclose] at hstep hc
      generalize τ.act.2 = a at hstep
      generalize τ.after.threads τ.act.1 = c' at hstep
      cases hstep with
      | fulfilling h => exact (pioneerFulfill_at h hc.2.2).1

theorem keep_sound {τ : RegistryBeat ι E} (hmove : Moves CallerStep τ.before τ.act τ.after)
    (hG : Consistent es τ.before.shared)
    (hc : (τ.before.threads τ.act.1).Sound es τ.before.shared τ.act.1) :
    (τ.after.threads τ.act.1).Sound (es ++ [τ]) τ.after.shared τ.act.1 := by
  obtain ⟨u,⟨i,a⟩,v⟩ := τ
  have hstep := hmove.own
  simp only at hstep hG hc ⊢
  generalize hbefore : u.threads i = c at hstep hc
  generalize hafter : v.threads i = c' at hstep ⊢
  generalize u.shared = r at hstep hG hc
  generalize v.shared = r' at hstep ⊢
  cases hstep with
  | register =>
    exact ⟨happened_last es ⟨rfl,hafter⟩,by simp [Registry.pioneerRegister]⟩
  | fulfill =>
    exact ⟨hc.1.mono _,happened_last es ⟨rfl,hbefore⟩,hc.2⟩
  | @fulfilling _ stage n p payload err h =>
    have hat := pioneerFulfill_at h hc.2.2
    cases stage with
    | setPayload | setErr | close => exact ⟨hc.1.mono _,hc.2.1.mono _,hat⟩
    | remove =>
      obtain ⟨hready,hpayload,herr⟩ := hc.2.2
      obtain ⟨j,m,hpub⟩ := hG.ready p hready
      obtain ⟨rfl,rfl⟩ := hG.owner _ _ _ _ _ hpub.registered hc.1
      rw [hpayload, herr] at hpub
      exact hpub.mono _
  | @lookUp n =>
    cases hlook : r.lookUp n with
    | none =>
      intro hfound
      cases hfound
    | some p =>
      rw [hlook] at hafter
      exact ⟨happened_last es ⟨rfl,hafter⟩,(hG.entry n p hlook).imp fun _ h => h.mono _⟩
  | wake hready => exact ⟨hc.1.mono _,hc.2.imp fun _ h => h.mono _,hready⟩
  | cancel =>
    intro _ hself
    cases hself
  | @read n p =>
    obtain ⟨hfinds,⟨j,hreg⟩,hready⟩ := hc
    intro _ _
    obtain ⟨j',n',hpub⟩ := hG.ready p hready
    obtain ⟨-,rfl⟩ := hG.owner _ _ _ _ _ hpub.registered hreg
    exact ⟨p,j',hfinds.mono _,hpub.mono _⟩

/-- In every run the registry is consistent with the history and each caller is sound. -/
theorem registry_invariant (hrun : RegistryRun es pool) :
    Consistent es pool.shared ∧ ∀ i, (pool.threads i).Sound es pool.shared i := by
  refine run_invariant (G := Consistent) (J := Caller.Sound) (P := fun _ => True) ?_ ?_ hrun
    (fun _ _ => trivial) ?_ fun _ => trivial
  · intro es τ hmove _ hG hJ
    exact ⟨keep_consistent hmove hG (hJ _),keep_sound hmove hG (hJ _)⟩
  · intro es τ j hmove _ hG hJ hj
    exact (hJ j).frame hG (hJ _) hmove.own hj [τ]
  · exact ⟨fun _ _ _ h => absurd h not_happened_nil,fun _ _ _ _ _ h => absurd h not_happened_nil,
      fun _ _ h => absurd h (by simp [freshRegistry, Registry.lookUp, Striped.get]),
      fun _ h => absurd h (by simp [freshRegistry]),fun _ _ h => absurd h not_happened_nil,
      Striped.placed_empty⟩

end Invariant

section Runs

/-- A caller that has called `pioneerFulfill` is never stuck: its channel is open
when it closes it. -/
theorem pioneerFulfill_enabled (hrun : RegistryRun es pool) {stage : FulfillStage}
    (h : pool.threads j = .fulfilling stage n p payload err) :
    ∃ r', pool.shared.pioneerFulfill n p payload err stage = some r' := by
  have hsound := (registry_invariant hrun).2 j
  rw [h] at hsound
  cases stage with
  | setPayload | setErr | remove => exact ⟨_,rfl⟩
  | close => exact ⟨_,if_neg (by simp [hsound.2.2.1])⟩

/-- Whatever a look-up finds belongs to a pioneer in flight. -/
theorem inFlight_of_lookUp (hrun : RegistryRun es pool) (h : pool.shared.lookUp n = some p) :
    ∃ j, (pool.threads j).InFlight n p := by
  refine hrun.invariant (P := fun _ => True) (I := fun u => ∀ n p, u.shared.lookUp n = some p →
    ∃ j, (u.threads j).InFlight n p) ?_ (fun _ _ => trivial) ?_ n p h
  · intro τ hmove _ ih n p hlook
    have hstep := hmove.own
    have hold : τ.before.shared.lookUp n = some p → (∀ m q payload err,
        τ.before.threads τ.act.1 = .fulfilling .remove m q payload err → m ≠ n) →
        ∃ j, (τ.after.threads j).InFlight n p := by
      intro hfound hkeep
      obtain ⟨j,hj⟩ := ih n p hfound
      refine ⟨j,?_⟩
      by_cases hactor : j = τ.act.1
      · subst hactor
        rcases hstep.inFlight hj with hin | ⟨payload,err,hremove⟩
        · exact hin
        · exact absurd rfl (hkeep _ _ _ _ hremove)
      · rw [hmove.others j hactor]
        exact hj
    rcases hstep.lookUp_cases with ⟨m,hact,heq⟩ | ⟨m,q,payload,err,hremove,-,heq⟩ | ⟨-,hkeep,heq⟩
    · rw [hact] at hstep
      rw [heq] at hlook
      by_cases hm : n = m
      · subst hm
        rw [Function.update_self] at hlook
        obtain rfl := Option.some.inj hlook
        refine ⟨τ.act.1,?_⟩
        rw [hstep.register_eq.2]
        exact ⟨rfl,rfl⟩
      · rw [Function.update_of_ne hm] at hlook
        exact hold hlook fun _ _ _ _ hremove => absurd hstep (by rw [hremove]; rintro ⟨⟩)
    · rw [heq] at hlook
      have hm : n ≠ m := by
        rintro rfl
        simp at hlook
      rw [Function.update_of_ne hm] at hlook
      refine hold hlook fun m' q' payload' err' hremove' => ?_
      rw [hremove] at hremove'
      injection hremove' with _ hm'
      exact fun h => hm (h.symm.trans hm'.symm)
    · rw [heq] at hlook
      exact hold hlook fun m q payload err h => absurd h (hkeep m q payload err)
  · intro n p h
    simp [freshRegistry, Registry.lookUp, Striped.get] at h

theorem Caller.Sound.registered (h : c.Sound es r i) (hin : c.InFlight n p) :
    Happened (Registers i n p) es := by
  cases c with
  | pioneer | fulfilling =>
    obtain ⟨rfl,rfl⟩ := hin
    exact h.1
  | idle | fulfilled | waiting | reading | returned => exact absurd hin id

/-- What a step writes under a node ID: a registration its promise, the last step of
`pioneerFulfill` nothing. -/
def registryWrite (τ : RegistryBeat ι E) : Option (Int32 × Option ℕ) :=
  match τ.act.2, τ.before.threads τ.act.1 with
  | .register nodeId, _ => some (nodeId, some τ.before.shared.allocated)
  | _, .fulfilling .remove nodeId _ _ _ => some (nodeId, none)
  | _, _ => none

def registration (τ : RegistryBeat ι E) : Option (Int32 × ℕ) :=
  match τ.act.2 with
  | .register nodeId => some (nodeId, τ.before.shared.allocated)
  | _ => none

/-- The shard array reads as one flat map over the history of its writes. -/
theorem lookUp_eq_latest (hrun : RegistryRun es pool) (n : Int32) :
    pool.shared.lookUp n = (latest registryWrite es n).getD none := by
  have hfresh : ∀ n, (freshRegistry E).lookUp n = none := fun _ => rfl
  refine (hrun.store_eq_latest registryWrite (fun u => u.shared.lookUp) ?_ n).trans
    (by rw [hfresh])
  intro τ hmove
  have hstep := hmove.own
  unfold registryWrite
  generalize τ.act.2 = a at hstep ⊢
  generalize τ.before.threads τ.act.1 = c at hstep ⊢
  generalize τ.after.threads τ.act.1 = c' at hstep
  rcases hstep.lookUp_cases with ⟨m,rfl,heq⟩ | ⟨m,q,payload,err,rfl,rfl,heq⟩ |
    ⟨hact,hkeep,heq⟩
  · exact .inr ⟨m,_,rfl,heq⟩
  · exact .inr ⟨m,none,rfl,heq⟩
  · refine .inl ⟨?_,heq⟩
    split
    · exact absurd rfl (hact _)
    · exact absurd rfl (hkeep _ _ _ _)
    · rfl

/-- No wake-up is lost or crossed, and the stripes are one flat map that is empty
between pioneers. -/
theorem herd_woken (hrun : RegistryRun es pool) :
    (∀ i n result, pool.threads i = .returned n result → result.found = true →
      result.selfCancelled = false → ∃ p j, Happened (Finds i n p) es ∧
        (∀ k m, Happened (Registers k m p) es ↔ k = j ∧ m = n) ∧
        Happened (Fulfills j n p result.payload result.pioneerErr) es ∧
        Happened (Closes j p) es) ∧
    (∀ i j n p, Happened (Finds i n p) es → Happened (Closes j p) es →
      (pool.shared.promises p).ready = true ∧ (pool.threads i = .waiting n p →
        ∃ pool', Moves CallerStep pool (i, .proceed) pool' ∧ pool'.threads i = .reading n p)) ∧
    (∀ es₁ τ es₂ i n, es = es₁ ++ τ :: es₂ → τ.act = (i, .await n) →
      τ.after.threads i = .lookedUp n ((latest registryWrite es₁ n).getD none)) ∧
    ((∀ i n p, ¬ (pool.threads i).InFlight n p) →
      ∀ shard n, pool.shared.shards shard n = none) := by
  classical
  obtain ⟨hG,hJ⟩ := registry_invariant hrun
  refine ⟨?_,?_,?_,?_⟩
  · intro i n result hreturned hfound hself
    have hsound := hJ i
    rw [hreturned] at hsound
    obtain ⟨p,j,hfinds,hpub⟩ := hsound hfound hself
    refine ⟨p,j,hfinds,fun k m => ⟨fun h => hG.owner _ _ _ _ _ h hpub.registered,?_⟩,
      hpub.fulfilled,hpub.closed⟩
    rintro ⟨rfl,rfl⟩
    exact hpub.registered
  · intro i j n p _ hcloses
    have hready := hG.closed j p hcloses
    refine ⟨hready,fun hwaiting => ?_⟩
    have hwake : CallerStep pool.shared (pool.threads i) .proceed pool.shared (.reading n p) := by
      rw [hwaiting]
      exact .wake hready
    exact ⟨_,moves_update hwake,by simp⟩
  · rintro es₁ τ es₂ i n rfl hact
    obtain ⟨hbefore,hmove,-⟩ := hrun.split_at
    have hstep := hmove.own
    rw [hact] at hstep
    rw [← lookUp_eq_latest hbefore]
    exact hstep.await_eq.2.2
  · intro hidle
    refine hG.placed.empty_iff.mpr fun n => ?_
    by_contra hne
    obtain ⟨p,hp⟩ := Option.ne_none_iff_exists'.mp hne
    obtain ⟨j,hj⟩ := inFlight_of_lookUp hrun hp
    exact hidle j n p hj

theorem kept_of_ready {fs : List (RegistryBeat ι E)} {pool' : RegistryPool ι E}
    (hrun : RegistryRun es pool) (hready : (pool.shared.promises p).ready = true)
    (hfs : Run (Moves CallerStep) pool fs pool') :
    pool'.shared.promises p = pool.shared.promises p := by
  induction hfs with
  | nil => rfl
  | snoc run fire ih =>
    obtain ⟨hG,hJ⟩ := registry_invariant (hrun.append run)
    exact (hG.ready_stays (hJ _) fire.own (by rw [ih]; exact hready)).trans ih

/-- A promise is written before its channel is closed and read after: no `pioneerFulfill`
panics, a channel is closed once, nothing is written to the promise from then on, and a
herd member that reads it has waited for that. -/
theorem closed_once (hrun : RegistryRun es pool) :
    (∀ j stage n p payload err, pool.threads j = .fulfilling stage n p payload err →
      ∃ r', pool.shared.pioneerFulfill n p payload err stage = some r') ∧
    (∀ es₁ σ es₂ j p, es = es₁ ++ σ :: es₂ → Closes j p σ →
      pool.shared.promises p = σ.after.shared.promises p ∧ ∀ τ ∈ es₂, ∀ i, ¬ Closes i p τ) ∧
    ∀ i n p, pool.threads i = .reading n p →
      ∃ j, Happened (Registers j n p) es ∧ Happened (Closes j p) es := by
  refine ⟨fun j stage n p payload err h => pioneerFulfill_enabled hrun h,?_,?_⟩
  · rintro es₁ σ es₂ j p rfl hcloses
    obtain ⟨hbefore,hmove,hafter⟩ := hrun.split_at
    have hclosed := hbefore.snoc hmove
    have hready : (σ.after.shared.promises p).ready = true :=
      (registry_invariant hclosed).1.closed j p (happened_last es₁ hcloses)
    refine ⟨kept_of_ready hclosed hready hafter,fun τ hτ i hagain => ?_⟩
    obtain ⟨fs,gs,rfl⟩ := List.append_of_mem hτ
    obtain ⟨hfs,-,-⟩ := Run.split_at hafter
    -- the second closer would find the channel open
    have hopen := (registry_invariant (hclosed.append hfs)).2 i
    obtain ⟨rfl,n,payload,err,hcall⟩ := hagain
    rw [hcall] at hopen
    have hkept := kept_of_ready hclosed hready hfs
    rw [← hkept, hopen.2.2.1] at hready
    cases hready
  · intro i n p hreading
    obtain ⟨hG,hJ⟩ := registry_invariant hrun
    have hsound := hJ i
    rw [hreading] at hsound
    obtain ⟨-,⟨j,hreg⟩,hready⟩ := hsound
    obtain ⟨k,m,hpub⟩ := hG.ready p hready
    obtain ⟨rfl,rfl⟩ := hG.owner _ _ _ _ _ hpub.registered hreg
    exact ⟨k,hpub.registered,hpub.closed⟩

end Runs

section Replay
variable [DecidableEq ι]

theorem exists_next {r' : Registry E} {c c' : Caller E} {a : CallerAction E}
    (hrun : RegistryRun es pool) (hc : pool.threads i = c) (h : CallerStep pool.shared c a r' c') :
    ∃ pool', RegistryRun (es ++ [⟨pool,(i, a),pool'⟩]) pool' ∧ pool'.shared = r' ∧
      pool'.threads = Function.update pool.threads i c' := by
  rw [← hc] at h
  exact ⟨_,hrun.snoc (moves_update h),rfl,rfl⟩

theorem exists_fulfilled (hrun : RegistryRun es pool) (h : pool.threads j = .pioneer n p)
    (payload : List UInt8) (err : Option E) : ∃ fs pool', RegistryRun (es ++ fs) pool' ∧
      fs.map (fun τ => τ.act) = [(j, .fulfill payload err), (j, .proceed), (j, .proceed),
        (j, .proceed), (j, .proceed)] ∧
      pool'.shared.lookUp = Function.update pool.shared.lookUp n none ∧
      pool'.shared.promises = Function.update pool.shared.promises p ⟨payload,err,true⟩ ∧
      pool'.threads = Function.update pool.threads j (.fulfilled n p payload err) := by
  have hsound := (registry_invariant hrun).2 j
  rw [h] at hsound
  have hopen : (pool.shared.promises p).ready = false := hsound.2
  let r₁ := pool.shared.setPromise p { pool.shared.promises p with payload := payload }
  let r₂ := r₁.setPromise p { r₁.promises p with err := err }
  let r₃ := r₂.setPromise p { r₂.promises p with ready := true }
  have hclose : r₂.pioneerFulfill n p payload err .close = some r₃ := by
    refine if_neg ?_
    simp [r₂, r₁, Registry.setPromise, hopen]
  have h₁ : Solo CallerStep (pool.shared, .pioneer n p) (.fulfill payload err)
    (pool.shared, .fulfilling .setPayload n p payload err) := .fulfill
  have h₂ : Solo CallerStep (pool.shared, .fulfilling .setPayload n p payload err) .proceed
    (r₁, .fulfilling .setErr n p payload err) := .fulfilling rfl
  have h₃ : Solo CallerStep (r₁, .fulfilling .setErr n p payload err) .proceed
    (r₂, .fulfilling .close n p payload err) := .fulfilling rfl
  have h₄ : Solo CallerStep (r₂, .fulfilling .close n p payload err) .proceed
    (r₃, .fulfilling .remove n p payload err) := .fulfilling hclose
  have h₅ : Solo CallerStep (r₃, .fulfilling .remove n p payload err) .proceed
    ({ r₃ with shards := Striped.put getShard pool.shared.shards n none },
      .fulfilled n p payload err) := .fulfilling rfl
  have hsolo := ((((Run.single h₁).snoc h₂).snoc h₃).snoc h₄).snoc h₅
  rw [← h] at hsolo
  obtain ⟨fs,hfs,hacts⟩ := run_of_solo hsolo
  refine ⟨fs,_,hrun.append hfs,hacts,Striped.get_put,?_,rfl⟩
  simp [r₃, r₂, r₁, Registry.setPromise]

omit [DecidableEq ι] in
theorem exists_registered (m n : Int32) :
    ∃ (es : List (RegistryBeat ℕ E)) (pool : RegistryPool ℕ E),
    RegistryRun es pool ∧ es.map (fun τ => τ.act) = [(0, .register m), (1, .register n)] ∧
      latest registration es n = some 1 ∧
      pool.threads 0 = .pioneer m 0 ∧ pool.threads 1 = .pioneer n 1 ∧
      (∀ k, 2 ≤ k → pool.threads k = .idle) ∧ pool.shared.lookUp =
        Function.update (Function.update (fun _ => none) m (some 0)) n (some 1) ∧
      (pool.shared.promises 1).ready = false := by
  have hstart : RegistryRun [] (⟨freshRegistry E,fun _ => .idle⟩ : RegistryPool ℕ E) := .nil _
  obtain ⟨first,hfirst,hshared,hthreads⟩ :=
    exists_next (i := 0) (a := .register m) hstart rfl .register
  have hidle : first.threads 1 = .idle := by
    rw [hthreads]
    exact Function.update_of_ne (by simp) _ _
  obtain ⟨second,hsecond,hshared',hthreads'⟩ :=
    exists_next (i := 1) (a := .register n) hfirst hidle .register
  have halloc : first.shared.allocated = 1 := by rw [hshared]; rfl
  refine ⟨_,_,hsecond,rfl,?_,?_,?_,?_,?_,?_⟩
  · rw [latest_snoc, record_some registration (k := n) (v := first.shared.allocated) rfl, halloc,
      Function.update_self]
  · rw [hthreads', Function.update_of_ne (by simp), hthreads, Function.update_self]
    rfl
  · rw [hthreads', Function.update_self, Registry.pioneerRegister, halloc]
  · intro k hk
    rw [hthreads', Function.update_of_ne (by omega), hthreads, Function.update_of_ne (by omega)]
  · rw [hshared', Registry.pioneerRegister, halloc, hshared]
    exact Striped.get_put.trans (congrArg (fun f => Function.update f n _) Striped.get_put)
  · rw [hshared', Registry.pioneerRegister, halloc]
    simp

omit [DecidableEq ι] in
/-- Two pioneers whose node IDs share a shard: the herd of the first gets the
first's payload while the second is still in flight. -/
theorem herd_woken_replay : ∃ (es : List (RegistryBeat ℕ String)) (pool : RegistryPool ℕ String),
    RegistryRun es pool ∧ getShard 10 = getShard 266 ∧ pool.threads 1 = .pioneer 266 1 ∧
      pool.threads 2 = .returned 10 ⟨[7],none,false,true⟩ ∧
      ∃ p j, Happened (Finds 2 10 p) es ∧
        (∀ k m, Happened (Registers k m p) es ↔ k = j ∧ m = 10) ∧
        Happened (Fulfills j 10 p [7] none) es ∧ Happened (Closes j p) es := by
  obtain ⟨es,pool,hrun,-,-,hzero,hone,hidle,hlook,-⟩ := exists_registered (E := String) 10 266
  have hfound : pool.shared.lookUp 10 = some 0 := by rw [hlook]; decide
  have hawait : CallerStep pool.shared .idle (.await 10) pool.shared (.waiting 10 0) := by
    have hstep : CallerStep pool.shared .idle (.await 10) pool.shared
      (.lookedUp 10 (pool.shared.lookUp 10)) := .lookUp
    rwa [hfound] at hstep
  obtain ⟨first,hfirst,hshared,hthreads⟩ := exists_next hrun (hidle 2 le_rfl) hawait
  have hzero' : first.threads 0 = .pioneer 10 0 := by
    rw [hthreads, Function.update_of_ne (by decide), hzero]
  obtain ⟨fs,second,hsecond,-,-,hpromises,hthreads'⟩ := exists_fulfilled hfirst hzero' [7] none
  have hcontents : second.shared.promises 0 = ⟨[7],none,true⟩ := by
    rw [hpromises, Function.update_self]
  have hwaiting : second.threads 2 = .waiting 10 0 := by
    rw [hthreads', Function.update_of_ne (by decide), hthreads, Function.update_self]
  obtain ⟨third,hthird,hshared₃,hthreads₃⟩ :=
    exists_next hsecond hwaiting (.wake (by rw [hcontents]))
  have hreading : third.threads 2 = .reading 10 0 := by rw [hthreads₃, Function.update_self]
  obtain ⟨last,hlast,-,hthreads₄⟩ := exists_next hthird hreading .read
  have hreturned : last.threads 2 = .returned 10 ⟨[7],none,false,true⟩ := by
    rw [hthreads₄, Function.update_self, hshared₃, hcontents]
  refine ⟨_,_,hlast,by decide,?_,hreturned,(herd_woken hlast).1 2 10 _ hreturned rfl rfl⟩
  rw [hthreads₄, Function.update_of_ne (by decide), hthreads₃, Function.update_of_ne (by decide),
    hthreads', Function.update_of_ne (by decide), hthreads, Function.update_of_ne (by decide), hone]

theorem closed_once_replay : ∃ (es es₁ es₂ : List (RegistryBeat ℕ String))
    (σ : RegistryBeat ℕ String) (pool : RegistryPool ℕ String), RegistryRun es pool ∧
      es = es₁ ++ σ :: es₂ ∧ Closes 0 0 σ ∧ σ.after.shared.promises 0 = ⟨[7],none,true⟩ ∧
      ∀ τ ∈ es₂, ∀ i, ¬ Closes i 0 τ := by
  obtain ⟨es,pool,hrun,-,-,hzero,-⟩ := exists_registered (E := String) 10 266
  obtain ⟨fs,pool',hrun',-,-,hpromises,hthreads⟩ := exists_fulfilled hrun hzero [7] none
  have hsound := (registry_invariant hrun').2 0
  rw [hthreads, Function.update_self] at hsound
  obtain ⟨σ,hσ,hcloses⟩ := Published.closed hsound
  obtain ⟨es₁,es₂,hsplit⟩ := List.append_of_mem hσ
  obtain ⟨hkept,honce⟩ := (closed_once hrun').2.1 es₁ σ es₂ 0 0 hsplit hcloses
  refine ⟨es ++ fs,es₁,es₂,σ,pool',hrun',hsplit,hcloses,?_,honce⟩
  rw [← hkept, hpromises, Function.update_self]

end Replay

end Strix
