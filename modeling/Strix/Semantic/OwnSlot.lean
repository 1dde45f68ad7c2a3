import Strix.Engine.Embedder
import Strix.Semantic.Separation

/-! # A prompt and its slot

The embedder turns a prompt into a unit vector, so a prompt that is asked again comes
back to the slot that stands for it: every other live slot is dissimilar to it.
-/
namespace Strix
open RunHistory Scoring

section Claims
variable {K : Type*}

def promptClaims (τ : Step K) : Option (ℕ × List UInt8) :=
  match τ.act with
  | (.checkCache prompt (.ok _) _, .checked (.ok response)) =>
    if response.checkState = .miss ∧ 0 ≤ response.nodeId then some (response.nodeId.toNat, prompt)
    else none
  | _ => none

theorem promptClaims_eq_none {τ : Step K} (h : claims τ = none) : promptClaims τ = none := by
  obtain ⟨before,⟨call,reply⟩,after⟩ := τ
  cases call with
  | setCache | collect => rfl
  | checkCache prompt embedding t =>
    cases embedding with
    | error => rfl
    | ok query =>
      cases reply with
      | stored | collected => rfl
      | checked result =>
        cases result with
        | error => rfl
        | ok response =>
          by_cases hmiss : response.checkState = .miss ∧ 0 ≤ response.nodeId
          · simp [claims, hmiss] at h
          · simp [promptClaims, hmiss]

/-- Slot `n` stands for the prompt: it is the last one the slot was given to. -/
def StandsFor (es : List (Step K)) (n : ℕ) (prompt : List UInt8) : Prop :=
  latest promptClaims es n = some prompt

end Claims

section Embedded
variable {K : Type*} [Field K] [LinearOrder K] [IsStrictOrderedRing K] {sqrt : K → K}
  {session : List UInt8 → Except String (OutputTensor K)} {es : List (Step K)}
  {arena arena' : MemoryArena (Vec K)} {n m : ℕ} {prompt prompt' : List UInt8} {t : UInt64}

/-- The query vector of a `CheckCache` is the embedding of its prompt. -/
def Embedded (sqrt : K → K) (session : List UInt8 → Except String (OutputTensor K))
    (τ : Step K) : Prop :=
  ∀ prompt embedding t, τ.act.1 = .checkCache prompt embedding t →
    embedding = encode sqrt session prompt

/-- A live slot is an L0 slot and holds the embedding of the prompt it stands for. -/
theorem standsFor_of_live (hrun : EngineRun es arena)
    (hembed : ∀ τ ∈ es, Embedded sqrt session τ)
    (hlive : (arena.metadata n).loadControl.state ≠ .dead) :
    n < l0MaxSlots ∧ ∃ prompt, StandsFor es n prompt ∧
      encode sqrt session prompt = .ok (arena.vectors n) := by
  refine hrun.historyInvariant (P := Embedded sqrt session)
    (I := fun es arena => ∀ n, (arena.metadata n).loadControl.state ≠ .dead →
      n < l0MaxSlots ∧ ∃ prompt, StandsFor es n prompt ∧
        encode sqrt session prompt = .ok (arena.vectors n)) ?_ hembed
    (fun n h => absurd (freshArena_state n) h) n hlive
  intro es τ hfire hτ ih n hlive
  rcases step_effect hfire with ⟨hnone,hvec,hkeep⟩ | ⟨m,query,prompt,t,hact,-,hclaim⟩
  · have hbefore : (τ.before.metadata n).loadControl.state ≠ .dead := by
      rcases hkeep with hsettle | ⟨-,hfree⟩
      · exact (hsettle n).live hlive
      · exact (hfree n).live hlive
    obtain ⟨hn,prompt,hstands,hencode⟩ := ih n hbefore
    refine ⟨hn,prompt,?_,by rw [hvec]; exact hencode⟩
    rw [StandsFor, latest_snoc, record_none _ (promptClaims_eq_none hnone)]
    exact hstands
  · have hgiven : promptClaims τ = some (m, prompt) := by simp [promptClaims, hact]
    simp only [StandsFor, latest_snoc, record_some _ hgiven, hclaim.vectors]
    by_cases hnm : n = m
    · subst hnm
      refine ⟨hclaim.lt,prompt,Function.update_self ..,?_⟩
      rw [Function.update_self, ← hτ prompt (.ok query) t (by rw [hact])]
    · simp only [Function.update_of_ne hnm]
      exact ih n ((hclaim.settles hnm).live hlive)

/-- What a live slot answers to its own prompt. -/
def ownAnswer (n : ℕ) (arena : MemoryArena (Vec K)) : CheckCacheResponse :=
  let ctrl := (arena.metadata n).loadControl
  if ctrl.state = .pending then ⟨.pending,n,[]⟩
  else ⟨.hit,-1,arena.readPayload ctrl.virtualOffset ctrl.length⟩

theorem ownAnswer_of_vector (hsep : Separated arena) {query : Vec K} (hn : n < l0MaxSlots)
    (hlive : (arena.metadata n).loadControl.state ≠ .dead)
    (hfresh : (arena.metadata n).expired t = false) (hvector : arena.vectors n = query)
    (hunit : Normalized query) :
    ∃ arena', CheckOutcome query t arena (.ok (ownAnswer n arena)) arena' := by
  have hsimilar : Similar query (arena.vectors n) := by
    rw [hvector]
    exact hunit.similar
  have hbest := bestSlot_of_greatest (t := t) hn
    (MetaNode.matchable_of_live hlive (hsep.born n hn) hfresh) hsimilar (by
      intro i hi hne hm
      have hapart := hsep.apart n hn i hi (Ne.symm hne) hlive (MetaNode.live_of_matchable hm)
      rw [hvector] at hapart ⊢
      rw [hunit]
      exact lt_trans (not_similar_iff.mp hapart) exactThreshold_lt_one)
  have habove : atLeast (bestSlot query t arena l0MaxSlots).1 (similarityThreshold : K) = true := by
    rw [hbest]
    exact hsimilar
  by_cases hpending : (arena.metadata n).loadControl.state = .pending
  · rw [ownAnswer, if_pos hpending]
    exact ⟨_,.pending (by rw [hbest]) habove hpending⟩
  · rw [ownAnswer, if_neg hpending]
    refine ⟨_,.hit (by rw [hbest]) habove ?_⟩
    cases hstate : (arena.metadata n).loadControl.state with
    | dead => exact absurd hstate hlive
    | pending => exact absurd hstate hpending
    | ready => exact .inl rfl
    | migrating => exact .inr rfl

/-- In every state the live slots stand for different prompts, and a prompt whose slot is
live and has not expired is answered from this slot: with its payload, or with the
reservation while there is none. Prompts that agree up to their first zero byte are one. -/
theorem prompt_own_slot (hsqrt : IsSqrt sqrt) (hrun : EngineRun es arena)
    (hembed : ∀ τ ∈ es, Embedded sqrt session τ)
    (hclock : ∀ τ ∈ es, ∀ t, clockReading τ = some t → t ≠ 0) :
    (∀ n, (arena.metadata n).loadControl.state ≠ .dead →
      n < l0MaxSlots ∧ ∃ prompt, StandsFor es n prompt) ∧
    (∀ n m prompt prompt', (arena.metadata n).loadControl.state ≠ .dead →
      (arena.metadata m).loadControl.state ≠ .dead → StandsFor es n prompt →
      StandsFor es m prompt' → cString prompt = cString prompt' → n = m) ∧
    ∀ n prompt prompt' t reply arena', (arena.metadata n).loadControl.state ≠ .dead →
      (arena.metadata n).expired t = false → StandsFor es n prompt →
      cString prompt' = cString prompt → prompt' ≠ [] →
      Fires arena (.checkCache prompt' (encode sqrt session prompt') t, reply) arena' →
      reply = .checked (.ok (ownAnswer n arena)) := by
  have hsep := hrun.separated hclock
  have hown : ∀ n prompt, (arena.metadata n).loadControl.state ≠ .dead → StandsFor es n prompt →
      n < l0MaxSlots ∧ encode sqrt session prompt = .ok (arena.vectors n) := by
    intro n prompt hlive hstands
    obtain ⟨hn,given,hgiven,hencode⟩ := standsFor_of_live hrun hembed hlive
    obtain rfl : given = prompt := Option.some.inj (hgiven.symm.trans hstands)
    exact ⟨hn,hencode⟩
  refine ⟨fun n hlive => ?_,?_,?_⟩
  · obtain ⟨hn,prompt,hstands,-⟩ := standsFor_of_live hrun hembed hlive
    exact ⟨hn,prompt,hstands⟩
  · intro n m prompt prompt' hn hm hstands hstands' hsame
    obtain ⟨hnlt,hencode⟩ := hown n prompt hn hstands
    obtain ⟨hmlt,hencode'⟩ := hown m prompt' hm hstands'
    by_contra hne
    rw [encode_congr hsame, hencode', Except.ok.injEq] at hencode
    refine hsep.apart n hnlt m hmlt hne hn hm ?_
    rw [← hencode]
    exact (encode_normalized hsqrt hencode').similar
  · intro n prompt prompt' t reply arena' hlive hfresh hstands hsame hprompt hask
    obtain ⟨hn,hencode⟩ := hown n prompt hlive hstands
    rw [encode_congr hsame, hencode] at hask
    obtain ⟨after,ho⟩ := ownAnswer_of_vector hsep hn hlive hfresh rfl
      (encode_normalized hsqrt hencode)
    exact (Fires.unique hask (fires_checkCache.mpr (ho.checkCache_eq hprompt))).1

end Embedded

/-- A prompt that continues behind a zero byte meets the reservation of its beginning. -/
theorem prompt_own_slot_replay : ∃ (es : List (Step ℝ)) (arena arena' : MemoryArena (Vec ℝ)),
    EngineRun es arena ∧ StandsFor es 0 [1] ∧
      Fires arena (.checkCache [1,0,5] (encode Real.sqrt oneToken [1,0,5]) 1,
        .checked (.ok ⟨.pending,0,[]⟩)) arena' := by
  obtain ⟨arena,hfire,hnode,-⟩ := exists_firstMiss (Pi.single 0 1 : Vec ℝ) 1
  have hstate : (arena.metadata 0).loadControl.state = .pending := by
    rw [hnode]
    decide
  have hrun := Run.single hfire
  have hstands : StandsFor [(⟨freshArena ℝ,(.checkCache [1] (.ok (Pi.single 0 1)) 1,
      .checked (.ok ⟨.miss,0,[]⟩)),arena⟩ : Step ℝ)] 0 [1] := rfl
  obtain ⟨reply,arena',ho⟩ := exists_checkOutcome (Pi.single 0 1 : Vec ℝ) 1 arena
  have hask : Fires arena (.checkCache [1,0,5] (encode Real.sqrt oneToken [1,0,5]) 1,
      .checked reply) arena' := by
    rw [encode_oneToken]
    exact fires_checkCache.mpr (ho.checkCache_eq (by simp))
  have hreply := (prompt_own_slot isSqrt_real hrun
    (by
      simp only [List.mem_singleton, forall_eq]
      rintro prompt embedding t ⟨⟩
      exact (encode_oneToken [1]).symm)
    (by simp [clockReading])).2.2 0 [1] [1,0,5] 1 _ _ (by simp [hstate])
    (by rw [hnode]; decide) hstands (by decide) (by simp) hask
  rw [ownAnswer, if_pos hstate] at hreply
  rw [hreply] at hask
  exact ⟨_,arena,arena',hrun,hstands,hask⟩

end Strix
