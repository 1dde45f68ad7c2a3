import Strix.Semantic.ReadWrite

/-! # Late write-backs of the gateway (strix.go)

A request of the gateway that is answered with a reservation may write the
LLM's answer back under that slot at any later time. The engine does not know
which query a write-back belongs to, so the slot may have been handed to
another query in between.
-/
namespace Strix
open RunHistory Scoring

inductive GatewayCall (K : Type*)
  | ask (client : ℕ) (prompt : List UInt8) (embedding : Except String (Vec K)) (currTime : UInt64)
  | writeBack (client : ℕ) (payload : List UInt8)
  | collect

/-- The engine, and for each client the slot it may fill and the query it asked. -/
structure Gateway (K : Type*) where
  arena : MemoryArena (Vec K)
  tickets : ℕ → Option (ℕ × Vec K)

section Model
variable {K : Type*}

def GatewayCall.client : GatewayCall K → Option ℕ
  | .ask client _ _ _ => some client
  | .writeBack client _ => some client
  | .collect => none

/-- A `MISS` or `PENDING` with a slot allows a write-back. -/
def ticketOf (query : Vec K) : Reply → Option (ℕ × Vec K)
  | .checked (.ok response) =>
    if (response.checkState = .miss ∨ response.checkState = .pending) ∧ 0 ≤ response.nodeId then
      some (response.nodeId.toNat, query)
    else none
  | _ => none

def engineCall (g : Gateway K) : GatewayCall K → Call K
  | .ask _ prompt embedding currTime => .checkCache prompt embedding currTime
  | .writeBack client payload => .setCache ((g.tickets client).elim (-1) fun p => p.1) payload
  | .collect => .collect

/-- A step of the gateway is a call of the engine; a client without a ticket does
not write back. -/
def GatewayFires [Scoring K] (g : Gateway K) (act : GatewayCall K × Reply) (g' : Gateway K) :
    Prop :=
  Fires g.arena (engineCall g act.1, act.2) g'.arena ∧
    match act.1 with
    | .ask client _ (.ok query) _ =>
      g'.tickets = Function.update g.tickets client (ticketOf query act.2)
    | .writeBack client _ =>
      g.tickets client ≠ none ∧ g'.tickets = Function.update g.tickets client none
    | _ => g'.tickets = g.tickets

variable (K) in
def freshGateway [Scoring K] : Gateway K := ⟨freshArena K,fun _ => none⟩

abbrev GatewayStep (K : Type*) := Transition (Gateway K) (GatewayCall K × Reply)

def engineStep (τ : GatewayStep K) : Step K :=
  ⟨τ.before.arena,(engineCall τ.before τ.act.1,τ.act.2),τ.after.arena⟩

end Model

section Runs
variable {K : Type*} [Scoring K] {es : List (GatewayStep K)} {g g' : Gateway K} {client n : ℕ}
  {query : Vec K}

theorem ask_fires (client : ℕ) {prompt : List UInt8} {t : UInt64} {reply : Reply}
    {arena' : MemoryArena (Vec K)}
    (h : Fires g.arena (.checkCache prompt (.ok query) t, reply) arena') :
    GatewayFires g (.ask client prompt (.ok query) t, reply)
      ⟨arena',Function.update g.tickets client (ticketOf query reply)⟩ := ⟨h,rfl⟩

theorem writeBack_fires (client n : ℕ) (query : Vec K) {payload : List UInt8} {reply : Reply}
    {arena' : MemoryArena (Vec K)}
    (hticket : g.tickets client = some (n, query))
    (h : Fires g.arena (.setCache n payload, reply) arena') :
    GatewayFires g (.writeBack client payload, reply)
      ⟨arena',Function.update g.tickets client none⟩ :=
  ⟨by simpa only [engineCall, hticket, Option.elim_some] using h,by simp [hticket],rfl⟩

theorem engine_run (hrun : Run GatewayFires g es g') :
    Run Fires g.arena (es.map engineStep) g'.arena :=
  hrun.map Gateway.arena (fun τ => (engineCall τ.before τ.act.1,τ.act.2)) fun _ h => h.1

theorem tickets_eq (hrun : Run GatewayFires g es g')
    (hother : ∀ υ ∈ es, υ.act.1.client ≠ some client) : g'.tickets client = g.tickets client := by
  refine hrun.frame (fun u => u.tickets client) ?_ hother
  rintro ⟨u,⟨call,reply⟩,v⟩ ⟨-,htickets⟩ hne
  cases call with
  | ask c prompt embedding t =>
    have hc : client ≠ c := fun h => hne (congrArg some h.symm)
    cases embedding with
    | error what => exact congrFun htickets client
    | ok query => exact (congrFun htickets client).trans (Function.update_of_ne hc _ _)
  | writeBack c payload =>
    have hc : client ≠ c := fun h => hne (congrArg some h.symm)
    exact (congrFun htickets.2 client).trans (Function.update_of_ne hc _ _)
  | collect => exact congrFun htickets client

end Runs

section Late
variable {K : Type*} [Field K] [LinearOrder K] [IsStrictOrderedRing K]
  {es₁ es₂ es₃ : List (GatewayStep K)} {τ σ : GatewayStep K} {g : Gateway K} {client n : ℕ}
  {query : Vec K} {prompt payload : List UInt8} {t : UInt64} {state : CacheState}

theorem similar_of_ticket {arena arena' : MemoryArena (Vec K)} (hunit : Normalized query)
    (hstate : state = .miss ∨ state = .pending)
    (h : Fires arena (.checkCache prompt (.ok query) t, .checked (.ok ⟨state,n,[]⟩)) arena') :
    Similar query (arena'.vectors n) := by
  rcases hstate with rfl | rfl
  · rw [(claimed_of_miss h).vectors, Function.update_self]
    exact hunit.similar
  · rw [fires_checkCache] at h
    rcases checkCache_cases h with ⟨⟨_,hstatus⟩,-⟩ | ⟨query',hquery,-,ho⟩
    · cases hstatus
    obtain rfl := Except.ok.inj hquery
    obtain ⟨m,hm,hsimilar,rfl⟩ := ho.of_pending rfl
    obtain rfl : n = m := by simpa using hm
    exact hsimilar

/-- A successful write-back goes to a slot that is similar to its query exactly
when the last query that has claimed the slot since, if any, is. -/
theorem writeBack_similar_iff
    (hrun : Run GatewayFires (freshGateway K) (es₁ ++ τ :: (es₂ ++ σ :: es₃)) g)
    (hunit : Normalized query)
    (hasked : τ.act = (.ask client prompt (.ok query) t, .checked (.ok ⟨state,n,[]⟩)))
    (hstate : state = .miss ∨ state = .pending)
    (hown : ∀ υ ∈ es₂, υ.act.1.client ≠ some client)
    (hstored : σ.act = (.writeBack client payload, .stored (.ok true))) :
    Similar query (σ.after.arena.vectors n) ↔
      ∀ query', latest claims (es₂.map engineStep) n = some query' → Similar query query' := by
  obtain ⟨-,hτ,hrest⟩ := hrun.split_at
  obtain ⟨hes₂,hσ,-⟩ := hrest.split_at
  rw [hasked] at hτ
  rw [hstored] at hσ
  have hticket : σ.before.tickets client = some (n, query) := by
    rw [tickets_eq hes₂ hown, hτ.2, Function.update_self]
    simp [ticketOf, hstate]
  have hset := hσ.1
  simp only [engineCall, hticket, Option.elim_some, fires_setCache] at hset
  have hsimilar := similar_of_ticket hunit hstate hτ.1
  rw [(setCache_effect hset).1, vectors_eq_latest (engine_run hes₂)]
  cases hlast : latest claims (es₂.map engineStep) n with
  | none => simpa using hsimilar
  | some query' => simp

end Late

section Replay

/-- The first client's reservation expires while its answer is on the way, and the
slot is handed to another query. -/
theorem exists_handover (query : Vec ℚ) : ∃ (τ β σ : GatewayStep ℚ) (g : Gateway ℚ),
    Run GatewayFires (freshGateway ℚ) [τ, β, σ] g ∧ σ.after = g ∧
      τ.act = (.ask 0 [1] (.ok (axis 0)) 1, .checked (.ok ⟨.miss,0,[]⟩)) ∧
      β.act = (.ask 1 [1] (.ok query) 32, .checked (.ok ⟨.miss,0,[]⟩)) ∧
      σ.act = (.writeBack 0 [7], .stored (.ok true)) ∧ g.arena.vectors 0 = query := by
  have hw := oneByte_wellFormed
  obtain ⟨one,hone,hnode,hother,-,hbuf,hhead,htail⟩ := exists_firstMiss (axis 0 : Vec ℚ) 1
  obtain ⟨two,three,htwo,hthree,hvec,-⟩ := exists_reclaim query hw
    ((liveRing_initial (V := Vec ℚ) 0).congr hbuf hhead htail) hnode hother
  have hrun := ((Run.single (ask_fires (g := freshGateway ℚ) 0 hone)).snoc
    (ask_fires 1 htwo)).snoc
    (writeBack_fires 0 0 (axis 0) (by simp [ticketOf]) hthree)
  exact ⟨_,_,_,_,hrun,rfl,rfl,rfl,rfl,hvec⟩

/-- The slot is handed to an orthogonal query. -/
theorem writeBack_crosses : ∃ (es : List (GatewayStep ℚ)) (g : Gateway ℚ),
    Run GatewayFires (freshGateway ℚ) es g ∧
      es.map (fun τ => τ.act) =
        [(.ask 0 [1] (.ok (axis 0)) 1, .checked (.ok ⟨.miss,0,[]⟩)),
          (.ask 1 [1] (.ok (axis 1)) 32, .checked (.ok ⟨.miss,0,[]⟩)),
          (.writeBack 0 [7], .stored (.ok true))] ∧
      ¬ Similar (axis 0) (g.arena.vectors 0) := by
  obtain ⟨τ,β,σ,g,hrun,-,hτ,hβ,hσ,hvec⟩ := exists_handover (axis 1)
  refine ⟨_,g,hrun,by simp [hτ, hβ, hσ],?_⟩
  rw [hvec]
  exact axis_not_similar (by decide)

/-- The slot is handed to a query close to the one whose answer is on the way. -/
theorem writeBack_similar_replay : ∃ (τ β σ : GatewayStep ℚ) (g : Gateway ℚ),
    Run GatewayFires (freshGateway ℚ) [τ, β, σ] g ∧
      latest claims ([β].map engineStep) 0 = some tilted ∧
      Similar (axis 0) (g.arena.vectors 0) := by
  obtain ⟨τ,β,σ,g,hrun,rfl,hτ,hβ,hσ,-⟩ := exists_handover tilted
  have hclaimed : latest claims ([β].map engineStep) 0 = some tilted := by
    simp [latest, record, claims, engineStep, engineCall, hβ]
  refine ⟨τ,β,σ,_,hrun,hclaimed,?_⟩
  refine (@writeBack_similar_iff ℚ _ _ _ [] [β] [] τ σ _ 0 0 _ _ _ _ _ hrun (axis_normalized 0) hτ
    (.inl rfl) (by simp [hβ, GatewayCall.client]) hσ).mpr ?_
  rw [hclaimed]
  rintro _ ⟨⟩
  exact axis_similar_tilted

end Replay

end Strix
