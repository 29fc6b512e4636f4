import CLSP.Server.Peers

/-!
# No call is lost

Of two servers that call each other each call that has been sent is in exactly one place: its
request is on its way, the other end owes the response, the response is on its way or in the hands
of the read thread, or its callback is in a task or has been called.
-/

namespace CLSP

open Channel Transition

/-- The ids of the calls of some callbacks. -/
def idsOf (invocations : Multiset Invocation) : Multiset Int32 :=
  invocations.map fun i => callId i.1

section Calls

variable {cfg : Config} {ls : List Label} {s : Server}

/-- Once a callback is registered its call is past the registration. -/
lemma Runs.callPhase_registered (h : Runs cfg ls s) (hcalls : s.senders.length < 2 ^ 32) {k : ℕ}
    {id : Int32} (hmem : .registered k id ∈ ls) : callPhase k ls ≠ .unregistered := by
  rcases List.append_of_mem hmem with ⟨ls₁, ls₂, rfl⟩
  rcases h.split_at with ⟨t, t', hrun, hstep, hrest⟩
  have hlength := hstep.senders_length
  have hlength' := senders_length_of_run hrest
  have hphase : callPhase k (ls₁ ++ [.registered k id]) = .waiting id := by
    cases hstep.of_sender rfl with
    | register _ hcall =>
      rw [callPhase_concat, ((Runs.calls hrun (by omega)).registering _ _ _ _ _ hcall).2.2]
      exact if_pos rfl
  have happ : ls₁ ++ .registered k id :: ls₂ = ls₁ ++ [.registered k id] ++ ls₂ := by simp
  rw [happ]
  clear hrest happ hmem h
  -- a call does not get back to where it has not registered
  induction ls₂ using List.reverseRecOn with
  | nil => simp [hphase]
  | append_singleton ms l ih =>
    rw [← List.append_assoc, callPhase_concat]
    cases hbefore : callPhase k (ls₁ ++ [.registered k id] ++ ms) with
    | unregistered => exact absurd hbefore ih
    | waiting id' =>
      cases l with
      | responseTaken resp id'' found =>
        show (if _ then _ else _) ≠ CallPhase.unregistered
        split <;> simp
      | _ => simp [callStep]
    | answered resp => cases l <;> simp [callStep]

/-- A callback waits in the table from its registration until its response is looked up. -/
lemma Runs.pending_iff (h : Runs cfg ls s) (hcalls : s.senders.length < 2 ^ 32) (k : ℕ) :
    (∃ cb, s.pendingRequests_.lookup (callId k) = some cb ∧ cb.call = k) ↔
      .registered k (callId k) ∈ ls ∧ ∀ i ∈ total Label.matched ls, i.1 ≠ k := by
  have hinv := Runs.calls h hcalls
  have hmatched := hinv.matched k
  constructor
  · rintro ⟨cb, hlookup, rfl⟩
    have hphase := (hinv.pending _ cb hlookup).2
    have hspec := callPhase_spec cb.call ls
    rw [hphase] at hmatched hspec
    rcases hspec with ⟨ls₁, ls₂, rfl, -⟩
    refine ⟨by simp, fun i hi hcall => ?_⟩
    exact Multiset.eq_zero_iff_forall_notMem.mp hmatched i (Multiset.mem_filter.mpr ⟨hi, hcall⟩)
  · rintro ⟨hregistered, hnone⟩
    -- the phase of the call tells where its callback is
    cases hphase : callPhase k ls with
    | unregistered => exact absurd hphase (Runs.callPhase_registered h hcalls hregistered)
    | waiting id =>
      rcases hinv.waiting k id hphase with ⟨cb, hlookup, rfl⟩
      rw [(hinv.pending id cb hlookup).1] at hlookup
      exact ⟨cb, hlookup, rfl⟩
    | answered resp =>
      rw [hphase] at hmatched
      have hfilter : (k, resp.payload, resp.isError) ∈
          (total Label.matched ls).filter fun i => i.1 = k := by
        rw [hmatched]
        exact Multiset.mem_singleton_self _
      exact absurd (Multiset.mem_filter.mp hfilter).2 (hnone _ (Multiset.mem_filter.mp hfilter).1)

end Calls

/-! ## The accounts of the pair -/

section Peers

variable {cfg : End → Config} {ls : List (End × Label)} {p : Linked Server Bytes} {d : End}

/-- The requests that one end has sent are on their way to the other one, owed by it, or answered
by it. -/
lemma PeersRuns.requested (h : PeersRuns cfg ls p) (hwire : Understood cfg ls) (d : End) :
    (total Label.requested (side d ls)).map RequestId.int =
      inFlightCount (cfg d.other).nl ParsedMessage.asks (p.inFlight d.other) +
        (p.ends d.other).owed + total Label.answered (side d.other ls) := by
  have hread := h.received hwire d.other ParsedMessage.asks
  rw [Label.received_asks, Label.parsedAs_asks, End.other_other, ← map_total,
    ← Runs.balance (h.each d.other)] at hread
  rw [← hread]
  abel

/-- The responses that one end is sent are on their way to it, about to be looked up, or looked
up. -/
lemma PeersRuns.answered (h : PeersRuns cfg ls p) (hwire : Understood cfg ls) (d : End)
    (hcalls : (p.ends d).senders.length < 2 ^ 32) :
    total Label.answered (side d.other ls) =
      inFlightCount (cfg d).nl ParsedMessage.responds (p.inFlight d) +
        ((p.ends d).reader.lookingUp + total Label.lookedUp (side d ls)).map RequestId.int := by
  have hread := h.received hwire d ParsedMessage.responds
  rw [Label.parsedAs_responds] at hread
  -- only calls with numbers for ids are answered
  have hint : total (Label.received ParsedMessage.responds) (side d ls) =
      total (fun l => l.responded.map RequestId.int) (side d ls) := by
    refine total_congr fun l hl => ?_
    cases l with
    | read m body msg =>
      cases msg with
      | response resp =>
        rcases h.registered_of_response hwire hcalls (mem_side.mp hl) with ⟨k, hid, -⟩
        simp only [Label.received, ParsedMessage.responds, Label.responded, hid]
        rfl
      | _ => rfl
    | _ => rfl
  rw [hint, ← map_total, ← Runs.lookedUp (h.each d)] at hread
  rw [← hread, add_comm (ReaderPc.lookingUp _), add_comm]

/-- The responses that have been looked up are those whose callback is in a task or has been
called. -/
lemma PeersRuns.lookedUp_eq (h : PeersRuns cfg ls p) (hwire : Understood cfg ls)
    (hcalls : (p.ends d).senders.length < 2 ^ 32) :
    total Label.lookedUp (side d ls) =
      idsOf (p.ends d).invocations + idsOf (total Label.invoked (side d ls)) := by
  have hmatched : total Label.lookedUp (side d ls) = idsOf (total Label.matched (side d ls)) := by
    unfold idsOf
    rw [map_total]
    refine total_congr fun l hl => ?_
    cases l with
    | responseTaken resp id found =>
      rcases h.found_of_taken hwire hcalls (mem_side.mp hl) with ⟨cb, rfl, rfl⟩
      rfl
    | _ => rfl
  rw [hmatched, ← Runs.callbacks (h.each d)]
  unfold idsOf
  rw [Multiset.map_add, add_comm]

/-! ## The result -/

/-- What is expected of the calls of end `d` of two servers. -/
structure CallsConserved (cfg : End → Config) (ls : List (End × Label)) (p : Linked Server Bytes)
    (d : End) : Prop where
  /-- Each call that has been sent is somewhere. -/
  somewhere : (total Label.requested (side d ls)).map RequestId.int =
    inFlightCount (cfg d.other).nl ParsedMessage.asks (p.inFlight d.other) +
      (p.ends d.other).owed +
      inFlightCount (cfg d).nl ParsedMessage.responds (p.inFlight d) +
      ((p.ends d).reader.lookingUp + idsOf (p.ends d).invocations +
        idsOf (total Label.invoked (side d ls))).map RequestId.int
  /-- It is nowhere else. -/
  once : (total Label.requested (side d ls)).Nodup
  /-- The callbacks in the table are those that have been registered, but for those in a task and
  those that have been called. -/
  pending : ∀ k, (∃ cb, (p.ends d).pendingRequests_.lookup (callId k) = some cb ∧ cb.call = k) ↔
    (d, .registered k (callId k)) ∈ ls ∧
      ∀ i ∈ (p.ends d).invocations + total Label.invoked (side d ls), i.1 ≠ k

/-- **No call is lost**, and none is in two places, whatever the threads of the two servers do. -/
theorem calls_conserved (cfg : End → Config) (ls : List (End × Label)) (p : Linked Server Bytes)
    (h : PeersRuns cfg ls p) (hwire : Understood cfg ls) (d : End)
    (hcalls : (p.ends d).senders.length < 2 ^ 32) : CallsConserved cfg ls p d := by
  refine ⟨?_, Runs.requested_nodup (h.each d) hcalls, fun k => ?_⟩
  · rw [h.requested hwire d, h.answered hwire d hcalls, h.lookedUp_eq hwire hcalls, ← add_assoc,
      add_assoc (ReaderPc.lookingUp _)]
  · have hbalance := Runs.callbacks (h.each d)
    rw [Runs.pending_iff (h.each d) hcalls k, ← hbalance, add_comm (total _ _), mem_side]

end Peers

/-- The call of the session has come back. -/
theorem calls_conserved_session :
    Reaches (PeersStep Session.peersConfig) (.start fun d => .start (Session.peersConfig d))
      fun ls p => (.left, .sent Session.askInitialize) ∈ ls ∧
        (.left, .callbackInvoked 0 .null false) ∈ ls ∧
        CallsConserved Session.peersConfig ls p .left := by
  rcases Session.peers_call with ⟨ls, p, hrun, hwire, hlength, hsent, hcalled, -⟩
  refine ⟨ls, p, hrun, hsent, hcalled, ?_⟩
  exact calls_conserved Session.peersConfig ls p hrun hwire .left (by omega)

end CLSP
