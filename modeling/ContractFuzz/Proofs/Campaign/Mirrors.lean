import ContractFuzz.Proofs.Campaign.Runs

namespace ContractFuzz

variable {σ τ ρ α β : Type} {project : τ → σ}

/-- Programs of which the one does to all states what the other does to their projections. -/
def Mirrors (project : τ → σ) (x : StateM τ α) (y : StateM σ α) : Prop :=
  ∀ state, y (project state) = ((x state).1, project (x state).2)

namespace Mirrors

theorem pure (a : α) : Mirrors project (pure a) (pure a) := fun _ => rfl

theorem bind {x : StateM τ α} {y : StateM σ α} {f : α → StateM τ β} {g : α → StateM σ β}
    (h : Mirrors project x y) (hnext : ∀ a, Mirrors project (f a) (g a)) :
    Mirrors project (x >>= f) (y >>= g) := by
  intro state
  rw [bind_apply, bind_apply, h state]
  exact hnext _ _

end Mirrors

/-- Clients that answer the requests of a campaign alike. -/
structure Client.Mirrors (project : τ → σ) (client : Client (StateM τ))
    (plain : Client (StateM σ)) : Prop where
  invoke : ∀ call, ContractFuzz.Mirrors project (client.invoke call) (plain.invoke call)
  query : ∀ call, ContractFuzz.Mirrors project (client.query call) (plain.query call)
  restore : ∀ handle, ContractFuzz.Mirrors project (client.restore handle) (plain.restore handle)

variable {client : Client (StateM τ)} {plain : Client (StateM σ)}

section Requests

variable (hclient : client.Mirrors project plain)

include hclient

theorem Oracle.queryProperties_mirrors (target : InstanceId) (sender : Felt) (names : List String)
    (coverage : Coverage) :
    Mirrors project (queryProperties client target sender names coverage)
      (queryProperties plain target sender names coverage) := by
  induction names generalizing coverage with
  | nil => exact .pure _
  | cons name rest ih =>
      refine .bind (hclient.query _) ?_
      rintro (⟨r | fault⟩ | frame)
      · exact ih coverage
      · exact .pure _
      · refine .bind (ih _) ?_
        rintro ⟨result, coverage⟩
        dsimp only
        split
        · exact .pure _
        · exact .pure _

theorem Oracle.inspectState_mirrors (oracle : Oracle) (live : Obligations) (coverage : Coverage) :
    Mirrors project (oracle.inspectState client live coverage)
      (oracle.inspectState plain live coverage) := by
  cases oracle with
  | properties target sender => exact queryProperties_mirrors hclient target sender _ coverage
  | exceptions signatures => exact .pure _

theorem Replay.run_mirrors (site : Site) (stops : Revert → Bool) (sequence : List RecordedCall) :
    Mirrors project (run client site stops sequence) (run plain site stops sequence) := by
  refine .bind (hclient.restore _) ?_
  rintro (e | ⟨⟩)
  · exact .pure _
  change Mirrors project (calls client site.target stops sequence)
    (calls plain site.target stops sequence)
  induction sequence with
  | nil => exact .pure _
  | cons step rest ih =>
      refine .bind (hclient.invoke _) ?_
      rintro (⟨r | fault⟩ | frame)
      · dsimp only
        split
        · exact .pure _
        · exact .bind ih fun _ => .pure _
      · exact .pure _
      · exact .bind ih fun _ => .pure _

namespace Shrinking

variable (site : Site) (goal : Goal)

theorem reproduces_mirrors (sequence : List RecordedCall) (coverage : Coverage) :
    Mirrors project (reproduces client site goal sequence coverage)
      (reproduces plain site goal sequence coverage) := by
  refine .bind (Replay.run_mirrors hclient site goal.isShownBy sequence) ?_
  rintro (e | replay)
  · exact .pure _
  · dsimp only
    split
    · exact .pure _
    · exact .bind (Oracle.inspectState_mirrors hclient _ _ _) fun _ => .pure _

theorem prune_mirrors (kept pending : List RecordedCall) (coverage : Coverage) :
    Mirrors project (prune client site goal kept pending coverage)
      (prune plain site goal kept pending coverage) := by
  induction pending generalizing kept coverage with
  | nil => exact .pure _
  | cons step pending ih =>
      refine .bind (reproduces_mirrors hclient site goal _ coverage) ?_
      rintro ⟨e | _ | _, coverage⟩
      · exact .pure _
      · exact ih _ coverage
      · exact ih _ coverage

theorem shrink_mirrors (sequence : List RecordedCall) (coverage : Coverage) :
    Mirrors project (shrink client site goal sequence coverage)
      (shrink plain site goal sequence coverage) := by
  refine .bind (prune_mirrors hclient site goal [] sequence coverage) ?_
  rintro ⟨e | shorter, coverage⟩
  · exact .pure _
  · exact .pure _

end Shrinking

namespace Campaign

variable (campaign : Campaign ρ)

theorem makeCalls_mirrors (count : Nat) (made : List RecordedCall) (progress : Progress ρ) :
    Mirrors project (campaign.makeCalls client count made progress)
      (campaign.makeCalls plain count made progress) := by
  induction count generalizing made progress with
  | zero => exact .pure _
  | succ count ih =>
      rw [makeCalls, makeCalls]
      split
      · exact .pure _
      refine .bind (hclient.invoke _) ?_
      rintro (⟨r | fault⟩ | frame)
      · dsimp only
        split
        · exact .pure _
        · exact ih _ _
      · exact .pure _
      · refine .bind (Oracle.inspectState_mirrors hclient _ _ _) ?_
        rintro ⟨e | _ | ⟨violation, others⟩, coverage⟩
        · exact .pure _
        · exact ih _ _
        · exact .pure _

theorem iterate_mirrors (progress : Progress ρ) :
    Mirrors project (campaign.iterate client progress) (campaign.iterate plain progress) := by
  refine .bind (hclient.restore _) ?_
  rintro (e | ⟨⟩)
  · exact .pure _
  refine .bind (makeCalls_mirrors hclient campaign _ _ progress) ?_
  rintro ⟨e | _ | detection, after⟩
  · exact .pure _
  · exact .pure _
  · dsimp only
    split
    · exact .pure _
    · exact .pure _

theorem settle_mirrors (detection : Detection) (progress : Progress ρ) :
    Mirrors project (campaign.settle client detection progress)
      (campaign.settle plain detection progress) := by
  rw [settle, settle]
  split
  · exact .bind (Shrinking.shrink_mirrors hclient _ _ _ _) fun _ => .pure _
  · exact .pure _

theorem step_mirrors (state : State ρ) :
    Mirrors project (campaign.step client state) (campaign.step plain state) := by
  refine .bind (iterate_mirrors hclient campaign _) ?_
  rintro ⟨e | _ | detection, progress⟩
  · exact .pure _
  · exact .pure _
  · refine .bind (settle_mirrors hclient campaign detection progress) ?_
    rintro ⟨e | sequence, settled⟩
    · exact .pure _
    · exact .pure _

variable {observe : Log → StateM τ Unit} {plainly : Log → StateM σ Unit}
  (hobserve : ∀ log, Mirrors project (observe log) (plainly log))

include hobserve

theorem loop_mirrors (limited : Bool) (budget : Nat) (state : State ρ) :
    Mirrors project (campaign.loop client observe limited budget state)
      (campaign.loop plain plainly limited budget state) := by
  have hclose (state : State ρ) (message : String) :
      Mirrors project (close observe state message) (close plainly state message) :=
    .bind (hobserve _) fun _ => .pure _
  induction budget generalizing state with
  | zero =>
      rw [loop, loop]
      split
      · exact hclose _ _
      · split
        · exact hclose _ _
        · exact .pure _
  | succ budget ih =>
      rw [loop, loop]
      split
      · exact hclose _ _
      · refine .bind (step_mirrors hclient campaign state) ?_
        rintro ⟨result, next⟩
        refine .bind (hobserve _) fun _ => ?_
        cases result with
        | error e => exact .pure _
        | ok => exact ih next

theorem runObserved_mirrors (config : Config) (deployment : Deployment) (targetName : String)
    (coverage : Coverage) :
    Mirrors project (runObserved client observe config deployment targetName coverage)
      (runObserved plain plainly config deployment targetName coverage) := by
  rcases hprepare : prepare config deployment coverage with ⟨e | ⟨campaign, state⟩, log⟩
  · simp only [runObserved, hprepare]
    exact .bind (hobserve log) fun _ => .pure _
  · simp only [runObserved, hprepare]
    refine .bind (hobserve log) fun _ => ?_
    exact .bind (loop_mirrors hclient campaign hobserve _ _ _) fun _ => .pure _

end Campaign

end Requests

end ContractFuzz
