import ContractFuzz.Proofs.Campaign.Runs

namespace ContractFuzz.Campaign

/-- Deploy contracts and run a campaign against the deployment. -/
def session {m : Type → Type} [Monad m] (client : Client m) (config : Config) (target : Artifact)
    (declared : List Artifact) (targetName : String) (coverage : Coverage) :
    m (Except SetupError RunOutcome) := do
  let (setup, coverage, _) ← Deployment.deploy client target declared config.schemaOptions coverage
  match setup with
  | .error e => return .error e
  | .ok deployment => return .ok (← run client config deployment targetName coverage)

variable {σ : Type}

/-- The report of a session, if it ends with one. -/
def sessionReport? (client : Client (StateM σ)) (config : Config) (target : Artifact)
    (declared : List Artifact) (targetName : String) (coverage : Coverage) (world : σ) :
    Option Report :=
  match (session client config target declared targetName coverage world).1 with
  | .ok ⟨.ok report, _, _⟩ => some report
  | _ => none

theorem sessionReport?_eq_some_iff {client : Client (StateM σ)} {config : Config}
    {target : Artifact} {declared : List Artifact} {targetName : String} {coverage : Coverage}
    {world : σ} {report : Report} :
    sessionReport? client config target declared targetName coverage world = some report ↔
      ∃ deployment covered log deployed,
        Deployment.deploy client target declared config.schemaOptions coverage world =
          ((.ok deployment, covered, log), deployed) ∧
        (run client config deployment targetName covered deployed).1.result = .ok report := by
  rcases hdeploy : Deployment.deploy client target declared config.schemaOptions coverage world with
    ⟨⟨e | deployment, covered, log⟩, deployed⟩
  · simp only [sessionReport?, session, bind_apply, pure_apply, hdeploy]
    constructor
    · intro h
      cases h
    · rintro ⟨_, _, _, _, hdeployed, -⟩
      cases hdeployed
  · rcases hrun : run client config deployment targetName covered deployed with
      ⟨⟨result, reached, records⟩, last⟩
    simp only [sessionReport?, session, bind_apply, pure_apply, hdeploy, hrun]
    constructor
    · intro h
      refine ⟨deployment, covered, log, deployed, rfl, ?_⟩
      rw [hrun]
      cases result with
      | error e => cases h
      | ok reported => exact congrArg Except.ok (Option.some.inj h)
    · rintro ⟨_, _, _, _, hdeployed, hreport⟩
      cases hdeployed
      rw [hrun] at hreport
      obtain rfl : result = .ok report := hreport
      rfl

end ContractFuzz.Campaign
