import ContractFuzz.Proofs.Campaign.Runs
import ContractFuzz.Proofs.Schema.Surface

namespace ContractFuzz.Deployment

variable {σ : Type} {client : Client (StateM σ)} {target : Artifact} {declared : List Artifact}
  {options : SchemaOptions} {deployment : Deployment} {log : Log} {world deployed : σ}

theorem survey_eq_ok {instanceId : InstanceId} {classHash : ClassHash} {classes : ClassTable}
    (h : survey client target declared options instanceId classHash classes world =
      ((.ok deployment, log), deployed)) :
    ∃ schema baseline,
      (Schema.discover target.abi (declared.map Artifact.abi) options).1 = .ok schema ∧
      client.snapshot world = (.ok baseline, deployed) ∧
      deployment = ⟨instanceId, classHash, schema, baseline, classes,
        diagnosticsOf (target :: declared)⟩ := by
  rcases hdiscover : Schema.discover target.abi (declared.map Artifact.abi) options with
    ⟨e | schema, warnings⟩
  · simp only [survey, hdiscover, pure_apply] at h
    cases h
  · simp only [survey, hdiscover] at h
    split at h
    · cases h
    · rcases hsnapshot : client.snapshot world with ⟨e | baseline, next⟩
      all_goals
        simp only [bind_apply, pure_apply, hsnapshot] at h
        cases h
      exact ⟨schema, baseline, rfl, rfl, rfl⟩

theorem deploy_eq_ok {coverage covered : Coverage}
    (h : deploy client target declared options coverage world =
      ((.ok deployment, covered, log), deployed)) :
    ∃ classes frame classHash schema baseline ready constructed known,
      declareAll client declared .empty world = (.ok classes, ready) ∧
      client.deploy target [] ready = (.ok frame, constructed) ∧
      classOf client target frame constructed = (.ok classHash, known) ∧
      (Schema.discover target.abi (declared.map Artifact.abi) options).1 = .ok schema ∧
      client.snapshot known = (.ok baseline, deployed) ∧
      deployment = ⟨frame.contractAddress, classHash, schema, baseline,
        classes.insert classHash target, diagnosticsOf (target :: declared)⟩ := by
  rcases hcheck : checkConstructor target with e | ⟨⟩
  · simp only [deploy, hcheck, pure_apply] at h
    cases h
  rcases hdeclare : declareAll client declared .empty world with ⟨e | classes, ready⟩
  · simp only [deploy, hcheck, bind_apply, pure_apply, hdeclare] at h
    cases h
  simp only [deploy, hcheck, bind_apply, hdeclare] at h
  rcases hdeploy : client.deploy target [] ready with ⟨⟨r | fault⟩ | frame, constructed⟩
  · simp only [deployDeclared, bind_apply, pure_apply, hdeploy] at h
    cases h
  · simp only [deployDeclared, bind_apply, pure_apply, hdeploy] at h
    cases h
  rcases hclass : classOf client target frame constructed with ⟨e | classHash, known⟩
  · simp only [deployDeclared, bind_apply, pure_apply, hdeploy, hclass] at h
    cases h
  rcases hsurvey : survey client target declared options frame.contractAddress classHash
    (classes.insert classHash target) known with ⟨⟨result, records⟩, last⟩
  simp only [deployDeclared, bind_apply, pure_apply, hdeploy, hclass, hsurvey] at h
  cases h
  obtain ⟨schema, baseline, hdiscover, hsnapshot, hdeployment⟩ := survey_eq_ok hsurvey
  exact ⟨classes, frame, classHash, schema, baseline, ready, constructed, known, rfl, hdeploy,
    hclass, hdiscover, hsnapshot, hdeployment⟩

theorem foundIn_of_deploy {coverage covered : Coverage}
    (h : deploy client target declared options coverage world =
      ((.ok deployment, covered, log), deployed)) :
    deployment.schema.FoundIn options target.abi := by
  obtain ⟨classes, frame, classHash, schema, baseline, ready, constructed, known, -, -, -,
    hdiscover, -, rfl⟩ := deploy_eq_ok h
  exact Schema.discover_foundIn hdiscover

end ContractFuzz.Deployment
