import ContractFuzz.Proofs.Campaign.Trials
import ContractFuzz.Proofs.Coverage

namespace ContractFuzz

open Coverage

variable {σ : Type} {client : Client (StateM σ)} {coverage after : Coverage} {world last : σ}

namespace Oracle

theorem Queries.within {target : InstanceId} {sender : Felt} {names : List String}
    {result : Except CampaignError (List Violation)}
    (run : Queries client target sender names coverage world result after last) :
    Within coverage after := by
  induction run with
  | done | fails => exact .refl _
  | reverts _ _ ih => exact ih
  | holds _ _ _ ih => exact (within_after _ _).trans ih
  | breaks _ _ _ ih => exact (within_after _ _).trans ih

theorem inspectState_within {oracle : Oracle} {live : Obligations}
    {result : Except CampaignError (List Violation)}
    (h : oracle.inspectState client live coverage world = ((result, after), last)) :
    Within coverage after := by
  cases oracle with
  | properties target sender =>
      have run : Queries client target sender live.live coverage world _ _ _ := queries h
      exact run.within
  | exceptions signatures =>
      cases h
      exact .refl coverage

end Oracle

namespace Shrinking

variable {site : Site} {goal : Goal}

theorem reproduces_within {sequence : List RecordedCall} {result : Except CampaignError Bool}
    (h : reproduces client site goal sequence coverage world = ((result, after), last)) :
    Within coverage after := by
  rcases hrun : Replay.run client site goal.isShownBy sequence world with ⟨e | replay, next⟩
  · simp only [reproduces, bind_apply, pure_apply, hrun] at h
    cases h
    exact .refl coverage
  · simp only [reproduces, bind_apply, hrun] at h
    split at h
    · cases h
      exact .refl coverage
    · rcases hinspect : goal.oracle.inspectState client goal.live coverage next with
        ⟨⟨found, covered⟩, ended⟩
      simp only [bind_apply, pure_apply, hinspect] at h
      cases h
      exact Oracle.inspectState_within hinspect

theorem shrink_within {sequence : List RecordedCall}
    {result : Except CampaignError (List RecordedCall)} {live : Obligations}
    (h : shrink client site goal sequence coverage world = ((result, live, after), last)) :
    Within coverage after :=
  (shrink_ends h).preserves (fun covered _ => Within coverage covered)
    (fun _ _ _ _ _ _ hcovered htrial => hcovered.trans (reproduces_within htrial)) (.refl coverage)

end Shrinking

namespace Campaign

variable {ρ : Type} {campaign : Campaign ρ} {progress reached : Progress ρ}
  {result : Except CampaignError (Option Detection)}

theorem Makes.within {count : Nat} {made : List RecordedCall}
    (run : Makes campaign client count made progress world result reached last) :
    Within progress.coverage reached.coverage := by
  induction run with
  | done | ungenerated | fails | raises => exact .refl _
  | reverts _ _ _ _ ih => exact ih
  | uninspected _ _ inspected | violates _ _ inspected =>
      exact (within_after _ _).trans (Oracle.inspectState_within inspected)
  | passes _ _ inspected _ ih =>
      have hinspected := (within_after _ _).trans (Oracle.inspectState_within inspected)
      exact hinspected.trans ih

theorem Iterates.within (run : Iterates campaign client progress world result reached last) :
    Within progress.coverage reached.coverage := by
  cases run with
  | unrestored => exact .refl _
  | fails _ made | passes _ made | detects _ made => exact (makes made).within

end Campaign

end ContractFuzz
