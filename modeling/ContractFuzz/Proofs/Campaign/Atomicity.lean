import ContractFuzz.Proofs.Campaign.Accounting
import ContractFuzz.Proofs.Campaign.Growth
import ContractFuzz.Proofs.Campaign.Recurrence

namespace ContractFuzz

open Coverage (Within)

variable {σ ρ : Type} {client : Client (StateM σ)}

theorem Shrinking.shrink_live_of_error {site : Site} {goal : Goal} {sequence : List RecordedCall}
    {coverage after : Coverage} {live : Obligations} {world last : σ} {e : CampaignError}
    (h : shrink client site goal sequence coverage world = ((.error e, live, after), last)) :
    live = goal.live := by
  rcases hprune : prune client site goal [] sequence coverage world with
    ⟨⟨cause | shorter, covered⟩, next⟩
  all_goals
    simp only [shrink, bind_apply, pure_apply, hprune] at h
    cases h
  rfl

namespace Campaign

variable {campaign : Campaign ρ} {progress after : Progress ρ} {world last : σ}

theorem Iterates.live_of_error {e : CampaignError}
    (run : Iterates campaign client progress world (.error e) after last) :
    after.live = progress.live := by
  cases run with
  | unrestored => rfl
  | fails _ made => exact (makes made).live

/-- What an iteration may do to the obligations: it discharges what a detection violates, all of
which was live, if nothing is left to be done about the detection; otherwise it leaves them alone. -/
def Discharges (campaign : Campaign ρ) (live after : Obligations) :
    Except CampaignError (Option Detection) → Prop
  | .ok (some detection) =>
      if campaign.shrinks then after = live
      else
        (detection.violations.map Violation.obligation).Sublist live.live ∧
          after.live = live.live.filter (· ∉ detection.violations.map Violation.obligation)
  | .ok none => after = live
  | .error _ => after = live

theorem Iterates.discharges {result : Except CampaignError (Option Detection)}
    (run : Iterates campaign client progress world result after last) :
    campaign.Discharges progress.live after.live result := by
  rcases result with e | _ | detection
  · exact run.live_of_error
  · exact run.live_of_none
  · obtain ⟨hbreaks, hlive⟩ := run.breaks
    rw [Discharges]
    by_cases hshrinks : campaign.shrinks = true
    · rw [if_pos hshrinks] at hlive ⊢
      exact hlive
    · rw [if_neg hshrinks] at hlive ⊢
      refine ⟨hbreaks.named, ?_⟩
      rw [hlive, Obligations.live_discharge]

/-- Obligations are as live after a shrinking that fails as they were before it, and so they are
after an iteration, unless it detects violations and does not leave them to shrinking: then exactly
these are discharged. In no case is anything lost that has been covered. -/
theorem failures_discharge_nothing (client : Client (StateM σ)) :
    (∀ site goal sequence coverage world e live after last,
      Shrinking.shrink client site goal sequence coverage world = ((.error e, live, after), last) →
        live = goal.live ∧ Within coverage after) ∧
    ∀ (campaign : Campaign ρ) progress world result after last,
      campaign.iterate client progress world = ((result, after), last) →
        campaign.Discharges progress.live after.live result ∧
          Within progress.coverage after.coverage := by
  constructor
  · intro site goal sequence coverage world e live after last h
    exact ⟨Shrinking.shrink_live_of_error h, Shrinking.shrink_within h⟩
  · intro campaign progress world result after last h
    exact ⟨(iterates h).discharges, (iterates h).within⟩

/-- A client that has so many answers left, each query being answered with a zero. -/
def brittleClient : Client (StateM Nat) :=
  let answer {α : Type} (found : Nat → α) : StateM Nat (Except ExecutionError α)
    | 0 => (.error (.client (.reported "worn out")), 0)
    | left + 1 => (.ok (found left), left)
  let frame (call : Invocation) (left : Nat) : Frame :=
    ⟨call.target, none, call.entryPoint, [0], [], .ofList [left], []⟩
  { deploy := fun _ _ => answer fun _ => default
    declare := fun _ => answer id
    invoke := fun call => answer (frame call)
    query := fun call => answer (frame call)
    snapshot := answer StateHandle.mk
    restore := fun _ => answer fun _ => () }

def brittleCampaign : Campaign Nat :=
  { alarmCampaign with
    site := ⟨1, ⟨0⟩⟩
    schema := ⟨[⟨"f", [], .mutating⟩], [], .empty, .empty⟩
    oracle := .properties 1 0
    sequenceLength := 3 }

def brittleStart : Progress Nat := ⟨0, .ofList ["p", "q"], .empty⟩

def brittleGoal : Goal :=
  ⟨brittleCampaign.oracle, brittleStart.live, [.property "p" [], .property "q" []]⟩

def brittleCalls : List RecordedCall := .replicate 3 ⟨⟨0, "f", [], .external, none⟩, []⟩

/-- What a campaign fails with when the query of a property is not answered any more. -/
def wornOut (property : String) : CampaignError :=
  .ofExecution (.querying property) (.client (.reported "worn out"))

theorem failures_discharge_nothing_brittle :
    (∃ live after last,
      Shrinking.shrink brittleClient brittleCampaign.site brittleGoal brittleCalls .empty 7 =
        ((.error (wornOut "p"), live, after), last) ∧
      live = brittleStart.live ∧ Within .empty after) ∧
    ∃ after last,
      brittleCampaign.iterate brittleClient brittleStart 3 =
        ((.error (wornOut "q"), after), last) ∧
      after.live = brittleStart.live ∧ Within brittleStart.coverage after.coverage := by
  obtain ⟨hshrinks, hiterates⟩ := @failures_discharge_nothing Nat Nat brittleClient
  have htrial : (Shrinking.shrink brittleClient brittleCampaign.site brittleGoal brittleCalls
      .empty 7).1.1 = .error (wornOut "p") := by decide +kernel
  have hcall : (brittleCampaign.iterate brittleClient brittleStart 3).1.1 =
      .error (wornOut "q") := by decide +kernel
  have hshrink := Prod.ext (Prod.ext htrial rfl) rfl
  have hiterate := Prod.ext (Prod.ext hcall rfl) rfl
  exact ⟨⟨_, _, _, hshrink, hshrinks _ _ _ _ _ _ _ _ _ hshrink⟩,
    _, _, hiterate, hiterates _ _ _ _ _ _ hiterate⟩

end Campaign

end ContractFuzz
