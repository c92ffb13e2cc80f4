import ContractFuzz.Proofs.Campaign.Accounting
import ContractFuzz.Proofs.Campaign.Trials

namespace ContractFuzz

variable {σ : Type} {client : Client (StateM σ)}

namespace Campaign

variable {ρ : Type} {campaign : Campaign ρ}

theorem settle_sublist {detection : Detection} {progress after : Progress ρ} {world last : σ}
    {sequence : List RecordedCall}
    (h : campaign.settle client detection progress world = ((.ok sequence, after), last)) :
    sequence.Sublist detection.sequence ∧
      (campaign.shrinks = false → sequence = detection.sequence) := by
  cases hshrinks : campaign.shrinks
  · simp only [settle, hshrinks] at h
    cases h
    exact ⟨List.Sublist.refl _, fun _ => rfl⟩
  · rcases hshrink : Shrinking.shrink client campaign.site
      ⟨campaign.oracle, progress.live, detection.violations⟩ detection.sequence progress.coverage
      world with ⟨⟨e | shorter, live, covered⟩, next⟩
    all_goals
      simp only [settle, hshrinks, if_true, bind_apply, pure_apply, hshrink] at h
      cases h
    refine ⟨Shrinking.shrink_sublist hshrink, ?_⟩
    intro hkept
    cases hkept

theorem Makes.length_bounds {count : Nat} {made : List RecordedCall} {progress after : Progress ρ}
    {world last : σ} {result : Except CampaignError (Option Detection)}
    (run : Makes campaign client count made progress world result after last)
    {detection : Detection} (hresult : result = .ok (some detection)) :
    made.length < detection.sequence.length ∧
      detection.sequence.length ≤ made.length + count := by
  induction run with
  | done | ungenerated | fails | uninspected => cases hresult
  | raises | violates =>
      cases hresult
      simp only [List.length_reverse, List.length_cons]
      omega
  | reverts _ _ _ _ ih =>
      have hlater := ih hresult
      omega
  | passes _ _ _ _ ih =>
      have hlater := ih hresult
      simp only [List.length_cons] at hlater
      omega

theorem Iterates.length_bounds {progress after : Progress ρ} {world last : σ}
    {detection : Detection}
    (run : Iterates campaign client progress world (.ok (some detection)) after last) :
    1 ≤ detection.sequence.length ∧ detection.sequence.length ≤ campaign.sequenceLength := by
  cases run with
  | detects _ made =>
      have hmade := (makes made).length_bounds rfl
      simp only [List.length_nil] at hmade
      omega

/-- So many iterations, one after another and each without a failure, all of them begun while an
obligation was live. -/
inductive Proceeds (campaign : Campaign ρ) (client : Client (StateM σ)) :
    Nat → State ρ → σ → State ρ → σ → Prop
  | done {state world} : Proceeds campaign client 0 state world state world
  | goes {count state world next middle ended last}
      (live : state.progress.live.isEmpty = false)
      (stepped : campaign.step client state world = ((.ok (), next), middle))
      (more : Proceeds campaign client count next middle ended last) :
      Proceeds campaign client (count + 1) state world ended last

theorem loop_of_isEmpty {m : Type → Type} [Monad m] {client : Client m} {observe : Log → m Unit}
    {limited : Bool} {budget : Nat} {state : State ρ} (h : state.progress.live.isEmpty = true) :
    campaign.loop client observe limited budget state =
      close observe state "All properties have been violated" := by
  cases budget <;> rw [loop, if_pos h]

/-- A campaign stops for one of two reasons: nothing is live, or the limit has been reached. -/
theorem loop_proceeds {limited : Bool} {budget : Nat} {state ended : State ρ} {world last : σ}
    (h : campaign.loop client (fun _ => pure ()) limited budget state world =
      ((.ok (), ended), last)) :
    ∃ count stopped log, Proceeds campaign client count state world stopped last ∧
      count ≤ budget ∧ ended = { stopped with log } ∧
      (stopped.progress.live.isEmpty = false → limited = true ∧ count = budget) := by
  induction budget generalizing state world with
  | zero =>
      cases hlive : state.progress.live.isEmpty
      · rw [loop, hlive, if_neg Bool.false_ne_true] at h
        split at h
        · rename_i hlimited
          cases h
          exact ⟨0, state, _, .done, Nat.le_refl 0, rfl, fun _ => ⟨hlimited, rfl⟩⟩
        · cases h
      · rw [loop_of_isEmpty hlive] at h
        cases h
        exact ⟨0, state, _, .done, Nat.le_refl 0, rfl, by simp [hlive]⟩
  | succ budget ih =>
      cases hlive : state.progress.live.isEmpty
      · rcases hstep : campaign.step client state world with ⟨⟨e | _, next⟩, middle⟩
        all_goals
          rw [loop, hlive, if_neg Bool.false_ne_true] at h
          simp only [bind_apply, pure_apply, hstep] at h
        · cases h
        · obtain ⟨count, stopped, log, more, hcount, hended, hstopped⟩ := ih h
          have run := Proceeds.goes hlive hstep more
          refine ⟨count + 1, stopped, log, run, Nat.succ_le_succ hcount, hended, ?_⟩
          intro hlive
          obtain ⟨hlimited, rfl⟩ := hstopped hlive
          exact ⟨hlimited, rfl⟩
      · rw [loop_of_isEmpty hlive] at h
        cases h
        exact ⟨0, state, _, .done, Nat.zero_le _, rfl, by simp [hlive]⟩

namespace Proceeds

variable {count first second : Nat} {state ended : State ρ} {world last : σ}

theorem loop {limited : Bool} {budget : Nat}
    (run : Proceeds campaign client count state world ended last) (hbudget : count ≤ budget)
    (hend : ended.progress.live.isEmpty = false → limited = true ∧ count = budget) :
    ∃ log, campaign.loop client (fun _ => pure ()) limited budget state world =
      ((.ok (), { ended with log }), last) := by
  induction run generalizing budget with
  | @done state world =>
      cases hlive : state.progress.live.isEmpty
      · obtain ⟨rfl, rfl⟩ := hend hlive
        rw [Campaign.loop, hlive]
        exact ⟨_, rfl⟩
      · rw [loop_of_isEmpty hlive]
        exact ⟨_, rfl⟩
  | @goes count state world _ _ _ _ live stepped _ ih =>
      cases budget with
      | zero => omega
      | succ budget =>
          obtain ⟨log, hloop⟩ := ih (Nat.le_of_succ_le_succ hbudget) fun hlive =>
            ⟨(hend hlive).1, Nat.succ.inj (hend hlive).2⟩
          refine ⟨log, ?_⟩
          rw [Campaign.loop, live, if_neg Bool.false_ne_true]
          simp only [bind_apply, pure_apply, stepped]
          exact hloop

theorem split (run : Proceeds campaign client (first + second) state world ended last) :
    ∃ middle reached, Proceeds campaign client first state world middle reached ∧
      Proceeds campaign client second middle reached ended last := by
  induction first generalizing state world with
  | zero =>
      rw [Nat.zero_add] at run
      exact ⟨state, world, .done, run⟩
  | succ first ih =>
      rw [Nat.succ_add] at run
      cases run with
      | goes live stepped more =>
          obtain ⟨middle, reached, hfirst, hsecond⟩ := ih more
          exact ⟨middle, reached, .goes live stepped hfirst, hsecond⟩

theorem preserves {holds : State ρ → Prop}
    (hstep : ∀ state world next last, state.progress.live.isEmpty = false → holds state →
      Steps campaign client state world (.ok ()) next last → holds next)
    (run : Proceeds campaign client count state world ended last) (h : holds state) :
    holds ended := by
  induction run with
  | done => exact h
  | goes live stepped _ ih => exact ih (hstep _ _ _ _ live h (steps stepped))

end Proceeds

end Campaign

end ContractFuzz
