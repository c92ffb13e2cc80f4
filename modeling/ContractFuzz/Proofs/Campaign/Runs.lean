import ContractFuzz.Campaign.Run

/-!
The loops of a campaign as derivations, with one rule for each way in which a loop goes on or ends.

The client is any function of the requests and of a state of its own, which may be of any type: a
client that follows a script, or one whose answers contradict each other, is one of these.
-/

namespace ContractFuzz

theorem bind_apply {σ α β : Type} (x : StateM σ α) (f : α → StateM σ β) (s : σ) :
    (x >>= f) s = f (x s).1 (x s).2 := rfl

theorem pure_apply {σ α : Type} (a : α) (s : σ) : (pure a : StateM σ α) s = (a, s) := rfl

namespace Oracle

/-- What the queries of some properties come to, and the coverage and the client after them. -/
inductive Queries {σ : Type} (client : Client (StateM σ)) (target : InstanceId) (sender : Felt) :
    List String → Coverage → σ → Except CampaignError (List Violation) → Coverage → σ → Prop
  | done {coverage world} : Queries client target sender [] coverage world (.ok []) coverage world
  | fails {name rest coverage world fault next}
      (answer : client.query (propertyQuery target sender name) world =
        (.error (.client fault), next)) :
      Queries client target sender (name :: rest) coverage world
        (.error (.ofExecution (.querying name) (.client fault))) coverage next
  | reverts {name rest coverage world r next result after last}
      (answer : client.query (propertyQuery target sender name) world = (.error (.revert r), next))
      (more : Queries client target sender rest coverage next result after last) :
      Queries client target sender (name :: rest) coverage world result after last
  | holds {name rest coverage world frame next result after last}
      (answer : client.query (propertyQuery target sender name) world = (.ok frame, next))
      (returned : frame.returnData ≠ [0])
      (more : Queries client target sender rest (coverage.after frame) next result after last) :
      Queries client target sender (name :: rest) coverage world result after last
  | breaks {name rest coverage world frame next result after last}
      (answer : client.query (propertyQuery target sender name) world = (.ok frame, next))
      (returned : frame.returnData = [0])
      (more : Queries client target sender rest (coverage.after frame) next result after last) :
      Queries client target sender (name :: rest) coverage world
        (result.map (.property name frame.sortedEvents :: ·)) after last

theorem queries {σ : Type} {client : Client (StateM σ)} {target : InstanceId} {sender : Felt}
    {names : List String} {coverage after : Coverage} {world last : σ}
    {result : Except CampaignError (List Violation)}
    (h : queryProperties client target sender names coverage world = ((result, after), last)) :
    Queries client target sender names coverage world result after last := by
  induction names generalizing coverage world result with
  | nil =>
      cases h
      exact .done
  | cons name rest ih =>
      rcases answer : client.query (propertyQuery target sender name) world with
        ⟨⟨r | fault⟩ | frame, next⟩
      · simp only [queryProperties, bind_apply, answer] at h
        exact .reverts answer (ih h)
      · simp only [queryProperties, bind_apply, pure_apply, answer] at h
        cases h
        exact .fails answer
      · rcases more : queryProperties client target sender rest (coverage.after frame) next with
          ⟨⟨later, reached⟩, middle⟩
        simp only [queryProperties, bind_apply, answer, more] at h
        by_cases returned : frame.returnData = [0]
        · rw [if_pos (beq_iff_eq.mpr returned)] at h
          cases h
          exact .breaks answer returned (ih more)
        · rw [if_neg (mt beq_iff_eq.mp returned)] at h
          cases h
          exact .holds answer returned (ih more)

end Oracle

namespace Campaign

variable {σ ρ : Type}

/-- What up to so many random calls come to, made after other calls of which the last comes
first. -/
inductive Makes (campaign : Campaign ρ) (client : Client (StateM σ)) :
    Nat → List RecordedCall → Progress ρ → σ →
      Except CampaignError (Option Detection) → Progress ρ → σ → Prop
  | done {made progress world} :
      Makes campaign client 0 made progress world (.ok none) progress world
  | ungenerated {count made progress world e random}
      (generated : campaign.generator.call campaign.schema.functions campaign.schema.structs
        progress.random = (.error e, random)) :
      Makes campaign client (count + 1) made progress world (.error (.ofGeneration e))
        { progress with random } world
  | fails {count made progress world call random fault next}
      (generated : campaign.generator.call campaign.schema.functions campaign.schema.structs
        progress.random = (.ok call, random))
      (answer : client.invoke (call.invocation campaign.site.target) world =
        (.error (.client fault), next)) :
      Makes campaign client (count + 1) made progress world
        (.error (.ofExecution (.invoking call.function) (.client fault)))
        { progress with random } next
  | raises {count made progress world call random r next violation}
      (generated : campaign.generator.call campaign.schema.functions campaign.schema.structs
        progress.random = (.ok call, random))
      (answer : client.invoke (call.invocation campaign.site.target) world =
        (.error (.revert r), next))
      (inspected : campaign.oracle.inspectRevert? progress.live r = some violation) :
      Makes campaign client (count + 1) made progress world
        (.ok (some ⟨(⟨call, []⟩ :: made).reverse, [violation]⟩)) { progress with random } next
  | reverts {count made progress world call random r next result after last}
      (generated : campaign.generator.call campaign.schema.functions campaign.schema.structs
        progress.random = (.ok call, random))
      (answer : client.invoke (call.invocation campaign.site.target) world =
        (.error (.revert r), next))
      (inspected : campaign.oracle.inspectRevert? progress.live r = none)
      (more : Makes campaign client count made { progress with random } next result after last) :
      Makes campaign client (count + 1) made progress world result after last
  | uninspected {count made progress world call random frame next e coverage last}
      (generated : campaign.generator.call campaign.schema.functions campaign.schema.structs
        progress.random = (.ok call, random))
      (answer : client.invoke (call.invocation campaign.site.target) world = (.ok frame, next))
      (inspected : campaign.oracle.inspectState client progress.live
        (progress.coverage.after frame) next = ((.error e, coverage), last)) :
      Makes campaign client (count + 1) made progress world (.error e)
        { progress with random, coverage } last
  | passes {count made progress world call random frame next coverage middle result after last}
      (generated : campaign.generator.call campaign.schema.functions campaign.schema.structs
        progress.random = (.ok call, random))
      (answer : client.invoke (call.invocation campaign.site.target) world = (.ok frame, next))
      (inspected : campaign.oracle.inspectState client progress.live
        (progress.coverage.after frame) next = ((.ok [], coverage), middle))
      (more : Makes campaign client count (⟨call, frame.sortedEvents⟩ :: made)
        { progress with random, coverage } middle result after last) :
      Makes campaign client (count + 1) made progress world result after last
  | violates {count made progress world call random frame next violation others coverage last}
      (generated : campaign.generator.call campaign.schema.functions campaign.schema.structs
        progress.random = (.ok call, random))
      (answer : client.invoke (call.invocation campaign.site.target) world = (.ok frame, next))
      (inspected : campaign.oracle.inspectState client progress.live
        (progress.coverage.after frame) next = ((.ok (violation :: others), coverage), last)) :
      Makes campaign client (count + 1) made progress world
        (.ok (some ⟨(⟨call, frame.sortedEvents⟩ :: made).reverse, violation :: others⟩))
        { progress with random, coverage } last

theorem makes {campaign : Campaign ρ} {client : Client (StateM σ)} {count : Nat}
    {made : List RecordedCall} {progress after : Progress ρ} {world last : σ}
    {result : Except CampaignError (Option Detection)}
    (h : campaign.makeCalls client count made progress world = ((result, after), last)) :
    Makes campaign client count made progress world result after last := by
  induction count generalizing made progress world with
  | zero =>
      cases h
      exact .done
  | succ count ih =>
      rcases generated : campaign.generator.call campaign.schema.functions campaign.schema.structs
        progress.random with ⟨e | call, random⟩
      · simp only [makeCalls, generated, pure_apply] at h
        cases h
        exact .ungenerated generated
      rcases answer : client.invoke (call.invocation campaign.site.target) world with
        ⟨⟨r | fault⟩ | frame, next⟩
      · rcases inspected : campaign.oracle.inspectRevert? progress.live r with _ | violation
        · simp only [makeCalls, generated, bind_apply, answer, inspected] at h
          exact .reverts generated answer inspected (ih h)
        · simp only [makeCalls, generated, bind_apply, pure_apply, answer, inspected] at h
          cases h
          exact .raises generated answer inspected
      · simp only [makeCalls, generated, bind_apply, pure_apply, answer] at h
        cases h
        exact .fails generated answer
      · rcases inspected : campaign.oracle.inspectState client progress.live
          (progress.coverage.after frame) next with
          ⟨⟨e | _ | ⟨violation, others⟩, coverage⟩, middle⟩
        · simp only [makeCalls, generated, bind_apply, pure_apply, answer, inspected] at h
          cases h
          exact .uninspected generated answer inspected
        · simp only [makeCalls, generated, bind_apply, answer, inspected] at h
          exact .passes generated answer inspected (ih h)
        · simp only [makeCalls, generated, bind_apply, pure_apply, answer, inspected] at h
          cases h
          exact .violates generated answer inspected

/-- What one iteration comes to. Without shrinking, what it detects is discharged at once. -/
inductive Iterates (campaign : Campaign ρ) (client : Client (StateM σ)) (progress : Progress ρ)
    (world : σ) : Except CampaignError (Option Detection) → Progress ρ → σ → Prop
  | unrestored {e next} (answer : client.restore campaign.site.baseline world = (.error e, next)) :
      Iterates campaign client progress world (.error (.ofExecution .restoringBaseline e)) progress
        next
  | fails {next e after last}
      (answer : client.restore campaign.site.baseline world = (.ok (), next))
      (made : campaign.makeCalls client campaign.sequenceLength [] progress next =
        ((.error e, after), last)) :
      Iterates campaign client progress world (.error e) after last
  | passes {next after last}
      (answer : client.restore campaign.site.baseline world = (.ok (), next))
      (made : campaign.makeCalls client campaign.sequenceLength [] progress next =
        ((.ok none, after), last)) :
      Iterates campaign client progress world (.ok none) after last
  | detects {next detection after last}
      (answer : client.restore campaign.site.baseline world = (.ok (), next))
      (made : campaign.makeCalls client campaign.sequenceLength [] progress next =
        ((.ok (some detection), after), last)) :
      Iterates campaign client progress world (.ok (some detection))
        { after with
          live := if campaign.shrinks then after.live
            else after.live.discharge detection.violations } last

theorem iterates {campaign : Campaign ρ} {client : Client (StateM σ)} {progress after : Progress ρ}
    {world last : σ} {result : Except CampaignError (Option Detection)}
    (h : campaign.iterate client progress world = ((result, after), last)) :
    Iterates campaign client progress world result after last := by
  rcases answer : client.restore campaign.site.baseline world with ⟨e | _, next⟩
  · simp only [iterate, bind_apply, pure_apply, answer] at h
    cases h
    exact .unrestored answer
  rcases made : campaign.makeCalls client campaign.sequenceLength [] progress next with
    ⟨⟨e | _ | detection, reached⟩, middle⟩
  · simp only [iterate, bind_apply, pure_apply, answer, made] at h
    cases h
    exact .fails answer made
  · simp only [iterate, bind_apply, pure_apply, answer, made] at h
    cases h
    exact .passes answer made
  · have run := Iterates.detects answer made
    cases hshrinks : campaign.shrinks
    all_goals
      simp only [iterate, bind_apply, answer, made, hshrinks] at run h
      cases h
      exact run

/-- What one iteration does to a campaign under way. -/
inductive Steps (campaign : Campaign ρ) (client : Client (StateM σ)) (state : State ρ) (world : σ) :
    Except CampaignError Unit → State ρ → σ → Prop
  | fails {e progress last}
      (iterated : campaign.iterate client state.progress world = ((.error e, progress), last)) :
      Steps campaign client state world (.error (e.during (.iterating (state.iteration + 1))))
        { state with iteration := state.iteration + 1, progress } last
  | passes {progress last}
      (iterated : campaign.iterate client state.progress world = ((.ok none, progress), last)) :
      Steps campaign client state world (.ok ())
        { state with iteration := state.iteration + 1, progress } last
  | unsettled {detection found next e progress last}
      (iterated : campaign.iterate client state.progress world =
        ((.ok (some detection), found), next))
      (settled : campaign.settle client detection found next = ((.error e, progress), last)) :
      Steps campaign client state world (.error e)
        { state with iteration := state.iteration + 1, progress } last
  | finds {detection found next sequence progress last}
      (iterated : campaign.iterate client state.progress world =
        ((.ok (some detection), found), next))
      (settled : campaign.settle client detection found next = ((.ok sequence, progress), last))
      (finding : Finding)
      (hfinding : finding = ⟨state.iteration + 1, detection.violations, sequence,
        detection.sequence.length, campaign.shrinks⟩) :
      Steps campaign client state world (.ok ())
        ⟨state.iteration + 1, state.findings ++ [finding], progress,
          state.log ++ finding.log campaign.schema⟩ last

theorem steps {campaign : Campaign ρ} {client : Client (StateM σ)} {state next : State ρ}
    {world last : σ} {result : Except CampaignError Unit}
    (h : campaign.step client state world = ((result, next), last)) :
    Steps campaign client state world result next last := by
  rcases iterated : campaign.iterate client state.progress world with
    ⟨⟨e | _ | detection, found⟩, middle⟩
  · simp only [step, bind_apply, pure_apply, iterated] at h
    cases h
    exact .fails iterated
  · simp only [step, bind_apply, pure_apply, iterated] at h
    cases h
    exact .passes iterated
  rcases settled : campaign.settle client detection found middle with
    ⟨⟨e | sequence, progress⟩, reached⟩
  · simp only [step, bind_apply, pure_apply, iterated, settled] at h
    cases h
    exact .unsettled iterated settled
  · simp only [step, bind_apply, pure_apply, iterated, settled] at h
    cases h
    exact .finds iterated settled _ rfl

/-- What every iteration without a failure keeps, and what does not depend on the log, holds at the
end of a campaign that does not fail. -/
theorem loop_preserves {campaign : Campaign ρ} {client : Client (StateM σ)}
    {observe : Log → StateM σ Unit} {limited : Bool} (holds : State ρ → σ → Prop)
    (hlog : ∀ state log world, holds state world → holds { state with log } world)
    (hobserve : ∀ log state world, holds state world → holds state (observe log world).2)
    (hstep : ∀ state world next last, state.progress.live.isEmpty = false → holds state world →
      Steps campaign client state world (.ok ()) next last → holds next last)
    {budget : Nat} {state ended : State ρ} {world last : σ} (hstart : holds state world)
    (hend : campaign.loop client observe limited budget state world = ((.ok (), ended), last)) :
    holds ended last := by
  have hclose (message : String) (state : State ρ) (world : σ) (hstate : holds state world)
      (hclosed : close observe state message world = ((.ok (), ended), last)) :
      holds ended last := by
    simp only [close, bind_apply, pure_apply] at hclosed
    cases hclosed
    exact hlog _ _ _ (hobserve _ _ _ hstate)
  induction budget generalizing state world with
  | zero =>
      rw [loop] at hend
      split at hend
      · exact hclose _ state world hstart hend
      · split at hend
        · exact hclose _ state world hstart hend
        · cases hend
  | succ budget ih =>
      rw [loop] at hend
      split at hend
      · exact hclose _ state world hstart hend
      · rename_i hlive
        rcases stepped : campaign.step client state world with ⟨⟨e | _, next⟩, middle⟩
        · simp only [bind_apply, pure_apply, stepped] at hend
          cases hend
        · simp only [bind_apply, stepped] at hend
          refine ih (hobserve _ _ _ ?_) hend
          exact hstep state world next middle (Bool.not_eq_true _ ▸ hlive) hstart (steps stepped)

theorem prepare_eq_ok {config : Config} {deployment : Deployment} {coverage : Coverage}
    {campaign : Campaign Random.Stream} {state : State Random.Stream} {log : Log}
    (h : prepare config deployment coverage = (.ok (campaign, state), log)) :
    ∃ generator, config.callGenerator = .ok generator ∧
      campaign = ⟨deployment.site, deployment.schema, config.oracle deployment, generator,
        config.sequenceLength, config.shrink⟩ ∧
      state = ⟨0, [], ⟨.ofSeed config.seed, config.obligations deployment, coverage⟩, log⟩ := by
  rw [prepare] at h
  split at h
  · cases h
  · dsimp only at h
    split at h
    · cases h
    · rename_i generator hgenerator
      cases h
      exact ⟨generator, hgenerator, rfl, rfl⟩

theorem run_ends {client : Client (StateM σ)} {config : Config} {deployment : Deployment}
    {targetName : String} {coverage : Coverage} {world : σ} {report : Report}
    (h : (run client config deployment targetName coverage world).1.result = .ok report) :
    ∃ campaign state log ended last,
      prepare config deployment coverage = (.ok (campaign, state), log) ∧
      campaign.loop client (fun _ => pure ()) config.maxIterations.isSome config.iterationBudget
        state world = ((.ok (), ended), last) ∧
      report = Campaign.report config deployment targetName ended := by
  rcases hprepare : prepare config deployment coverage with ⟨e | ⟨campaign, state⟩, log⟩
  · simp only [run, runObserved, hprepare, bind_apply, pure_apply] at h
    cases h
  rcases hloop : campaign.loop client (fun _ => pure ()) config.maxIterations.isSome
    config.iterationBudget state world with ⟨⟨e | _, ended⟩, last⟩
  · simp only [run, runObserved, hprepare, bind_apply, pure_apply, hloop] at h
    cases h
  · simp only [run, runObserved, hprepare, bind_apply, pure_apply, hloop] at h
    cases h
    exact ⟨campaign, state, log, ended, last, rfl, hloop, rfl⟩

end Campaign

end ContractFuzz
