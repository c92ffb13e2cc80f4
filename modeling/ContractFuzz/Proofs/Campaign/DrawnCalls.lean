import ContractFuzz.Proofs.Calldata.Encoding
import ContractFuzz.Proofs.Campaign.Iterations
import ContractFuzz.Proofs.Campaign.Requests
import ContractFuzz.Proofs.Campaign.Sessions
import ContractFuzz.Sandbox.Executor

namespace ContractFuzz

open ContractFuzz.Calldata

variable {σ ρ : Type}

/-- What may be drawn, under some settings, for the arguments of a function: numbers that encode
values of their types, and that the generator returns somewhere in its stream. -/
structure Config.Draws (config : Config) (structs : StructTable) (shapes : List Shape)
    (numbers : List Felt) : Prop where
  encoded : EncodesAll config.modulus (max config.maxArrayLength 1) structs shapes numbers
  drawn : ∃ values before after, Generator.make config.modulus config.maxArrayLength = .ok values ∧
    values.calldata Random.Stream.source structs shapes before = (.ok numbers, after)

/-- Calls that a schema allows for, under some settings. -/
structure Call.AllowedBy (call : Call) (config : Config) (schema : Schema) : Prop where
  function : ∃ f ∈ schema.functions, f.name = call.function ∧ f.entryPoint = call.entryPoint ∧
    config.Draws schema.structs f.arguments call.arguments
  sender : call.sender ∈ config.senders
  nonce_iff : call.nonce.isSome = true ↔ call.entryPoint = .l1Handler
  nonce_mem : ∀ nonce, call.nonce = some nonce →
    config.nonceRange.1 ≤ nonce ∧ nonce ≤ max config.nonceRange.1 config.nonceRange.2

namespace CallGenerator

variable {generator : CallGenerator ρ} {entryPoint : EntryPoint}

theorem nonce_isSome_iff (state : ρ) :
    (generator.nonce entryPoint state).1.isSome = true ↔ entryPoint = .l1Handler := by
  cases entryPoint <;> simp [nonce]

theorem nonce_mem (hsource : generator.source.InRange) {state : ρ} {x : Nat}
    (h : (generator.nonce entryPoint state).1 = some x) :
    generator.nonceRange.1 ≤ x ∧ x ≤ max generator.nonceRange.1 generator.nonceRange.2 := by
  cases entryPoint with
  | l1Handler =>
      rcases hdraw : feltBetween generator.source generator.nonceRange.1 generator.nonceRange.2
        state with ⟨drawn, next⟩
      rw [nonce, hdraw] at h
      cases h
      exact feltBetween_mem hsource hdraw
  | external | constructor => cases h

end CallGenerator

theorem Config.callGenerator_eq_ok {config : Config} {generator : CallGenerator Random.Stream}
    (h : config.callGenerator = .ok generator) :
    ∃ values hsenders, Generator.make config.modulus config.maxArrayLength = .ok values ∧
      generator =
        ⟨Random.Stream.source, values, config.senders, config.nonceRange, hsenders⟩ := by
  rw [callGenerator] at h
  split at h
  · rename_i values hvalues
    rw [CallGenerator.make] at h
    split at h
    · rename_i hsenders
      cases h
      exact ⟨values, hsenders, hvalues, rfl⟩
    · cases h
  · cases h

theorem Config.draws_of_calldata {config : Config} {values : Generator} {structs : StructTable}
    {shapes : List Shape} {numbers : List Felt} {before after : Random.Stream}
    (hvalues : Generator.make config.modulus config.maxArrayLength = .ok values)
    (h : values.calldata Random.Stream.source structs shapes before = (.ok numbers, after)) :
    config.Draws structs shapes numbers := by
  refine ⟨?_, values, before, after, hvalues, h⟩
  have hencodes := Generator.calldata_encodes Random.Stream.source_inRange h
  obtain ⟨hmodulus, hlength⟩ := Generator.make_eq_ok hvalues
  rw [hmodulus, hlength] at hencodes
  exact hencodes

namespace Campaign

variable {campaign : Campaign ρ} {client : Client (StateM σ)}

/-- Calls that the generator of a campaign returns somewhere in its stream. -/
def CanDraw (campaign : Campaign ρ) (call : Call) : Prop :=
  ∃ before after, campaign.generator.call campaign.schema.functions campaign.schema.structs before =
    (.ok call, after)

theorem Makes.drawn {count : Nat} {made : List RecordedCall} {progress after : Progress ρ}
    {world last : σ} {result : Except CampaignError (Option Detection)}
    (run : Makes campaign client count made progress world result after last)
    (hmade : ∀ step ∈ made, campaign.CanDraw step.call)
    {detection : Detection} (hresult : result = .ok (some detection)) :
    ∀ step ∈ detection.sequence, campaign.CanDraw step.call := by
  induction run with
  | done | ungenerated | fails | uninspected => cases hresult
  | raises generated | violates generated =>
      cases hresult
      intro step hstep
      rcases List.mem_cons.mp (List.mem_reverse.mp hstep) with rfl | hstep
      · exact ⟨_, _, generated⟩
      · exact hmade step hstep
  | reverts _ _ _ _ ih => exact ih hmade hresult
  | passes generated _ _ _ ih =>
      exact ih (List.forall_mem_cons.mpr ⟨⟨_, _, generated⟩, hmade⟩) hresult

theorem Iterates.drawn {progress after : Progress ρ} {world last : σ} {detection : Detection}
    (run : Iterates campaign client progress world (.ok (some detection)) after last) :
    ∀ step ∈ detection.sequence, campaign.CanDraw step.call := by
  cases run with
  | detects _ made => exact (makes made).drawn (by simp) rfl

/-- All calls of some findings have been drawn. -/
def State.Drawn (campaign : Campaign ρ) (state : State ρ) : Prop :=
  ∀ finding ∈ state.findings, ∀ step ∈ finding.sequence, campaign.CanDraw step.call

theorem Steps.drawn {state next : State ρ} {world last : σ}
    (run : Steps campaign client state world (.ok ()) next last) (h : state.Drawn campaign) :
    next.Drawn campaign := by
  cases run with
  | passes iterated => exact h
  | @finds detection _ _ sequence _ _ iterated settled finding hfinding =>
      have hfound := (iterates iterated).drawn
      refine List.forall_mem_append.mpr ⟨h, List.forall_mem_singleton.mpr ?_⟩
      intro step hstep
      rw [hfinding] at hstep
      exact hfound step ((settle_sublist settled).1.subset hstep)

theorem allowedBy_of_canDraw {config : Config} {schema : Schema} {site : Site} {oracle : Oracle}
    {generator : CallGenerator Random.Stream} (hgenerator : config.callGenerator = .ok generator)
    {sequenceLength : Nat} {shrinks : Bool} {call : Call}
    (h : CanDraw ⟨site, schema, oracle, generator, sequenceLength, shrinks⟩ call) :
    call.AllowedBy config schema := by
  obtain ⟨values, hsenders, hvalues, rfl⟩ := Config.callGenerator_eq_ok hgenerator
  obtain ⟨random, next, hcall⟩ := h
  obtain ⟨f, hf, sender, hsender, before, arguments, after, hdrawn, rfl⟩ :=
    CallGenerator.call_eq_ok hcall
  refine ⟨⟨f, hf, rfl, rfl, Config.draws_of_calldata hvalues hdrawn⟩, hsender, ?_, ?_⟩
  · exact CallGenerator.nonce_isSome_iff after
  · intro nonce hnonce
    exact CallGenerator.nonce_mem Random.Stream.source_inRange hnonce

/-- Whatever a client answers, the schema allows every call that is reported, shrunk or not. -/
theorem run_reports_allowed (client : Client (StateM σ)) (config : Config) (deployment : Deployment)
    (targetName : String) (coverage : Coverage) (world : σ) {report : Report}
    (hreport : (run client config deployment targetName coverage world).1.result = .ok report) :
    ∀ finding ∈ report.findings, ∀ step ∈ finding.sequence,
      step.call.AllowedBy config deployment.schema := by
  obtain ⟨campaign, state, log, ended, last, hprepare, hloop, rfl⟩ := run_ends hreport
  obtain ⟨generator, hgenerator, rfl, rfl⟩ := prepare_eq_ok hprepare
  obtain ⟨count, stopped, closing, run, -, rfl, -⟩ := loop_proceeds hloop
  have hdrawn : stopped.Drawn _ :=
    run.preserves (fun _ _ _ _ _ h step => step.drawn h) fun _ h => absurd h List.not_mem_nil
  intro finding hfinding step hstep
  exact allowedBy_of_canDraw hgenerator (hdrawn finding hfinding step hstep)

/-- A post office to which a message can send what anyone can send, by a handler of the same
name. -/
def postOffice : Sandbox.Program :=
  let send : Sandbox.Handler := fun storage _ =>
    .ok ({}, storage.write "sent" (storage.read "sent" + 1))
  [.struct "Parcel" [⟨"weight", "felt", none⟩],
    .external "send" [⟨"parcels_len", "felt", none⟩, ⟨"parcels", "Parcel*", none⟩] send,
    .l1Handler "send" [⟨"from_address", "felt", none⟩] send,
    .property "tayt_idle" fun storage _ =>
      .ok ({ returnData := [if storage.read "sent" < 2 then 1 else 0] }, storage)]

/-- Settings with a limit of zero on arrays, and with the bounds of nonces in the wrong order. -/
def postOfficeConfig : Config :=
  { sequenceLength := 3, senders := [5], seed := 3, maxIterations := some 1, maxArrayLength := 0
    nonceRange := (7, 3) }

theorem run_reports_allowed_postOffice :
    ∃ deployment coverage executor report,
      (run postOffice.client postOfficeConfig deployment "" coverage executor).1.result =
        .ok report ∧
      report.findings.map (fun finding => finding.sequence.map fun step =>
        (step.call.entryPoint, step.call.arguments.length, step.call.nonce)) =
        [[(.external, 2, none), (.l1Handler, 1, some 7)]] ∧
      ∀ finding ∈ report.findings, ∀ step ∈ finding.sequence,
        step.call.AllowedBy postOfficeConfig deployment.schema := by
  have hcalls : (sessionReport? postOffice.client postOfficeConfig postOffice.artifact [] "" .empty
      {}).map (fun report => report.findings.map fun finding => finding.sequence.map fun step =>
        (step.call.entryPoint, step.call.arguments.length, step.call.nonce)) =
      some [[(.external, 2, none), (.l1Handler, 1, some 7)]] := by decide +kernel
  obtain ⟨report, hreport, hcalls⟩ := Option.map_eq_some_iff.mp hcalls
  obtain ⟨deployment, coverage, -, executor, -, hrun⟩ := sessionReport?_eq_some_iff.mp hreport
  exact ⟨deployment, coverage, executor, report, hrun, hcalls,
    run_reports_allowed postOffice.client postOfficeConfig deployment "" coverage executor hrun⟩

end Campaign

end ContractFuzz
