import ContractFuzz.Proofs.Campaign.Obligations
import ContractFuzz.Proofs.Campaign.Runs
import ContractFuzz.Proofs.Schema.Surface
import ContractFuzz.Sandbox.Interception

/-!
What a campaign asks of its client: which functions it calls, whether they are drawn or replayed, and
which properties it queries. Whatever these requests keep, the campaign keeps.
-/

namespace ContractFuzz

open Sandbox (Request)

variable {σ ρ α β : Type}

/-- Programs that lead from some states of a client to such states again, with certain results. -/
def Keeps (holds : σ → Prop) (yields : α → Prop) (program : StateM σ α) : Prop :=
  ∀ world, holds world → yields (program world).1 ∧ holds (program world).2

section Keeps

variable {holds : σ → Prop} {yields : α → Prop}

theorem Keeps.pure {a : α} (h : yields a) : Keeps holds yields (pure a) :=
  fun _ hworld => ⟨h, hworld⟩

theorem Keeps.bind {results : β → Prop} {x : StateM σ α} {f : α → StateM σ β}
    (hx : Keeps holds yields x) (hf : ∀ a, yields a → Keeps holds results (f a)) :
    Keeps holds results (x >>= f) := by
  intro world hworld
  obtain ⟨hyields, hnext⟩ := hx world hworld
  exact hf _ hyields _ hnext

end Keeps

/-- Requests that a client serves without being led out of some states. -/
structure Client.Serves (client : Client (StateM σ)) (allowed : Request → Prop)
    (holds : σ → Prop) : Prop where
  deploy : ∀ artifact arguments, allowed (.deploy arguments) →
    Keeps holds (fun _ => True) (client.deploy artifact arguments)
  declare : ∀ artifact, allowed .declare → Keeps holds (fun _ => True) (client.declare artifact)
  invoke : ∀ call, allowed (.invoke call) → Keeps holds (fun _ => True) (client.invoke call)
  query : ∀ call, allowed (.query call) → Keeps holds (fun _ => True) (client.query call)
  snapshot : allowed .snapshot → Keeps holds (fun _ => True) client.snapshot
  restore : ∀ handle, allowed (.restore handle) →
    Keeps holds (fun _ => True) (client.restore handle)

theorem Client.Serves.mono {client : Client (StateM σ)} {allowed fewer : Request → Prop}
    {holds : σ → Prop} (h : client.Serves allowed holds)
    (hfewer : ∀ request, fewer request → allowed request) : client.Serves fewer holds where
  deploy artifact arguments ha := h.deploy artifact arguments (hfewer _ ha)
  declare artifact ha := h.declare artifact (hfewer _ ha)
  invoke call ha := h.invoke call (hfewer _ ha)
  query call ha := h.query call (hfewer _ ha)
  snapshot ha := h.snapshot (hfewer _ ha)
  restore handle ha := h.restore handle (hfewer _ ha)

/-- What a campaign asks for: to restore the baseline, to call some functions, and, if its oracle
wants to, to query some properties. -/
inductive Asks (site : Site) (oracle : Oracle) (functions names : List String) : Request → Prop
  | restore : Asks site oracle functions names (.restore site.baseline)
  | invoke (call : Call) (called : call.function ∈ functions) :
      Asks site oracle functions names (.invoke (call.invocation site.target))
  | query {target sender name} (wanted : oracle = .properties target sender) (named : name ∈ names) :
      Asks site oracle functions names (.query (Oracle.propertyQuery target sender name))

def CallsOnly (functions : List String) (sequence : List RecordedCall) : Prop :=
  ∀ step ∈ sequence, step.call.function ∈ functions

section Asking

variable {client : Client (StateM σ)} {site : Site} {oracle : Oracle}
  {functions names : List String} {holds : σ → Prop}

theorem Oracle.queryProperties_keeps {target : InstanceId} {sender : Felt} {properties : List String}
    (hserves : ∀ name ∈ properties,
      Keeps holds (fun _ => True) (client.query (propertyQuery target sender name)))
    (coverage : Coverage) :
    Keeps holds (fun _ => True) (queryProperties client target sender properties coverage) := by
  induction properties generalizing coverage with
  | nil => exact .pure trivial
  | cons name rest ih =>
      obtain ⟨hname, hrest⟩ := List.forall_mem_cons.mp hserves
      refine .bind hname ?_
      rintro (⟨r | fault⟩ | frame) -
      · exact ih hrest coverage
      · exact .pure trivial
      · refine .bind (ih hrest _) ?_
        rintro ⟨result, coverage⟩ -
        dsimp only
        split
        · exact .pure trivial
        · exact .pure trivial

theorem Oracle.inspectState_keeps (hserves : client.Serves (Asks site oracle functions names) holds)
    {live : Obligations} (hlive : live.live ⊆ names) (coverage : Coverage) :
    Keeps holds (fun _ => True) (oracle.inspectState client live coverage) := by
  cases oracle with
  | properties target sender =>
      exact queryProperties_keeps (fun name hname => hserves.query _ (.query rfl (hlive hname)))
        coverage
  | exceptions signatures => exact .pure trivial

theorem Replay.run_keeps (hserves : client.Serves (Asks site oracle functions names) holds)
    {stops : Revert → Bool} {sequence : List RecordedCall} (hcalls : CallsOnly functions sequence) :
    Keeps holds (fun _ => True) (run client site stops sequence) := by
  refine .bind (hserves.restore _ .restore) ?_
  rintro (e | ⟨⟩) -
  · exact .pure trivial
  change Keeps holds _ (calls client site.target stops sequence)
  induction sequence with
  | nil => exact .pure trivial
  | cons step rest ih =>
      obtain ⟨hstep, hrest⟩ := List.forall_mem_cons.mp hcalls
      refine .bind (hserves.invoke _ (.invoke _ hstep)) ?_
      rintro (⟨r | fault⟩ | frame) -
      · dsimp only
        split
        · exact .pure trivial
        · exact .bind (ih hrest) fun _ _ => .pure trivial
      · exact .pure trivial
      · exact .bind (ih hrest) fun _ _ => .pure trivial

namespace Shrinking

variable {goal : Goal}

theorem reproduces_keeps (hserves : client.Serves (Asks site goal.oracle functions names) holds)
    (hlive : goal.live.live ⊆ names) {sequence : List RecordedCall}
    (hcalls : CallsOnly functions sequence) (coverage : Coverage) :
    Keeps holds (fun _ => True) (reproduces client site goal sequence coverage) := by
  refine .bind (Replay.run_keeps hserves hcalls) ?_
  rintro (e | replay) -
  · exact .pure trivial
  · dsimp only
    split
    · exact .pure trivial
    · exact .bind (Oracle.inspectState_keeps hserves hlive _) fun _ _ => .pure trivial

theorem prune_keeps (hserves : client.Serves (Asks site goal.oracle functions names) holds)
    (hlive : goal.live.live ⊆ names) {kept pending : List RecordedCall}
    (hcalls : CallsOnly functions (kept ++ pending)) (coverage : Coverage) :
    Keeps holds (fun _ => True) (prune client site goal kept pending coverage) := by
  induction pending generalizing kept coverage with
  | nil => exact .pure trivial
  | cons step pending ih =>
      -- A trial makes no call that the sequence did not have, whether or not it is adopted.
      have htrial : CallsOnly functions (kept ++ pending) := fun other hother =>
        hcalls other (((List.sublist_cons_self step pending).append_left kept).subset hother)
      refine .bind (reproduces_keeps hserves hlive htrial coverage) ?_
      rintro ⟨e | _ | _, coverage⟩ -
      · exact .pure trivial
      · refine ih ?_ coverage
        rwa [List.append_assoc]
      · exact ih htrial coverage

theorem shrink_keeps (hserves : client.Serves (Asks site goal.oracle functions names) holds)
    (hlive : goal.live.live ⊆ names) {sequence : List RecordedCall}
    (hcalls : CallsOnly functions sequence) (coverage : Coverage) :
    Keeps holds (fun outcome => outcome.2.1.live ⊆ names)
      (shrink client site goal sequence coverage) := by
  have htrials : CallsOnly functions ([] ++ sequence) := hcalls
  refine .bind (prune_keeps hserves hlive htrials coverage) ?_
  rintro ⟨e | shorter, coverage⟩ -
  · exact .pure hlive
  · exact .pure (List.Subset.trans (Obligations.discharge_subset _ _) hlive)

end Shrinking

end Asking

theorem CallGenerator.mem_of_pick {source : Random.Source ρ} {failure : Calldata.GenerationError}
    {xs : List α} {state next : ρ} {x : α} (h : pick source failure xs state = (.ok x, next)) :
    x ∈ xs := by
  rw [pick] at h
  split at h
  · cases h
  · dsimp only at h
    split at h
    · rename_i hfound
      cases h
      exact List.mem_of_getElem? hfound
    · cases h

theorem CallGenerator.call_eq_ok {generator : CallGenerator ρ} {functions : List Callable}
    {structs : StructTable} {random next : ρ} {call : Call}
    (h : generator.call functions structs random = (.ok call, next)) :
    ∃ f ∈ functions, ∃ sender ∈ generator.senders, ∃ before arguments after,
      generator.values.calldata generator.source structs f.arguments before =
        (.ok arguments, after) ∧
      call = ⟨sender, f.name, arguments, f.entryPoint, (generator.nonce f.entryPoint after).1⟩ := by
  rw [CallGenerator.call] at h
  split at h
  · cases h
  · rename_i sender _ hsender
    split at h
    · cases h
    · rename_i f before hpick
      split at h
      · cases h
      · rename_i arguments after hdrawn
        cases h
        exact ⟨f, mem_of_pick hpick, sender, mem_of_pick hsender, before, arguments, after, hdrawn,
          rfl⟩

theorem CallGenerator.function_of_call {generator : CallGenerator ρ} {functions : List Callable}
    {structs : StructTable} {random next : ρ} {call : Call}
    (h : generator.call functions structs random = (.ok call, next)) :
    ∃ f ∈ functions, call.function = f.name ∧ call.entryPoint = f.entryPoint := by
  obtain ⟨f, hf, _, _, _, _, _, _, rfl⟩ := call_eq_ok h
  exact ⟨f, hf, rfl, rfl⟩

namespace Campaign

def MayAsk (campaign : Campaign ρ) (names : List String) : Request → Prop :=
  Asks campaign.site campaign.oracle (campaign.schema.functions.map Callable.name) names

/-- What calls, an iteration and shrinking leave: no obligations beside the ones that there were,
and sequences of functions of the schema. -/
structure Detects (campaign : Campaign ρ) (names : List String)
    (outcome : Except CampaignError (Option Detection) × Progress ρ) : Prop where
  live : outcome.2.live.live ⊆ names
  callsOnly : ∀ detection, outcome.1 = .ok (some detection) →
    CallsOnly (campaign.schema.functions.map Callable.name) detection.sequence

variable {campaign : Campaign ρ} {client : Client (StateM σ)} {names : List String}
  {holds : σ → Prop}

theorem Detects.of_none {progress : Progress ρ} (hlive : progress.live.live ⊆ names) :
    campaign.Detects names (.ok none, progress) where
  live := hlive
  callsOnly detection h := by cases h

theorem Detects.of_error (e : CampaignError) (progress : Progress ρ)
    (hlive : progress.live.live ⊆ names) : campaign.Detects names (.error e, progress) where
  live := hlive
  callsOnly detection h := by cases h

theorem makeCalls_keeps (hserves : client.Serves (campaign.MayAsk names) holds) (count : Nat)
    {made : List RecordedCall}
    (hmade : CallsOnly (campaign.schema.functions.map Callable.name) made) {progress : Progress ρ}
    (hlive : progress.live.live ⊆ names) :
    Keeps holds (campaign.Detects names) (campaign.makeCalls client count made progress) := by
  induction count generalizing made progress with
  | zero => exact .pure (.of_none hlive)
  | succ count ih =>
      rw [makeCalls]
      split
      · exact .pure (.of_error _ _ hlive)
      rename_i call random hgenerated
      have hcall : call.function ∈ campaign.schema.functions.map Callable.name := by
        obtain ⟨f, hf, hname, -⟩ := CallGenerator.function_of_call hgenerated
        exact List.mem_map.mpr ⟨f, hf, hname.symm⟩
      have hnow (events : List Event) : CallsOnly (campaign.schema.functions.map Callable.name)
          (⟨call, events⟩ :: made) := List.forall_mem_cons.mpr ⟨hcall, hmade⟩
      refine .bind (hserves.invoke _ (.invoke call hcall)) ?_
      rintro (⟨r | fault⟩ | frame) -
      · dsimp only
        split
        · refine .pure ⟨hlive, ?_⟩
          rintro _ ⟨⟩ step hstep
          exact hnow [] step (List.mem_reverse.mp hstep)
        · exact ih hmade hlive
      · exact .pure (.of_error _ _ hlive)
      · refine .bind (Oracle.inspectState_keeps hserves hlive _) ?_
        rintro ⟨e | _ | ⟨violation, others⟩, coverage⟩ -
        · exact .pure (.of_error _ _ hlive)
        · exact ih (hnow _) hlive
        · refine .pure ⟨hlive, ?_⟩
          rintro _ ⟨⟩ step hstep
          exact hnow _ step (List.mem_reverse.mp hstep)

theorem iterate_keeps (hserves : client.Serves (campaign.MayAsk names) holds)
    {progress : Progress ρ} (hlive : progress.live.live ⊆ names) :
    Keeps holds (campaign.Detects names) (campaign.iterate client progress) := by
  refine .bind (hserves.restore _ .restore) ?_
  rintro (e | ⟨⟩) -
  · exact .pure (.of_error _ _ hlive)
  refine .bind (makeCalls_keeps hserves _ (fun _ h => absurd h List.not_mem_nil) hlive) ?_
  rintro ⟨e | _ | detection, after⟩ hdetects
  · exact .pure hdetects
  · exact .pure hdetects
  · dsimp only
    split
    · exact .pure hdetects
    · exact .pure ⟨List.Subset.trans (Obligations.discharge_subset _ _) hdetects.live, hdetects.callsOnly⟩

theorem settle_keeps (hserves : client.Serves (campaign.MayAsk names) holds) {detection : Detection}
    {progress : Progress ρ} (hlive : progress.live.live ⊆ names)
    (hcalls : CallsOnly (campaign.schema.functions.map Callable.name) detection.sequence) :
    Keeps holds (fun outcome => outcome.2.live.live ⊆ names)
      (campaign.settle client detection progress) := by
  rw [settle]
  split
  · exact .bind (Shrinking.shrink_keeps hserves hlive hcalls _) fun _ hshrunk => .pure hshrunk
  · exact .pure hlive

theorem step_keeps (hserves : client.Serves (campaign.MayAsk names) holds) {state : State ρ}
    (hlive : state.progress.live.live ⊆ names) :
    Keeps holds (fun outcome => outcome.2.progress.live.live ⊆ names)
      (campaign.step client state) := by
  refine .bind (iterate_keeps hserves hlive) ?_
  rintro ⟨e | _ | detection, progress⟩ hdetects
  · exact .pure hdetects.live
  · exact .pure hdetects.live
  · refine .bind (settle_keeps hserves hdetects.live (hdetects.callsOnly _ rfl)) ?_
    rintro ⟨e | sequence, settled⟩ hsettled
    · exact .pure hsettled
    · exact .pure hsettled

theorem loop_keeps (hserves : client.Serves (campaign.MayAsk names) holds)
    {observe : Log → StateM σ Unit} (hobserve : ∀ log, Keeps holds (fun _ => True) (observe log))
    (limited : Bool) (budget : Nat) {state : State ρ}
    (hlive : state.progress.live.live ⊆ names) :
    Keeps holds (fun _ => True) (campaign.loop client observe limited budget state) := by
  have hclose (state : State ρ) (message : String) :
      Keeps holds (fun _ => True) (close observe state message) :=
    .bind (hobserve _) fun _ _ => .pure trivial
  induction budget generalizing state with
  | zero =>
      rw [loop]
      split
      · exact hclose _ _
      · split
        · exact hclose _ _
        · exact .pure trivial
  | succ budget ih =>
      rw [loop]
      split
      · exact hclose _ _
      · refine .bind (step_keeps hserves hlive) ?_
        rintro ⟨result, next⟩ hnext
        refine .bind (hobserve _) fun _ _ => ?_
        cases result with
        | error e => exact .pure trivial
        | ok => exact ih hnext

end Campaign

namespace Deployment

variable {client : Client (StateM σ)} {allowed : Request → Prop} {holds : σ → Prop}
  {target : Artifact} {declared : List Artifact} {options : SchemaOptions}

theorem declareAll_keeps (hserves : client.Serves allowed holds) (hdeclare : allowed .declare)
    (artifacts : List Artifact) (classes : ClassTable) :
    Keeps holds (fun _ => True) (declareAll client artifacts classes) := by
  induction artifacts generalizing classes with
  | nil => exact .pure trivial
  | cons artifact rest ih =>
      refine .bind (hserves.declare artifact hdeclare) ?_
      rintro (⟨r | fault⟩ | classHash) -
      · exact .pure trivial
      · exact .pure trivial
      · exact ih _

theorem survey_keeps (hserves : client.Serves allowed holds) (hsnapshot : allowed .snapshot)
    (instanceId : InstanceId) (classHash : ClassHash) (classes : ClassTable) :
    Keeps holds (fun outcome => ∀ deployment, outcome.1 = .ok deployment →
        deployment.schema.FoundIn options target.abi)
      (survey client target declared options instanceId classHash classes) := by
  rcases hdiscover : Schema.discover target.abi (declared.map Artifact.abi) options with
    ⟨e | schema, log⟩
  · simp only [survey, hdiscover]
    exact .pure nofun
  · simp only [survey, hdiscover]
    split
    · exact .pure nofun
    · refine .bind (hserves.snapshot hsnapshot) ?_
      rintro (e | baseline) -
      · exact .pure nofun
      · refine .pure ?_
        rintro _ ⟨⟩
        exact Schema.discover_foundIn (congrArg Prod.fst hdiscover)

theorem deploy_keeps (hserves : client.Serves allowed holds) (hdeclare : allowed .declare)
    (hdeploy : allowed (.deploy [])) (hsnapshot : allowed .snapshot) (coverage : Coverage) :
    Keeps holds (fun outcome => ∀ deployment, outcome.1 = .ok deployment →
        deployment.schema.FoundIn options target.abi)
      (deploy client target declared options coverage) := by
  rw [deploy]
  split
  · exact .pure nofun
  refine .bind (declareAll_keeps hserves hdeclare declared .empty) ?_
  rintro (e | classes) -
  · exact .pure nofun
  refine .bind (hserves.deploy target [] hdeploy) ?_
  rintro (⟨r | fault⟩ | frame) -
  · exact .pure nofun
  · exact .pure nofun
  have hclass : Keeps holds (fun _ => True) (classOf client target frame) := by
    rw [classOf]
    split
    · exact .pure trivial
    · refine .bind (hserves.declare target hdeclare) ?_
      rintro (e | classHash) -
      · exact .pure trivial
      · exact .pure trivial
  refine .bind hclass ?_
  rintro (e | classHash) -
  · exact .pure nofun
  · exact .bind (survey_keeps hserves hsnapshot _ _ _) fun _ hfound => .pure hfound

end Deployment

namespace Campaign

variable {client : Client (StateM σ)} {holds : σ → Prop}

theorem run_keeps {config : Config} {deployment : Deployment}
    (hserves : client.Serves (Asks deployment.site (config.oracle deployment)
      (deployment.schema.functions.map Callable.name) (config.obligations deployment).live) holds)
    (targetName : String) (coverage : Coverage) :
    Keeps holds (fun _ => True) (run client config deployment targetName coverage) := by
  have hobserve (_ : Log) : Keeps holds (fun _ => True) (pure () : StateM σ Unit) := .pure trivial
  rcases hprepare : prepare config deployment coverage with ⟨e | ⟨campaign, state⟩, log⟩
  · simp only [run, runObserved, hprepare]
    exact .bind (hobserve log) fun _ _ => .pure trivial
  simp only [run, runObserved, hprepare]
  refine .bind (hobserve log) fun _ _ => ?_
  obtain ⟨generator, -, rfl, rfl⟩ := prepare_eq_ok hprepare
  refine .bind (loop_keeps hserves hobserve _ _ (List.Subset.refl _)) fun _ _ => ?_
  exact .pure trivial

end Campaign

/-- The client that notes what is asked of another, the last request coming last. -/
def Client.noting (client : Client (StateM σ)) : Client (StateM (List Request × σ)) :=
  let note {α : Type} (request : Request) (perform : StateM σ α) : StateM (List Request × σ) α :=
    fun (noted, world) =>
      let (answer, next) := perform world
      (answer, noted ++ [request], next)
  { deploy := fun artifact arguments => note (.deploy arguments) (client.deploy artifact arguments)
    declare := fun artifact => note .declare (client.declare artifact)
    invoke := fun call => note (.invoke call) (client.invoke call)
    query := fun call => note (.query call) (client.query call)
    snapshot := note .snapshot client.snapshot
    restore := fun handle => note (.restore handle) (client.restore handle) }

theorem Client.noting_serves (client : Client (StateM σ)) (allowed : Request → Prop) :
    client.noting.Serves allowed fun state => ∀ request ∈ state.1, allowed request := by
  have hnote {request : Request} (hallowed : allowed request) {noted : List Request}
      (hnoted : ∀ other ∈ noted, allowed other) : ∀ other ∈ noted ++ [request], allowed other :=
    List.forall_mem_append.mpr ⟨hnoted, List.forall_mem_singleton.mpr hallowed⟩
  exact
    { deploy := fun _ _ hallowed _ hnoted => ⟨trivial, hnote hallowed hnoted⟩
      declare := fun _ hallowed _ hnoted => ⟨trivial, hnote hallowed hnoted⟩
      invoke := fun _ hallowed _ hnoted => ⟨trivial, hnote hallowed hnoted⟩
      query := fun _ hallowed _ hnoted => ⟨trivial, hnote hallowed hnoted⟩
      snapshot := fun hallowed _ hnoted => ⟨trivial, hnote hallowed hnoted⟩
      restore := fun _ hallowed _ hnoted => ⟨trivial, hnote hallowed hnoted⟩ }

end ContractFuzz
