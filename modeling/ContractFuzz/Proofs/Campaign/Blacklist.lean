import ContractFuzz.Proofs.Campaign.Requests
import ContractFuzz.Proofs.Campaign.Sessions
import ContractFuzz.Sandbox.Executor

namespace ContractFuzz

open Sandbox (Request)

variable {σ : Type}

/-- Requests that call nothing that is blacklisted, unless they query a property of the interface. -/
def Config.Spares (config : Config) (abi : List Abi.Entry) : Request → Prop
  | .invoke call => call.function ∉ config.effectiveBlacklist
  | .query call => config.mode = .property ∧ ∃ f, .function f ∈ abi ∧ f.name = call.function ∧
      f.isProperty = true ∧ config.schemaOptions.marksProperty f.name = true
  | _ => True

namespace Campaign

theorem spares_of_asks {config : Config} {deployment : Deployment} {abi : List Abi.Entry}
    (hfound : deployment.schema.FoundIn config.schemaOptions abi) {request : Request}
    (h : Asks deployment.site (config.oracle deployment)
      (deployment.schema.functions.map Callable.name) (config.obligations deployment).live request) :
    config.Spares abi request := by
  cases h with
  | restore => trivial
  | invoke call called =>
      obtain ⟨c, hc, hname⟩ := List.mem_map.mp called
      obtain ⟨entry, -, f, hrole, hcallable⟩ := hfound.functions c hc
      have hallowed := SchemaOptions.not_mem_blacklist (SchemaOptions.of_role_callable hrole).2
      rw [← (Schema.callableOf_eq_ok hcallable).1, hname] at hallowed
      exact hallowed
  | @query target sender name wanted named =>
      rw [Config.oracle] at wanted
      split at wanted
      · rename_i hmode
        rw [Config.obligations, hmode, Obligations.mem_ofList] at named
        obtain ⟨c, hc, hname⟩ := List.mem_map.mp named
        obtain ⟨entry, hentry, f, hrole, rfl⟩ := hfound.properties c hc
        obtain ⟨rfl, hmarked, hproperty⟩ := SchemaOptions.of_role_property hrole
        exact ⟨hmode, f, hentry, hname, hproperty, hmarked⟩
      · cases wanted

/-- Whatever the client answers, nothing that is blacklisted is called over a whole session, and
nothing but properties is queried. -/
theorem session_spares (client : Client (StateM σ)) (config : Config) (target : Artifact)
    (declared : List Artifact) (targetName : String) (coverage : Coverage) (world : σ) :
    ∀ request ∈ (session client.noting config target declared targetName coverage
      ([], world)).2.1, config.Spares target.abi request := by
  -- Requests are noted as they are made, so what holds of all that may be asked for is an invariant
  -- of the notes, in the deployment and, with its schema, in the run.
  have hserves := client.noting_serves (config.Spares target.abi)
  have hsession : Keeps (fun state => ∀ request ∈ state.1, config.Spares target.abi request)
      (fun _ => True) (session client.noting config target declared targetName coverage) := by
    refine .bind (Deployment.deploy_keeps hserves trivial trivial trivial coverage) ?_
    rintro ⟨e | deployment, covered, log⟩ hfound
    · exact .pure trivial
    · refine .bind (run_keeps (hserves.mono fun _ => spares_of_asks (hfound _ rfl)) _ _) ?_
      exact fun _ _ => .pure trivial
  exact (hsession ([], world) fun _ h => absurd h List.not_mem_nil).2

/-- A gauge that is let out and reset, with an invariant that is soon broken and one that is not. -/
def gauge : Sandbox.Program :=
  [.external "bump" [] fun storage _ => .ok ({}, storage.write "size" 1),
    .external "reset" [] fun storage _ => .ok ({}, storage.write "size" 0),
    .property "tayt_small" fun storage _ =>
      .ok ({ returnData := [if storage.read "size" = 0 then 1 else 0] }, storage),
    .property "tayt_slow" fun storage _ => .ok ({ returnData := [1] }, storage)]

def gaugeConfig : Config :=
  { sequenceLength := 1, senders := [0], seed := 1, maxIterations := some 1
    blacklist := .ofList ["reset", "tayt_slow"] }

/-- What is asked of the client, first in the iteration, then in the one trial of shrinking. -/
def gaugeRequests : List Request :=
  let restore : Request := .restore ⟨0⟩
  let query (name : String) : Request := .query (Oracle.propertyQuery 0x1000 1 name)
  [.deploy [], .snapshot, restore, .invoke ⟨0x1000, "bump", [], 0, 0, .external, none⟩,
    query "tayt_small", query "tayt_slow", restore, query "tayt_small", query "tayt_slow"]

theorem session_gauge :
    (session gauge.client.noting gaugeConfig gauge.artifact [] "" .empty ([], {})).2.1 =
      gaugeRequests := by decide +kernel

theorem session_spares_gauge :
    (session gauge.client.noting gaugeConfig gauge.artifact [] "" .empty ([], {})).2.1 =
        gaugeRequests ∧
      ∀ request ∈ gaugeRequests, gaugeConfig.Spares gauge.artifact.abi request :=
  ⟨session_gauge, session_gauge ▸
    session_spares gauge.client gaugeConfig gauge.artifact [] "" .empty {}⟩

/-- A property is queried although its name is among those that are never to be called. -/
theorem gauge_queries_blacklisted : ∃ call : Invocation,
    .query call ∈ (session gauge.client.noting gaugeConfig gauge.artifact [] "" .empty
      ([], {})).2.1 ∧
      call.function ∈ gaugeConfig.effectiveBlacklist := by
  refine ⟨Oracle.propertyQuery 0x1000 1 "tayt_slow", ?_, ?_⟩
  · rw [session_gauge]
    decide
  · rw [← SortedSet.contains_iff_mem]
    decide +kernel

end Campaign

end ContractFuzz
