import ContractFuzz.Proofs.Campaign.Catalogue
import ContractFuzz.Proofs.Schema.Discovery

namespace ContractFuzz

theorem eraseDups_filter (p : String → Bool) (names : List String) :
    (names.filter p).eraseDups = names.eraseDups.filter p := by
  match names with
  | [] => rfl
  | name :: rest =>
    have hrest := eraseDups_filter p (rest.filter fun other => !other == name)
    rw [List.eraseDups_cons, List.filter_filter] at *
    by_cases hname : p name = true
    · rw [List.filter_cons_of_pos hname, List.filter_cons_of_pos hname, List.eraseDups_cons,
        ← hrest, List.filter_filter]
      simp only [Bool.and_comm]
    · rw [List.filter_cons_of_neg hname, List.filter_cons_of_neg hname, ← hrest]
      congr 1
      refine List.filter_congr fun other _ => ?_
      by_cases hother : other = name
      · simp [hother, hname]
      · simp [hother]
termination_by names.length
decreasing_by exact Nat.lt_succ_of_le (List.length_filter_le _ _)

theorem eraseDups_eraseDups (names : List String) :
    names.eraseDups.eraseDups = names.eraseDups := by
  match names with
  | [] => rfl
  | name :: rest =>
    have hrest := eraseDups_eraseDups (rest.filter fun other => !other == name)
    rw [List.eraseDups_cons, List.eraseDups_cons, ← eraseDups_filter, List.filter_filter]
    simp only [Bool.and_self, hrest]
termination_by names.length
decreasing_by exact Nat.lt_succ_of_le (List.length_filter_le _ _)

theorem removeAll_congr {names known others : List String}
    (h : ∀ name, name ∈ known ↔ name ∈ others) :
    names.removeAll known = names.removeAll others := by
  refine List.filter_congr fun name _ => ?_
  simp only [List.elem_eq_mem, h]

theorem eraseDups_removeAll_cons (name : String) (rest known : List String) :
    ((name :: rest).removeAll known).eraseDups =
      if name ∈ known then (rest.removeAll known).eraseDups
      else name :: (rest.removeAll (name :: known)).eraseDups := by
  rw [List.cons_removeAll]
  by_cases hknown : name ∈ known
  · simp [hknown]
  · simp only [hknown, List.contains_eq_mem, decide_false, if_true, if_false, List.eraseDups_cons,
      List.removeAll, List.filter_filter]
    congr 2
    refine List.filter_congr fun other _ => ?_
    rw [Bool.eq_iff_iff]
    simp

theorem eraseDups_flatMap {α : Type} (names : α → List String) (lists : List α) :
    (lists.flatMap fun list => (names list).eraseDups).eraseDups =
      (lists.flatMap names).eraseDups := by
  induction lists with
  | nil => rfl
  | cons list rest ih =>
      have hknown (others : List String) :
          others.removeAll (names list).eraseDups = others.removeAll (names list) :=
        removeAll_congr fun _ => List.mem_eraseDups
      rw [List.flatMap_cons, List.flatMap_cons, List.eraseDups_append, List.eraseDups_append,
        eraseDups_eraseDups, hknown, List.removeAll, List.removeAll, eraseDups_filter,
        eraseDups_filter, ih]

theorem names_foldl {α β : Type} (names : α → List String) (name : β → String) {add : α → β → α}
    (hadd : ∀ known x, names (add known x) =
      if name x ∈ names known then names known else names known ++ [name x])
    (known : α) (xs : List β) :
    names (xs.foldl add known) =
      names known ++ ((xs.map name).removeAll (names known)).eraseDups := by
  induction xs generalizing known with
  | nil => exact (List.append_nil _).symm
  | cons x rest ih =>
      rw [List.foldl_cons, ih, hadd, List.map_cons, eraseDups_removeAll_cons]
      split
      · rfl
      · rw [List.append_assoc, List.singleton_append]
        congr 3
        exact removeAll_congr fun _ => by simp [or_comm]

namespace Obligations

theorem live_add (o : Obligations) (name : String) :
    (o.add name).live = if name ∈ o.live then o.live else o.live ++ [name] := by
  rw [add]
  split
  · rfl
  · rfl

theorem live_ofList (names : List String) : (ofList names).live = names.eraseDups := by
  have hfold := names_foldl live id live_add empty names
  rw [ofList, hfold, List.map_id, empty, List.removeAll_nil, List.nil_append]

end Obligations

theorem Diagnostic.templates_distinctFrom (seen : List String) (entries : List Diagnostic) :
    (distinctFrom seen entries).map messageTemplate =
      ((entries.map messageTemplate).removeAll seen).eraseDups := by
  induction entries generalizing seen with
  | nil => rfl
  | cons d rest ih =>
      rw [distinctFrom, List.map_cons, eraseDups_removeAll_cons, List.contains_eq_mem]
      simp only [decide_eq_true_eq]
      split
      · exact ih seen
      · rw [List.map_cons, ih]

theorem Artifact.templates_messageTemplates (artifact : Artifact) :
    artifact.messageTemplates.map Diagnostic.messageTemplate =
      (artifact.diagnostics.map Diagnostic.messageTemplate).eraseDups := by
  rw [messageTemplates, Diagnostic.templates_distinctFrom, List.removeAll_nil]

namespace Deployment

theorem templates_addDiagnostic (known : List Diagnostic) (d : Diagnostic) :
    (addDiagnostic known d).map Diagnostic.messageTemplate =
      if d.messageTemplate ∈ known.map Diagnostic.messageTemplate then
        known.map Diagnostic.messageTemplate
      else known.map Diagnostic.messageTemplate ++ [d.messageTemplate] := by
  have hknown : (known.any fun other => other.messageTemplate == d.messageTemplate) = true ↔
      d.messageTemplate ∈ known.map Diagnostic.messageTemplate := by
    simp only [List.any_eq_true, beq_iff_eq, List.mem_map]
  rw [addDiagnostic]
  split
  · rename_i h
    rw [if_pos (hknown.mp h)]
  · rename_i h
    rw [if_neg (mt hknown.mpr h), List.map_append, List.map_singleton]

theorem templates_diagnosticsOf (artifacts : List Artifact) :
    (diagnosticsOf artifacts).map Diagnostic.messageTemplate =
      ((artifacts.flatMap Artifact.diagnostics).map Diagnostic.messageTemplate).eraseDups := by
  have hfold := names_foldl (List.map Diagnostic.messageTemplate) Diagnostic.messageTemplate
    templates_addDiagnostic [] (artifacts.flatMap Artifact.messageTemplates)
  rw [diagnosticsOf, hfold, List.map_nil, List.nil_append, List.removeAll_nil, List.map_flatMap,
    List.map_flatMap]
  simp only [Artifact.templates_messageTemplates, eraseDups_flatMap]

end Deployment

/-- The names that a campaign is to look for, as often as the contracts give them: those of the
properties of the target, or the templates of the assertions of all contracts. -/
def Config.sought (config : Config) (target : Artifact) (declared : List Artifact) : List String :=
  match config.mode with
  | .property => (target.abi.filterMap config.schemaOptions.checked?).map Abi.Function.name
  | .exception =>
      ((target :: declared).flatMap Artifact.diagnostics).map Diagnostic.messageTemplate

variable {σ : Type} {client : Client (StateM σ)} {config : Config} {target : Artifact}
  {declared : List Artifact} {coverage : Coverage} {world : σ} {deployment : Deployment}

theorem Deployment.propertyNames_of_deploy {options : SchemaOptions}
    (h : (deploy client target declared options coverage world).1.1 = .ok deployment) :
    deployment.schema.propertyNames =
      (target.abi.filterMap options.checked?).map Abi.Function.name := by
  obtain ⟨classes, frame, classHash, schema, baseline, ready, constructed, known, -, -, -,
    hdiscover, -, rfl⟩ := deploy_eq_ok (Prod.ext (Prod.ext h rfl) rfl)
  rw [Schema.propertyNames, (Schema.surface_of_discover hdiscover).2, List.map_map]
  rfl

theorem Config.live_obligations_of_deploy
    (h : (Deployment.deploy client target declared config.schemaOptions coverage world).1.1 =
      .ok deployment) :
    (config.obligations deployment).live = (config.sought target declared).eraseDups := by
  cases hmode : config.mode
  · simp only [obligations, sought, hmode]
    rw [Obligations.live_ofList, Deployment.propertyNames_of_deploy h]
  · simp only [obligations, sought, hmode]
    rw [Obligations.live_ofList, Deployment.diagnostics_of_deploy h,
      Deployment.templates_diagnosticsOf, eraseDups_eraseDups]

/-- Wherever a deployment succeeds, a campaign against it starts with the names that it is to look
for, each where it comes first, and these are the ones that its report gives. -/
theorem Campaign.starts_with_sought
    (h : (Deployment.deploy client target declared config.schemaOptions coverage world).1.1 =
      .ok deployment) :
    (∀ covered campaign state log,
      prepare config deployment covered = (.ok (campaign, state), log) →
        state.progress.live.live = (config.sought target declared).eraseDups) ∧
    ∀ targetName covered deployed report,
      (run client config deployment targetName covered deployed).1.result = .ok report →
        report.obligations = (config.sought target declared).eraseDups := by
  have hlive := Config.live_obligations_of_deploy h
  constructor
  · intro covered campaign state log hprepare
    obtain ⟨generator, -, -, rfl⟩ := prepare_eq_ok hprepare
    exact hlive
  · intro targetName covered deployed report hreport
    obtain ⟨campaign, state, log, ended, last, -, -, rfl⟩ := run_ends hreport
    exact hlive

/-- A harbour with repeated properties and assertions. -/
def Sandbox.harbour : Sandbox.Program :=
  [.external "enter" [] fun storage _ => .ok ({}, storage),
    .property "tayt_open" fun storage _ => .ok ({ returnData := [1] }, storage),
    .property "tayt_calm" fun storage _ => .ok ({ returnData := [1] }, storage),
    .property "tayt_open" fun storage _ => .ok ({ returnData := [0] }, storage),
    .diagnostic ⟨"Harbour", "full"⟩, .diagnostic ⟨"Harbour", "shut"⟩,
    .diagnostic ⟨"Harbour.Quay", "full"⟩]

def Sandbox.tug : Artifact :=
  (catalogued [⟨"Tug", "slow"⟩, ⟨"Tug", "shut"⟩, ⟨"Tug", "slow"⟩]).artifact

theorem Campaign.starts_with_sought_harbour :
    ∃ deployment, (Deployment.deploy Sandbox.harbour.client Sandbox.harbour.artifact [Sandbox.tug]
        ({} : Config).schemaOptions .empty {}).1.1 = .ok deployment ∧
      (∃ campaign state log,
        prepare {} deployment .empty = (.ok (campaign, state), log) ∧
        state.progress.live.live = ["tayt_open", "tayt_calm"]) ∧
      ∃ campaign state log,
        prepare exceptionConfig deployment .empty = (.ok (campaign, state), log) ∧
        state.progress.live.live = ["full", "shut", "slow"] := by
  have hdeployed : (Deployment.deploy Sandbox.harbour.client Sandbox.harbour.artifact [Sandbox.tug]
      ({} : Config).schemaOptions .empty {}).1.1.map (fun _ => ()) = .ok () := by decide +kernel
  obtain ⟨deployment, hdeploy, -⟩ := exists_of_map_eq_ok hdeployed
  have hasserting : (Deployment.deploy Sandbox.harbour.client Sandbox.harbour.artifact
      [Sandbox.tug] exceptionConfig.schemaOptions .empty {}).1.1 = .ok deployment := hdeploy
  have hproperties := (starts_with_sought hdeploy).1
  have hassertions := (starts_with_sought hasserting).1
  refine ⟨deployment, hdeploy, ⟨_, _, _, rfl, ?_⟩, _, _, _, rfl, ?_⟩
  · exact (hproperties .empty _ _ _ rfl).trans (by decide +kernel)
  · exact (hassertions .empty _ _ _ rfl).trans (by decide +kernel)

end ContractFuzz
