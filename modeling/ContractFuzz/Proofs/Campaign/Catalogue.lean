import ContractFuzz.Proofs.Campaign.Deployments
import ContractFuzz.Proofs.Campaign.Oracle
import ContractFuzz.Sandbox.Executor
import Mathlib.Data.List.Nodup

/-!
Which catalogued assertions a campaign recognises. Of the entries that share a template only the
first is kept, with its signature; the oracle reads a revert by the first signature, in their order,
that its last line starts with.
-/

namespace ContractFuzz

def Diagnostic.hasTemplate (template : String) (d : Diagnostic) : Bool :=
  d.messageTemplate == template

theorem Diagnostic.hasTemplate_iff {template : String} {d : Diagnostic} :
    d.hasTemplate template = true ↔ d.messageTemplate = template := beq_iff_eq

/-- Entries of a catalogue are kept if they come before all others with their template. -/
def Diagnostic.IsKept (d : Diagnostic) (catalogue : List Diagnostic) : Prop :=
  catalogue.find? (hasTemplate d.messageTemplate) = some d

instance (d : Diagnostic) (catalogue : List Diagnostic) : Decidable (d.IsKept catalogue) :=
  inferInstanceAs (Decidable (catalogue.find? (Diagnostic.hasTemplate d.messageTemplate) = some d))

/-- A catalogue tells the failures of a signature if an entry that is kept has the signature, and if
no other signature that is kept is taken for it: none stands, with its colon, at the front of this
one with its own. -/
structure Diagnostic.Tells (catalogue : List Diagnostic) (signature : String) : Prop where
  kept : ∃ d : Diagnostic, d.IsKept catalogue ∧ d.signature = signature
  clear : ∀ d : Diagnostic, d.IsKept catalogue →
    Text.startsWith (signature ++ ": ") (d.signature ++ ": ") = true → d.signature = signature

namespace Diagnostic

theorem find?_distinctFrom {seen : List String} {template : String} (h : template ∉ seen)
    (entries : List Diagnostic) :
    (distinctFrom seen entries).find? (hasTemplate template) =
      entries.find? (hasTemplate template) := by
  induction entries generalizing seen with
  | nil => rfl
  | cons d rest ih =>
      rw [distinctFrom]
      by_cases hsame : d.messageTemplate = template
      · have hunseen : ¬seen.contains d.messageTemplate = true := by
          rw [hsame, List.contains_iff_mem]
          exact h
        rw [if_neg hunseen, List.find?_cons_of_pos (hasTemplate_iff.mpr hsame),
          List.find?_cons_of_pos (hasTemplate_iff.mpr hsame)]
      · have hother : ¬d.hasTemplate template = true := mt hasTemplate_iff.mp hsame
        rw [List.find?_cons_of_neg hother]
        split
        · exact ih h
        · rw [List.find?_cons_of_neg hother]
          refine ih fun hmem => ?_
          rcases List.mem_cons.mp hmem with heq | hmem
          · exact hsame heq.symm
          · exact h hmem

end Diagnostic

namespace Deployment

theorem find?_foldl_addDiagnostic (template : String) (known entries : List Diagnostic) :
    (entries.foldl addDiagnostic known).find? (Diagnostic.hasTemplate template) =
      (known ++ entries).find? (Diagnostic.hasTemplate template) := by
  induction entries generalizing known with
  | nil => rw [List.foldl_nil, List.append_nil]
  | cons d rest ih =>
      rw [List.foldl_cons, ih, addDiagnostic]
      split
      · rename_i hknown
        obtain ⟨other, hother, hsame⟩ := List.any_eq_true.mp hknown
        rw [List.find?_append, List.find?_append]
        by_cases hsought : d.messageTemplate = template
        · have hfound : (known.find? (Diagnostic.hasTemplate template)).isSome = true := by
            rw [List.find?_isSome]
            exact ⟨other, hother, hsought ▸ hsame⟩
          rw [Option.or_of_isSome hfound, Option.or_of_isSome hfound]
        · rw [List.find?_cons_of_neg (mt Diagnostic.hasTemplate_iff.mp hsought)]
      · rw [List.append_assoc, List.singleton_append]

theorem find?_diagnosticsOf (template : String) (artifacts : List Artifact) :
    (diagnosticsOf artifacts).find? (Diagnostic.hasTemplate template) =
      (artifacts.flatMap Artifact.diagnostics).find? (Diagnostic.hasTemplate template) := by
  rw [diagnosticsOf, find?_foldl_addDiagnostic, List.nil_append, List.find?_flatMap,
    List.find?_flatMap]
  congr 1
  funext artifact
  exact Diagnostic.find?_distinctFrom List.not_mem_nil artifact.diagnostics

theorem templates_foldl_addDiagnostic {known : List Diagnostic} (entries : List Diagnostic)
    (h : (known.map Diagnostic.messageTemplate).Nodup) :
    ((entries.foldl addDiagnostic known).map Diagnostic.messageTemplate).Nodup := by
  induction entries generalizing known with
  | nil => exact h
  | cons d rest ih =>
      rw [List.foldl_cons]
      apply ih
      rw [addDiagnostic]
      split
      · exact h
      · rename_i hnew
        rw [List.map_append, List.map_singleton, List.nodup_append]
        refine ⟨h, List.nodup_singleton _, ?_⟩
        rintro template htemplate other hother rfl
        obtain ⟨known, hknown, hsame⟩ := List.mem_map.mp htemplate
        refine hnew (List.any_eq_true.mpr ⟨known, hknown, ?_⟩)
        rw [hsame, List.mem_singleton.mp hother, beq_self_eq_true]

theorem nodup_templates (artifacts : List Artifact) :
    ((diagnosticsOf artifacts).map Diagnostic.messageTemplate).Nodup :=
  templates_foldl_addDiagnostic _ List.nodup_nil

theorem mem_diagnosticsOf {d : Diagnostic} {artifacts : List Artifact} :
    d ∈ diagnosticsOf artifacts ↔ d.IsKept (artifacts.flatMap Artifact.diagnostics) := by
  rw [Diagnostic.IsKept, ← find?_diagnosticsOf]
  constructor
  · intro hmem
    obtain ⟨found, hfound⟩ := Option.isSome_iff_exists.mp (List.find?_isSome.mpr
      ⟨d, hmem, Diagnostic.hasTemplate_iff.mpr rfl⟩)
    have hsame := Diagnostic.hasTemplate_iff.mp (List.find?_some hfound)
    rw [hfound, List.inj_on_of_nodup_map (nodup_templates artifacts)
      (List.mem_of_find?_eq_some hfound) hmem hsame]
  · exact List.mem_of_find?_eq_some

theorem diagnostics_of_deploy {σ : Type} {client : Client (StateM σ)} {target : Artifact}
    {declared : List Artifact} {options : SchemaOptions} {world : σ} {deployment : Deployment}
    {coverage : Coverage}
    (h : (deploy client target declared options coverage world).1.1 = .ok deployment) :
    deployment.diagnostics = diagnosticsOf (target :: declared) := by
  obtain ⟨classes, frame, classHash, schema, baseline, ready, constructed, known, -, -, -, -, -,
    rfl⟩ := deploy_eq_ok (Prod.ext (Prod.ext h rfl) rfl)
  rfl

end Deployment

theorem Text.not_lt_of_startsWith {separator front s : String}
    (h : Text.startsWith (s ++ separator) (front ++ separator) = true) :
    compare s front ≠ .lt := by
  rw [Text.startsWith, List.isPrefixOf_iff_prefix, String.toList_append, String.toList_append] at h
  have hlength := h.length_le
  rw [List.length_append, List.length_append, Nat.add_le_add_iff_right] at hlength
  have hfront : front.toList <+: s.toList :=
    List.prefix_of_prefix_length_le ((List.prefix_append _ _).trans h) (List.prefix_append _ _)
      hlength
  intro hlt
  exact List.not_lt.mpr hfront.le (String.lt_iff.mp (compareOfLessAndEq_eq_lt.mp hlt))

section Signatures

variable {signatures : SortedSet String} {signature : String}

theorem Oracle.reads_of_clear (hmem : signature ∈ signatures)
    (hclear : ∀ other ∈ signatures,
      Text.startsWith (signature ++ ": ") (other ++ ": ") = true → other = signature)
    (text : String) :
    (signatures.toList.findSome? fun other =>
      Text.dropFront? (other ++ ": ") (signature ++ ": " ++ text)) = some text := by
  -- Of two signatures that match, one stands at the front of the other, and it comes first.
  obtain ⟨before, after, hsignatures⟩ := List.append_of_mem (SortedSet.mem_toList.mpr hmem)
  have hsorted := signatures.ascending
  rw [Ascending, hsignatures, List.pairwise_append] at hsorted
  refine List.findSome?_eq_some_iff.mpr
    ⟨before, signature, after, hsignatures, Text.dropFront?_append _ _, fun other hother => ?_⟩
  have hlt : compare other signature = .lt := hsorted.2.2 other hother signature List.mem_cons_self
  have hknown : other ∈ signatures := by
    rw [← SortedSet.mem_toList, hsignatures]
    exact List.mem_append_left _ hother
  rw [Option.eq_none_iff_forall_ne_some]
  intro rest hrest
  have hmatches := Text.startsWith_iff.mpr ⟨rest, Text.dropFront?_eq_some_iff.mp hrest⟩
  rcases Text.startsWith_or_startsWith hmatches (Text.startsWith_iff.mpr ⟨text, rfl⟩) with
    htaken | htaken
  · have hself : compare signature signature = .eq := Std.ReflCmp.compare_self
    rw [hclear other hknown htaken, hself] at hlt
    cases hlt
  · exact Text.not_lt_of_startsWith htaken hlt

theorem Oracle.clear_of_reads
    (h : ∀ text, (signatures.toList.findSome? fun other =>
      Text.dropFront? (other ++ ": ") (signature ++ ": " ++ text)) = some text) :
    signature ∈ signatures ∧ ∀ other ∈ signatures,
      Text.startsWith (signature ++ ": ") (other ++ ": ") = true → other = signature := by
  obtain ⟨before, found, after, hsignatures, hfound, hbefore⟩ :=
    List.findSome?_eq_some_iff.mp (h "")
  -- What matches the bare signature without leaving anything is the signature itself.
  obtain rfl : signature = found := by
    have hline := congrArg String.toList (Text.dropFront?_eq_some_iff.mp hfound)
    simp only [String.toList_append, List.append_cancel_right_eq] at hline
    exact String.toList_inj.mp hline
  have hsorted := signatures.ascending
  rw [Ascending, hsignatures, List.pairwise_append, List.pairwise_cons] at hsorted
  refine ⟨?_, fun other hother htaken => ?_⟩
  · rw [← SortedSet.mem_toList, hsignatures]
    exact List.mem_append_right _ List.mem_cons_self
  · rw [← SortedSet.mem_toList, hsignatures] at hother
    rcases List.mem_append.mp hother with hother | hother
    · obtain ⟨rest, hrest⟩ := Text.startsWith_iff.mp htaken
      have hnone := hbefore other hother
      rw [hrest, String.append_assoc, Text.dropFront?_append] at hnone
      cases hnone
    · rcases List.mem_cons.mp hother with rfl | hother
      · rfl
      · exact absurd (hsorted.2.1.1 other hother) (Text.not_lt_of_startsWith htaken)

/-- Where sorted signatures are tried in their order, what follows a signature is always read as its
message exactly if the signature is among them and none of the others is taken for it. -/
theorem Oracle.reads_iff :
    (∀ text, (signatures.toList.findSome? fun other =>
      Text.dropFront? (other ++ ": ") (signature ++ ": " ++ text)) = some text) ↔
    signature ∈ signatures ∧ ∀ other ∈ signatures,
      Text.startsWith (signature ++ ": ") (other ++ ": ") = true → other = signature :=
  ⟨clear_of_reads, fun ⟨hmem, hclear⟩ => reads_of_clear hmem hclear⟩

end Signatures

theorem Oracle.extractMessage?_eq (signatures : List String) (r : Revert) :
    extractMessage? signatures r =
      signatures.findSome? fun signature => Text.dropFront? (signature ++ ": ") r.lastLine := by
  simp only [extractMessage?, Text.dropFront?_bind]

theorem Config.oracle_exception {config : Config} (h : config.mode = .exception)
    (deployment : Deployment) :
    config.oracle deployment =
      .exceptions (SortedSet.ofList (deployment.diagnostics.map Diagnostic.signature)).toList := by
  rw [Config.oracle, h]

/-- A live assertion that fails with a signature the catalogue tells is never missed: the message
behind the signature is matched by a live template that it starts with. -/
theorem Oracle.inspectRevert?_of_tells {σ : Type} {client : Client (StateM σ)} {target : Artifact}
    {declared : List Artifact} {options : SchemaOptions} {coverage : Coverage} {world : σ}
    {deployment : Deployment}
    (hdeploy : (Deployment.deploy client target declared options coverage world).1.1 =
      .ok deployment)
    {config : Config} (hmode : config.mode = .exception) {signature template text : String}
    (htells : Diagnostic.Tells ((target :: declared).flatMap Artifact.diagnostics) signature)
    {live : Obligations} (hlive : template ∈ live.live) {r : Revert}
    (hline : r.lastLine = signature ++ ": " ++ text)
    (htext : Text.startsWith text template = true) :
    ∃ found ∈ live.live, Text.startsWith text found = true ∧
      (config.oracle deployment).inspectRevert? live r = some (.exception found text) := by
  let signatures : SortedSet String :=
    .ofList ((Deployment.diagnosticsOf (target :: declared)).map Diagnostic.signature)
  have hknown {other : String} : other ∈ signatures ↔ ∃ d : Diagnostic,
      d.IsKept ((target :: declared).flatMap Artifact.diagnostics) ∧ d.signature = other := by
    simp only [signatures, SortedSet.mem_ofList, List.mem_map, Deployment.mem_diagnosticsOf]
  have hmessage : extractMessage? signatures.toList r = some text := by
    rw [extractMessage?_eq, hline]
    refine reads_of_clear (hknown.mpr htells.kept) (fun other hother htaken => ?_) text
    obtain ⟨d, hkept, rfl⟩ := hknown.mp hother
    exact htells.clear d hkept htaken
  obtain ⟨found, hfound⟩ : ∃ found, live.matching? text = some found :=
    Option.isSome_iff_exists.mp (List.find?_isSome.mpr ⟨template, hlive, htext⟩)
  refine ⟨found, List.mem_of_find?_eq_some hfound, List.find?_some hfound, ?_⟩
  rw [Config.oracle_exception hmode, Deployment.diagnostics_of_deploy hdeploy]
  exact inspectRevert?_of_message hmessage hfound

theorem exists_of_map_eq_ok {ε α β : Type} {x : Except ε α} {f : α → β} {b : β}
    (h : x.map f = .ok b) : ∃ a, x = .ok a ∧ f a = b := by
  cases x with
  | error e => cases h
  | ok a => exact ⟨a, rfl, Except.ok.inj h⟩

/-- A program with a catalogue and a function to call. -/
def Sandbox.catalogued (catalogue : List Diagnostic) : Sandbox.Program :=
  .external "spend" [] (fun storage _ => .ok ({}, storage)) :: catalogue.map .diagnostic

def Sandbox.deployCatalogued (catalogue : List Diagnostic) : Except SetupError Deployment :=
  let program := Sandbox.catalogued catalogue
  (Deployment.deploy program.client program.artifact [] ({} : Config).schemaOptions .empty {}).1.1

def exceptionConfig : Config := { mode := .exception }

/-- Two signatures, of which the one begins like the other but is not taken for it. -/
def ledgerCatalogue : List Diagnostic := [⟨"ledger.Failure", "overflow"⟩, ⟨"ledger", "limit"⟩]

theorem ledgerCatalogue_tells : Diagnostic.Tells ledgerCatalogue "ledger.Failure" where
  kept := ⟨⟨"ledger.Failure", "overflow"⟩, by decide +kernel, rfl⟩
  clear := by
    intro d hkept
    have hmem : d ∈ ledgerCatalogue := List.mem_of_find?_eq_some hkept
    clear hkept
    revert d
    decide +kernel

theorem Oracle.inspectRevert?_of_tells_ledger :
    ∃ deployment, Sandbox.deployCatalogued ledgerCatalogue = .ok deployment ∧
      Diagnostic.Tells ledgerCatalogue "ledger.Failure" ∧
      ∃ found ∈ (exceptionConfig.obligations deployment).live,
        Text.startsWith "overflow in 3" found = true ∧
        (exceptionConfig.oracle deployment).inspectRevert? (exceptionConfig.obligations deployment)
          ⟨"ledger.Failure: overflow in 3"⟩ = some (.exception found "overflow in 3") := by
  have hdeployed : (Sandbox.deployCatalogued ledgerCatalogue).map (fun deployment =>
      (exceptionConfig.obligations deployment).live) = .ok ["overflow", "limit"] := by
    decide +kernel
  obtain ⟨deployment, hdeploy, hlive⟩ := exists_of_map_eq_ok hdeployed
  have hmem : "overflow" ∈ (exceptionConfig.obligations deployment).live :=
    hlive ▸ List.mem_cons_self
  exact ⟨deployment, hdeploy, ledgerCatalogue_tells,
    inspectRevert?_of_tells hdeploy rfl ledgerCatalogue_tells hmem (by decide +kernel)
      (by decide +kernel)⟩

/-- An assertion of a deployed program is live, and its failure is no violation to the oracle. -/
def Diagnostic.Missed (d : Diagnostic) (catalogue : List Diagnostic) (text : String) : Prop :=
  ∃ deployment, Sandbox.deployCatalogued catalogue = .ok deployment ∧
    d ∈ (Sandbox.catalogued catalogue).artifact.diagnostics ∧
    d.messageTemplate ∈ (exceptionConfig.obligations deployment).live ∧
    Text.startsWith text d.messageTemplate = true ∧
    (⟨d.signature ++ ": " ++ text⟩ : Revert).lastLine = d.signature ++ ": " ++ text ∧
    (exceptionConfig.oracle deployment).inspectRevert? (exceptionConfig.obligations deployment)
      ⟨d.signature ++ ": " ++ text⟩ = none

theorem Diagnostic.missed_of_deploy {d : Diagnostic} {catalogue : List Diagnostic} {text : String}
    (live : List String)
    (hdeployed : (Sandbox.deployCatalogued catalogue).map (fun deployment =>
      ((exceptionConfig.obligations deployment).live,
        (exceptionConfig.oracle deployment).inspectRevert? (exceptionConfig.obligations deployment)
          ⟨d.signature ++ ": " ++ text⟩)) = .ok (live, none))
    (hmem : d ∈ (Sandbox.catalogued catalogue).artifact.diagnostics)
    (hlive : d.messageTemplate ∈ live) (htext : Text.startsWith text d.messageTemplate = true)
    (hline : (⟨d.signature ++ ": " ++ text⟩ : Revert).lastLine = d.signature ++ ": " ++ text) :
    d.Missed catalogue text := by
  obtain ⟨deployment, hdeploy, hfacts⟩ := exists_of_map_eq_ok hdeployed
  obtain ⟨hobligations, hnone⟩ := Prod.mk.inj hfacts
  rw [← hobligations] at hlive
  exact ⟨deployment, hdeploy, hmem, hlive, htext, hline, hnone⟩

/-- The signature of an entry is lost if an earlier entry has its template, and hidden if another
signature is taken for it. -/
theorem failures_missed :
    Diagnostic.Missed ⟨"vault.Failure", "overflow"⟩
        [⟨"ledger.Failure", "overflow"⟩, ⟨"vault.Failure", "overflow"⟩] "overflow in 3" ∧
      Diagnostic.Missed ⟨"vault: Failure", "overflow"⟩
        [⟨"vault", "limit"⟩, ⟨"vault: Failure", "overflow"⟩] "overflow in 3" := by
  constructor
  · apply Diagnostic.missed_of_deploy ["overflow"]
    all_goals decide +kernel
  · apply Diagnostic.missed_of_deploy ["limit", "overflow"]
    all_goals decide +kernel

end ContractFuzz
