import ContractFuzz.Proofs.Campaign.Obligations
import ContractFuzz.Proofs.Sandbox.Replay

namespace ContractFuzz.Sandbox

/-- A program with one more property after its other declarations. -/
def Program.withProperty (program : Program) (name : String) (handler : Handler) : Program :=
  program ++ [.property name handler]

namespace Program

variable {program : Program} {name function : String} {handler : Handler}

theorem handlers_withProperty (program : Program) (name : String) (handler : Handler) :
    (program.withProperty name handler).handlers = program.handlers ++ [(name, handler)] :=
  List.filterMap_append

theorem handler?_withProperty (h : function ≠ name) :
    (program.withProperty name handler).handler? function = program.handler? function := by
  rw [handler?, handlers_withProperty, List.lookup_append, handler?, List.lookup_cons,
    beq_eq_false_iff_ne.mpr h, List.lookup_nil, Option.or_none]

theorem handler?_withProperty_self (h : program.handler? name = none) :
    (program.withProperty name handler).handler? name = some handler := by
  rw [handler?] at h
  rw [handler?, handlers_withProperty, List.lookup_append, h, List.lookup_cons_self]
  rfl

theorem entryAddress_withProperty (h : (program.handler? function).isSome = true) :
    (program.withProperty name handler).entryAddress function = program.entryAddress function := by
  have hfound : (program.handlers.findIdx fun handler => handler.1 == function) <
      program.handlers.length := by
    obtain ⟨entry, hentry, hfunction⟩ := List.lookup_isSome_iff.mp h
    exact List.findIdx_lt_length_of_exists ⟨entry, hentry, beq_iff_eq.mpr (beq_iff_eq.mp hfunction).symm⟩
  rw [entryAddress, handlers_withProperty, List.findIdx_append, if_pos hfound, entryAddress]

theorem compute_withProperty {storage : Storage} {call : HandlerCall} (h : call.function ≠ name) :
    Executor.compute (program.withProperty name handler) storage call =
      Executor.compute program storage call := by
  rw [Executor.compute, handler?_withProperty h, Executor.compute]

theorem run_withProperty (target : InstanceId) {call : HandlerCall} (h : call.function ≠ name)
    (commits : Bool) (executor : Executor) :
    Executor.run (program.withProperty name handler) target call commits executor =
      Executor.run program target call commits executor := by
  rw [Executor.run, compute_withProperty h, Executor.run]
  cases hcompute : Executor.compute program executor.storage call with
  | error message => rfl
  | ok result =>
      have hhandler : (program.handler? call.function).isSome = true := by
        rw [Executor.compute] at hcompute
        split at hcompute
        · rename_i hhandler
          rw [hhandler]
          rfl
        · cases hcompute
      simp only [Executor.frame, entryAddress_withProperty hhandler]

/-- What a property is in the interface. -/
def propertyFunction (name : String) : Abi.Function :=
  ⟨name, [], [⟨"res", "felt", none⟩], some "view"⟩

theorem abi_withProperty (program : Program) (name : String) (handler : Handler) :
    (program.withProperty name handler).abi =
      program.abi ++ [.function (propertyFunction name)] :=
  List.filterMap_append

theorem role_propertyFunction {options : SchemaOptions} (h : options.marksProperty name = true) :
    options.role (.function (propertyFunction name)) = .property (propertyFunction name) := by
  have hmarked : options.marksProperty (propertyFunction name).name = true := h
  have hproperty : (propertyFunction name).isProperty = true := rfl
  rw [SchemaOptions.role, if_pos hmarked, if_pos hproperty]

theorem handler?_ne_none {entry : Abi.Entry} {f : Abi.Function} (hentry : entry ∈ program.abi)
    (hf : entry = .function f ∨ entry = .l1Handler f) : program.handler? f.name ≠ none := by
  obtain ⟨declaration, hdeclared, hmade⟩ := List.mem_filterMap.mp hentry
  have hhandled : ∃ handler, declaration.handler? = some (f.name, handler) := by
    rcases hf with rfl | rfl
    · cases declaration with
      | external | view =>
          cases hmade
          exact ⟨_, rfl⟩
      | l1Handler | constructor | struct | event | diagnostic => cases hmade
    · cases declaration with
      | l1Handler =>
          cases hmade
          exact ⟨_, rfl⟩
      | external | view | constructor | struct | event | diagnostic => cases hmade
  obtain ⟨handler, hhandler⟩ := hhandled
  intro hnone
  have hother := List.lookup_eq_none_iff.mp hnone (f.name, handler)
    (List.mem_filterMap.mpr ⟨declaration, hdeclared, hhandler⟩)
  exact (bne_iff_ne.mp hother) rfl

theorem deploy_withProperty (h : name ≠ Declaration.constructorName) (arguments : List Felt)
    (executor : Executor) :
    Executor.deploy (program.withProperty name handler) arguments executor =
      Executor.deploy program arguments executor := by
  have hconstruct : Executor.construct (program.withProperty name handler) arguments executor =
      Executor.construct program arguments executor := by
    rw [Executor.construct, handler?_withProperty h.symm, run_withProperty _ h.symm,
      Executor.construct]
  rw [Executor.deploy, hconstruct, Executor.deploy]

end Program

/-- A host that answers as another one does, unless it is called or queried for the property
`name`, and that never finds this property violated. -/
structure Host.Watches (watching host : Host) (target : InstanceId) (sender : Felt)
    (name : String) : Prop where
  respond : ∀ invocation storage, invocation.function ≠ name →
    watching.respond invocation storage = host.respond invocation storage
  silent : ∀ storage, watching.violation? target sender storage name = none

theorem Program.watches_withProperty {program : Program} {name : String} {handler : Handler}
    {sender : Felt} (hfresh : program.handler? name = none)
    (hquiet : ∀ storage outcome next,
      handler storage ⟨name, [], sender, .external⟩ = .ok (outcome, next) →
        outcome.returnData ≠ [0])
    (deployed : Option InstanceId) (target : InstanceId) :
    Host.Watches ⟨program.withProperty name handler, deployed⟩ ⟨program, deployed⟩ target sender
      name where
  respond invocation storage hfunction := by
    have hcall : (Executor.handlerCall invocation).function ≠ name := hfunction
    rw [Host.respond, compute_withProperty hcall, Host.respond]
  silent storage := by
    rcases hrespond : Host.respond ⟨program.withProperty name handler, deployed⟩
      (Oracle.propertyQuery target sender name) storage with r | ⟨outcome, next⟩
    · exact Host.violation?_of_error hrespond
    · have hreturned : outcome.returnData ≠ [0] := by
        rw [Host.respond] at hrespond
        split at hrespond
        · split at hrespond
          · rename_i hcompute
            cases hrespond
            have hhandler : (program.withProperty name handler).handler?
                (Executor.handlerCall (Oracle.propertyQuery target sender name)).function =
                some handler := handler?_withProperty_self hfresh
            rw [Executor.compute, hhandler] at hcompute
            exact hquiet storage outcome next hcompute
          · cases hrespond
        · cases hrespond
      rw [Host.violation?_of_ok hrespond, if_neg hreturned]

namespace Host.Watches

variable {watching host : Host} {target : InstanceId} {sender : Felt} {name : String}
  {live watched : Obligations}

theorem violations_eq (h : watching.Watches host target sender name)
    (hlive : watched.live = live.live ++ [name]) (storage : Storage) :
    watching.violations watched storage (.properties target sender) =
      host.violations live storage (.properties target sender) := by
  have hnew : name ∉ live.live := Obligations.not_mem_of_live_eq hlive
  change watched.live.filterMap (watching.violation? target sender storage) =
    live.live.filterMap (host.violation? target sender storage)
  rw [hlive, List.filterMap_append, List.filterMap_cons_none (h.silent storage),
    List.filterMap_nil, List.append_nil]
  refine List.filterMap_congr fun property hproperty => ?_
  have hother : property ≠ name := fun heq => hnew (heq ▸ hproperty)
  have hrespond := h.respond (Oracle.propertyQuery target sender property) storage hother
  rw [violation?, hrespond, violation?]

theorem violated_eq (h : watching.Watches host target sender name)
    (hlive : watched.live = live.live ++ [name]) (storage : Storage) :
    watching.violated watched storage (.properties target sender) =
      host.violated live storage (.properties target sender) := by
  rw [← map_obligation_violations, h.violations_eq hlive, map_obligation_violations]

theorem replay_eq (h : watching.Watches host target sender name) {called : InstanceId}
    (stops : Revert → Bool) {sequence : List RecordedCall}
    (hcalls : ∀ step ∈ sequence, step.call.function ≠ name) (storage : Storage) :
    watching.replay called stops storage sequence = host.replay called stops storage sequence := by
  induction sequence generalizing storage with
  | nil => rfl
  | cons step rest ih =>
      obtain ⟨hstep, hrest⟩ := List.forall_mem_cons.mp hcalls
      have hrespond := h.respond (step.call.invocation called) storage hstep
      simp only [replay, hrespond, ih hrest]

theorem shows_eq (h : watching.Watches host target sender name)
    (hlive : watched.live = live.live ++ [name]) {called : InstanceId}
    (found : List Violation) (baseline : Storage) {sequence : List RecordedCall}
    (hcalls : ∀ step ∈ sequence, step.call.function ≠ name) :
    watching.shows called ⟨.properties target sender, watched, found⟩ baseline sequence =
      host.shows called ⟨.properties target sender, live, found⟩ baseline sequence := by
  have hstops : (Goal.mk (.properties target sender) watched found).isShownBy =
      (Goal.mk (.properties target sender) live found).isShownBy := rfl
  simp only [shows, meets, hstops, h.replay_eq _ hcalls, h.violated_eq hlive]

end Host.Watches

end ContractFuzz.Sandbox
