import ContractFuzz.Proofs.Schema.Surface
import Mathlib.Data.List.Forall2

namespace ContractFuzz

namespace SchemaOptions

/-- A function is not declared as a view or the like, and nothing forbids to call it. -/
def Admits (options : SchemaOptions) (f : Abi.Function) : Prop :=
  f.stateMutability = none ∧ f.name ∉ alwaysBlacklisted ∧ f.name ∉ options.blacklist.toList

instance (options : SchemaOptions) (f : Abi.Function) : Decidable (options.Admits f) :=
  inferInstanceAs (Decidable (_ ∧ _ ∧ _))

/-- The function or message handler to call that an entry is, and which of both it is. -/
def called? (options : SchemaOptions) : Abi.Entry → Option (Abi.Function × CallableKind)
  | .function f =>
      if ¬options.propertyPrefix.toList <+: f.name.toList ∧ options.Admits f then
        some (f, .mutating)
      else none
  | .l1Handler f => if options.Admits f then some (f, .messageHandler) else none
  | _ => none

/-- The property that an entry is: a view with the prefix, without inputs, that returns a felt. -/
def checked? (options : SchemaOptions) : Abi.Entry → Option Abi.Function
  | .function f =>
      if options.propertyPrefix.toList <+: f.name.toList ∧ f.stateMutability = some "view" ∧
          f.inputs = [] ∧ f.outputs.map Abi.Member.typeText = ["felt"] then some f
      else none
  | _ => none

variable {options : SchemaOptions}

theorem marksProperty_iff {name : String} :
    options.marksProperty name = true ↔ options.propertyPrefix.toList <+: name.toList :=
  List.isPrefixOf_iff_prefix

theorem allowsCall_iff {f : Abi.Function} : options.allowsCall f = true ↔ options.Admits f := by
  rw [allowsCall, isBlacklisted, Bool.and_eq_true, Option.isNone_iff_eq_none, Bool.not_eq_true',
    Bool.or_eq_false_iff, ← Bool.not_eq_true, ← Bool.not_eq_true, List.contains_iff_mem,
    SortedSet.contains_iff_mem]
  rfl

theorem isProperty_iff {f : Abi.Function} : f.isProperty = true ↔
    f.stateMutability = some "view" ∧ f.inputs = [] ∧
      f.outputs.map Abi.Member.typeText = ["felt"] := by
  rw [Abi.Function.isProperty, Abi.Function.isView, Bool.and_eq_true, Bool.and_eq_true,
    List.isEmpty_iff, beq_iff_eq, beq_iff_eq]
  tauto

theorem role_spec (options : SchemaOptions) (entry : Abi.Entry) :
    match options.role entry with
    | .property f => options.called? entry = none ∧ options.checked? entry = some f
    | .callable f kind => options.called? entry = some (f, kind) ∧ options.checked? entry = none
    | .misnamed _ | .irrelevant =>
        options.called? entry = none ∧ options.checked? entry = none := by
  cases entry with
  | function f =>
      simp only [role, called?, checked?, ← marksProperty_iff, ← isProperty_iff, ← allowsCall_iff]
      cases options.marksProperty f.name with
      | true => cases f.isProperty <;> simp
      | false => cases options.allowsCall f <;> simp
  | l1Handler f =>
      simp only [role, called?, checked?, ← allowsCall_iff]
      cases options.allowsCall f <;> simp
  | constructor | struct | event | other => exact ⟨rfl, rfl⟩

end SchemaOptions

namespace Schema

/-- An outcome reports faults: its error is one, and where there is a result there are none. -/
def Reports {α : Type} (isFault : MalformedType → Prop) : Except MalformedType α → Prop
  | .ok _ => ∀ e, ¬isFault e
  | .error e => isFault e

theorem Reports.error_iff {α : Type} {isFault : MalformedType → Prop}
    {outcome : Except MalformedType α} (h : Reports isFault outcome) :
    (∃ e, outcome = .error e) ↔ ∃ e, isFault e := by
  cases outcome with
  | ok value =>
      constructor
      · rintro ⟨e, hvalue⟩
        cases hvalue
      · rintro ⟨e, he⟩
        exact absurd he (h e)
  | error e => exact ⟨fun _ => ⟨e, h⟩, fun _ => ⟨e, rfl⟩⟩

/-- A member of a struct has a type that cannot be read. -/
inductive HasFault (s : Abi.Struct) : MalformedType → Prop
  | member {m cause} (hm : m ∈ s.members)
      (hcause : Calldata.Shape.parse m.typeText = .error cause) : HasFault s ⟨s.name, cause⟩

/-- What makes discovery fail: a struct of any of the interfaces, or the inputs of an entry of the
target that is to be called. -/
inductive IsFault (target : List Abi.Entry) (declared : List (List Abi.Entry))
    (options : SchemaOptions) : MalformedType → Prop
  | struct {s e} (hs : .struct s ∈ (target :: declared).flatten) (he : HasFault s e) :
      IsFault target declared options e
  | inputs {entry f kind cause} (hentry : entry ∈ target)
      (hcalled : options.called? entry = some (f, kind))
      (hcause : Calldata.parseArguments f.inputs = .error cause) :
      IsFault target declared options ⟨f.name, cause⟩

/-- A function to call as it is found in the interface, its inputs lowered. -/
structure Finds (found : Abi.Function × CallableKind) (c : Callable) : Prop where
  name : c.name = found.1.name
  kind : c.kind = found.2
  arguments : Calldata.parseArguments found.1.inputs = .ok c.arguments

def propertyOf (f : Abi.Function) : Callable := ⟨f.name, [], .property⟩

section Structs

variable {schema after : Schema}

theorem reports_memberShapes (s : Abi.Struct) : Reports (HasFault s) (memberShapes s) := by
  have hread := mapM_reads (fun m : Abi.Member => Calldata.Shape.parse m.typeText) s.orderedMembers
  rw [memberShapes]
  split
  · rename_i shapes hshapes
    rw [hshapes] at hread
    rintro _ ⟨hm, hcause⟩
    obtain ⟨shape, -, hshape⟩ := exists_mem_of_forall₂ hread (List.mem_mergeSort.mpr hm)
    rw [hcause] at hshape
    cases hshape
  · rename_i cause hfault
    rw [hfault] at hread
    obtain ⟨m, hm, hcause⟩ := hread
    exact .member (List.mem_mergeSort.mp hm) hcause

theorem reports_registerEntry (schema : Schema) (entry : Abi.Entry) :
    Reports (fun e => ∃ s, entry = .struct s ∧ HasFault s e) (schema.registerEntry entry) := by
  cases entry with
  | struct s =>
      have hmembers := reports_memberShapes s
      rw [registerEntry]
      rcases hshapes : memberShapes s with e | shapes
      · rw [hshapes] at hmembers
        exact ⟨s, rfl, hmembers⟩
      · rw [hshapes] at hmembers
        rintro e ⟨_, ⟨⟩, he⟩
        exact hmembers e he
  | constructor | function | l1Handler | event | other =>
      rintro e ⟨s, hs, -⟩
      cases hs

theorem reports_register (schema : Schema) (entries : List Abi.Entry) :
    Reports (fun e => ∃ s, .struct s ∈ entries ∧ HasFault s e) (schema.register entries) := by
  induction entries generalizing schema with
  | nil =>
      rintro e ⟨s, hs, -⟩
      cases hs
  | cons entry rest ih =>
      have hfirst := reports_registerEntry schema entry
      rw [register]
      rcases hentry : schema.registerEntry entry with e | middle
      · rw [hentry] at hfirst
        obtain ⟨s, rfl, he⟩ := hfirst
        exact ⟨s, List.mem_cons_self, he⟩
      have hlater := ih middle
      rw [hentry] at hfirst
      rcases hrest : middle.register rest with e | last
      · rw [hrest] at hlater
        obtain ⟨s, hs, he⟩ := hlater
        simp only [hrest]
        exact ⟨s, List.mem_cons_of_mem _ hs, he⟩
      · rw [hrest] at hlater
        simp only [hrest]
        rintro e ⟨s, hs, he⟩
        rcases List.mem_cons.mp hs with hs | hs
        · exact hfirst e ⟨s, hs.symm, he⟩
        · exact hlater e ⟨s, hs, he⟩

end Structs

section Surface

variable {options : SchemaOptions} {schema after : Schema}

theorem finds_of_callableOf {f : Abi.Function} {kind : CallableKind} {c : Callable}
    (h : callableOf f kind = .ok c) : Finds (f, kind) c :=
  let ⟨hname, hkind, harguments⟩ := callableOf_eq_ok h
  ⟨hname, hkind, harguments⟩

theorem parseArguments_of_callableOf {f : Abi.Function} {kind : CallableKind} {e : MalformedType}
    (h : callableOf f kind = .error e) :
    ∃ cause, e = ⟨f.name, cause⟩ ∧ Calldata.parseArguments f.inputs = .error cause := by
  rw [callableOf] at h
  split at h
  · cases h
  · rename_i cause hcause
    cases h
    exact ⟨cause, rfl, hcause⟩

/-- What a survey adds to the surface of a schema. -/
structure Adds (options : SchemaOptions) (schema : Schema) (entries : List Abi.Entry)
    (after : Schema) : Prop where
  functions : ∃ functions, after.functions = schema.functions ++ functions ∧
    List.Forall₂ Finds (entries.filterMap options.called?) functions
  properties : after.properties =
    schema.properties ++ (entries.filterMap options.checked?).map propertyOf

theorem Adds.cons {middle : Schema} {entry : Abi.Entry} {rest : List Abi.Entry}
    (h : Adds options middle rest after) {functions : List Callable}
    (hfunctions : middle.functions = schema.functions ++ functions)
    (hfinds : List.Forall₂ Finds (options.called? entry).toList functions)
    (hproperties : middle.properties =
      schema.properties ++ (options.checked? entry).toList.map propertyOf) :
    Adds options schema (entry :: rest) after := by
  obtain ⟨⟨others, hothers, hfound⟩, hchecked⟩ := h
  simp only [List.filterMap_eq_flatMap_toList] at hfound hchecked
  constructor
  · refine ⟨functions ++ others, by rw [hothers, hfunctions, List.append_assoc], ?_⟩
    rw [List.filterMap_eq_flatMap_toList, List.flatMap_cons]
    exact List.rel_append hfinds hfound
  · rw [hchecked, hproperties, List.filterMap_eq_flatMap_toList, List.flatMap_cons,
      List.map_append, List.append_assoc]

theorem Adds.skip {entry : Abi.Entry} {rest : List Abi.Entry} (h : Adds options schema rest after)
    (hentry : options.called? entry = none ∧ options.checked? entry = none) :
    Adds options schema (entry :: rest) after := by
  refine h.cons (List.append_nil _).symm ?_ ?_
  · rw [hentry.1]
    exact .nil
  · rw [hentry.2]
    exact (List.append_nil _).symm

theorem adds_of_survey {entries : List Abi.Entry}
    (h : (survey options schema entries).1 = .ok after) :
    Adds options schema entries after := by
  induction entries generalizing schema with
  | nil =>
      cases h
      exact ⟨⟨[], (List.append_nil _).symm, .nil⟩, (List.append_nil _).symm⟩
  | cons entry rest ih =>
      have hspec := options.role_spec entry
      rw [survey] at h
      split at h
      · rename_i f hrole
        rw [hrole] at hspec
        refine (ih h).cons (List.append_nil _).symm ?_ ?_
        · rw [hspec.1]
          exact .nil
        · rw [hspec.2]
          rfl
      · rename_i hrole
        rw [hrole] at hspec
        exact (ih h).skip hspec
      · rename_i f kind hrole
        rw [hrole] at hspec
        split at h
        · rename_i found hfound
          refine (ih h).cons rfl ?_ ?_
          · rw [hspec.1]
            exact .cons (finds_of_callableOf hfound) .nil
          · rw [hspec.2]
            exact (List.append_nil _).symm
        · cases h
      · rename_i hrole
        rw [hrole] at hspec
        exact (ih h).skip hspec

theorem fault_of_survey {entries : List Abi.Entry} {e : MalformedType}
    (h : (survey options schema entries).1 = .error e) :
    ∃ entry ∈ entries, ∃ f kind cause, options.called? entry = some (f, kind) ∧
      e = ⟨f.name, cause⟩ ∧ Calldata.parseArguments f.inputs = .error cause := by
  induction entries generalizing schema with
  | nil => cases h
  | cons entry rest ih =>
      have hspec := options.role_spec entry
      have hlater {other : Schema} (h : (survey options other rest).1 = .error e) :
          ∃ later ∈ entry :: rest, ∃ f kind cause, options.called? later = some (f, kind) ∧
            e = ⟨f.name, cause⟩ ∧ Calldata.parseArguments f.inputs = .error cause :=
        let ⟨later, hmem, hfault⟩ := ih h
        ⟨later, List.mem_cons_of_mem _ hmem, hfault⟩
      rw [survey] at h
      split at h
      · exact hlater h
      · exact hlater h
      · rename_i f kind hrole
        rw [hrole] at hspec
        split at h
        · exact hlater h
        · rename_i fault hfault
          cases h
          obtain ⟨cause, he, hcause⟩ := parseArguments_of_callableOf hfault
          exact ⟨entry, List.mem_cons_self, f, kind, cause, hspec.1, he, hcause⟩
      · exact hlater h

end Surface

section Discovery

variable {target : List Abi.Entry} {declared : List (List Abi.Entry)} {options : SchemaOptions}

theorem surface_of_discover {schema : Schema}
    (h : (discover target declared options).1 = .ok schema) :
    List.Forall₂ Finds (target.filterMap options.called?) schema.functions ∧
      schema.properties = (target.filterMap options.checked?).map propertyOf := by
  rw [discover] at h
  split at h
  · rename_i registered hregistered
    rw [registerAll_eq_register] at hregistered
    obtain ⟨hfunctions, hproperties⟩ := surface_of_register hregistered
    obtain ⟨⟨functions, hadded, hfinds⟩, hchecked⟩ := adds_of_survey h
    rw [hfunctions] at hadded
    rw [hproperties] at hchecked
    rw [hadded]
    exact ⟨hfinds, hchecked⟩
  · cases h

theorem reports_discover (target : List Abi.Entry) (declared : List (List Abi.Entry))
    (options : SchemaOptions) :
    Reports (IsFault target declared options) (discover target declared options).1 := by
  have hregister := reports_register empty (target :: declared).flatten
  rcases hdiscover : (discover target declared options).1 with e | schema
  · rw [discover, registerAll_eq_register] at hdiscover
    split at hdiscover
    · obtain ⟨entry, hentry, f, kind, cause, hcalled, rfl, hcause⟩ := fault_of_survey hdiscover
      exact .inputs hentry hcalled hcause
    · rename_i fault hfault
      cases hdiscover
      rw [hfault] at hregister
      obtain ⟨s, hs, he⟩ := hregister
      exact .struct hs he
  · have hfound := (surface_of_discover hdiscover).1
    rw [discover, registerAll_eq_register] at hdiscover
    split at hdiscover
    · rename_i registered hregistered
      rw [hregistered] at hregister
      intro e he
      cases he with
      | struct hs he => exact hregister e ⟨_, hs, he⟩
      | inputs hentry hcalled hcause =>
          obtain ⟨c, -, hc⟩ :=
            exists_mem_of_forall₂ hfound (List.mem_filterMap.mpr ⟨_, hentry, hcalled⟩)
          have hlowered := hc.arguments
          rw [hcause] at hlowered
          cases hlowered
    · cases hdiscover

/-- Discovery fails just where a type is malformed that it has to read, and reports one of those.
Otherwise it finds, each in the order of the interface, all functions and message handlers to call,
with their inputs lowered, and all properties; no entry is both. -/
theorem discover_splits (target : List Abi.Entry) (declared : List (List Abi.Entry))
    (options : SchemaOptions) :
    ((∃ e, (discover target declared options).1 = .error e) ↔
        ∃ e, IsFault target declared options e) ∧
      (∀ e, (discover target declared options).1 = .error e → IsFault target declared options e) ∧
      (∀ schema, (discover target declared options).1 = .ok schema →
        List.Forall₂ Finds (target.filterMap options.called?) schema.functions ∧
          schema.properties = (target.filterMap options.checked?).map propertyOf) ∧
      ∀ entry, options.called? entry = none ∨ options.checked? entry = none := by
  have hreports := reports_discover target declared options
  refine ⟨hreports.error_iff, ?_, fun schema => surface_of_discover, fun entry => ?_⟩
  · intro e he
    rwa [he] at hreports
  · have hspec := options.role_spec entry
    split at hspec
    · exact .inl hspec.1
    · exact .inr hspec.2
    · exact .inl hspec.1
    · exact .inl hspec.1

end Discovery

end Schema

end ContractFuzz
