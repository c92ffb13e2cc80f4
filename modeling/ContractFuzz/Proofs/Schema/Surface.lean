import ContractFuzz.Proofs.Schema.Structs

namespace ContractFuzz

namespace SchemaOptions

variable {options : SchemaOptions} {entry : Abi.Entry} {f : Abi.Function}

theorem of_role_callable {kind : CallableKind} (h : options.role entry = .callable f kind) :
    (entry = .function f ∨ entry = .l1Handler f) ∧ options.allowsCall f = true := by
  cases entry with
  | function g =>
      rw [role] at h
      split at h
      · split at h
        · cases h
        · cases h
      · split at h
        · rename_i hallowed
          cases h
          exact ⟨.inl rfl, hallowed⟩
        · cases h
  | l1Handler g =>
      rw [role] at h
      split at h
      · rename_i hallowed
        cases h
        exact ⟨.inr rfl, hallowed⟩
      · cases h
  | constructor | struct | event | other => cases h

theorem of_role_property (h : options.role entry = .property f) :
    entry = .function f ∧ options.marksProperty f.name = true ∧ f.isProperty = true := by
  cases entry with
  | function g =>
      rw [role] at h
      split at h
      · rename_i hmarked
        split at h
        · rename_i hproperty
          cases h
          exact ⟨rfl, hmarked, hproperty⟩
        · cases h
      · split at h
        · cases h
        · cases h
  | l1Handler g =>
      rw [role] at h
      split at h
      · cases h
      · cases h
  | constructor | struct | event | other => cases h

theorem not_mem_blacklist (h : options.allowsCall f = true) : f.name ∉ options.blacklist := by
  rw [allowsCall, Bool.and_eq_true, Bool.not_eq_true', isBlacklisted, Bool.or_eq_false_iff] at h
  rw [← SortedSet.contains_iff_mem, h.2.2]
  exact Bool.false_ne_true

end SchemaOptions

namespace Schema

variable {options : SchemaOptions} {schema after : Schema}

/-- Schemas whose functions and properties are found among some entries. -/
structure FoundIn (schema : Schema) (options : SchemaOptions) (entries : List Abi.Entry) : Prop where
  functions : ∀ c ∈ schema.functions, ∃ entry ∈ entries, ∃ f,
    options.role entry = .callable f c.kind ∧ callableOf f c.kind = .ok c
  properties : ∀ c ∈ schema.properties, ∃ entry ∈ entries, ∃ f,
    options.role entry = .property f ∧ c = ⟨f.name, [], .property⟩

theorem FoundIn.mono {entries others : List Abi.Entry} (h : schema.FoundIn options entries)
    (hsubset : entries ⊆ others) : schema.FoundIn options others where
  functions c hc :=
    let ⟨entry, hentry, hrole⟩ := h.functions c hc
    ⟨entry, hsubset hentry, hrole⟩
  properties c hc :=
    let ⟨entry, hentry, hrole⟩ := h.properties c hc
    ⟨entry, hsubset hentry, hrole⟩

theorem callableOf_eq_ok {f : Abi.Function} {kind : CallableKind} {c : Callable}
    (h : callableOf f kind = .ok c) :
    c.name = f.name ∧ c.kind = kind ∧ Calldata.parseArguments f.inputs = .ok c.arguments := by
  rw [callableOf] at h
  split at h
  · rename_i arguments harguments
    cases h
    exact ⟨rfl, rfl, harguments⟩
  · cases h

theorem FoundIn.named {entries : List Abi.Entry} (h : schema.FoundIn options entries) {c : Callable}
    (hc : c ∈ schema.functions ∨ c ∈ schema.properties) :
    ∃ entry ∈ entries, ∃ f, (entry = .function f ∨ entry = .l1Handler f) ∧ c.name = f.name := by
  rcases hc with hc | hc
  · obtain ⟨entry, hentry, f, hrole, hcallable⟩ := h.functions c hc
    exact ⟨entry, hentry, f, (SchemaOptions.of_role_callable hrole).1, (callableOf_eq_ok hcallable).1⟩
  · obtain ⟨entry, hentry, f, hrole, rfl⟩ := h.properties c hc
    exact ⟨entry, hentry, f, .inl (SchemaOptions.of_role_property hrole).1, rfl⟩

theorem FoundIn.addProperty {seen : List Abi.Entry} {entry : Abi.Entry} {f : Abi.Function}
    (h : schema.FoundIn options seen) (hrole : options.role entry = .property f) :
    FoundIn { schema with properties := schema.properties ++ [⟨f.name, [], .property⟩] } options
      (seen ++ [entry]) where
  functions := (h.mono (List.subset_append_left _ _)).functions
  properties c hc := by
    rcases List.mem_append.mp hc with hc | hc
    · exact (h.mono (List.subset_append_left _ _)).properties c hc
    · exact ⟨entry, List.mem_append_right _ List.mem_cons_self, f, hrole, List.mem_singleton.mp hc⟩

theorem FoundIn.addFunction {seen : List Abi.Entry} {entry : Abi.Entry} {f : Abi.Function}
    {kind : CallableKind} {found : Callable} (h : schema.FoundIn options seen)
    (hrole : options.role entry = .callable f kind) (hfound : callableOf f kind = .ok found) :
    FoundIn { schema with functions := schema.functions ++ [found] } options (seen ++ [entry]) where
  functions c hc := by
    rcases List.mem_append.mp hc with hc | hc
    · exact (h.mono (List.subset_append_left _ _)).functions c hc
    · obtain rfl := List.mem_singleton.mp hc
      obtain rfl := (callableOf_eq_ok hfound).2.1
      exact ⟨entry, List.mem_append_right _ List.mem_cons_self, f, hrole, hfound⟩
  properties := (h.mono (List.subset_append_left _ _)).properties

theorem foundIn_of_survey {seen entries : List Abi.Entry} (hseen : schema.FoundIn options seen)
    (h : (survey options schema entries).1 = .ok after) :
    after.FoundIn options (seen ++ entries) := by
  induction entries generalizing schema seen with
  | nil =>
      cases h
      rwa [List.append_nil]
  | cons entry rest ih =>
      have hkept := hseen.mono (List.subset_append_left seen [entry])
      rw [List.append_cons]
      rw [survey] at h
      split at h
      · rename_i f hrole
        exact ih (hseen.addProperty hrole) h
      · exact ih hkept h
      · rename_i f kind hrole
        split at h
        · rename_i found hfound
          exact ih (hseen.addFunction hrole hfound) h
        · cases h
      · exact ih hkept h

theorem surface_of_register {entries : List Abi.Entry} (h : schema.register entries = .ok after) :
    after.functions = schema.functions ∧ after.properties = schema.properties := by
  induction entries generalizing schema with
  | nil =>
      cases h
      exact ⟨rfl, rfl⟩
  | cons entry rest ih =>
      rw [register] at h
      split at h
      · rename_i middle hentry
        obtain ⟨hfunctions, hproperties⟩ := ih h
        rw [hfunctions, hproperties]
        cases entry with
        | struct s =>
            rw [registerEntry] at hentry
            split at hentry
            · cases hentry
              exact ⟨rfl, rfl⟩
            · cases hentry
        | constructor | function | l1Handler | event | other =>
            cases hentry
            exact ⟨rfl, rfl⟩
      · cases h

theorem discover_foundIn {target : List Abi.Entry} {declared : List (List Abi.Entry)}
    (h : (discover target declared options).1 = .ok schema) : schema.FoundIn options target := by
  rw [discover] at h
  split at h
  · rename_i registered hregistered
    rw [registerAll_eq_register] at hregistered
    obtain ⟨hfunctions, hproperties⟩ := surface_of_register hregistered
    have hempty : registered.FoundIn options [] := by
      constructor
      · rw [hfunctions]
        exact fun _ hc => absurd hc List.not_mem_nil
      · rw [hproperties]
        exact fun _ hc => absurd hc List.not_mem_nil
    exact foundIn_of_survey hempty h
  · cases h

/-- A schema with one more property after its others. -/
def withProperty (schema : Schema) (name : String) : Schema :=
  { schema with properties := schema.properties ++ [⟨name, [], .property⟩] }

theorem propertyNames_withProperty (schema : Schema) (name : String) :
    (schema.withProperty name).propertyNames = schema.propertyNames ++ [name] :=
  List.map_append

theorem survey_concat_property {entries : List Abi.Entry} {entry : Abi.Entry} {f : Abi.Function}
    (hrole : options.role entry = .property f)
    (h : (survey options schema entries).1 = .ok after) :
    (survey options schema (entries ++ [entry])).1 = .ok (after.withProperty f.name) := by
  induction entries generalizing schema with
  | nil =>
      cases h
      rw [List.nil_append, survey, hrole]
      rfl
  | cons first rest ih =>
      rw [survey] at h
      rw [List.cons_append, survey]
      split at h
      · exact ih h
      · exact ih h
      · split at h
        · exact ih h
        · cases h
      · exact ih h

theorem discover_concat_property {target : List Abi.Entry} {declared : List (List Abi.Entry)}
    {entry : Abi.Entry} {f : Abi.Function} (hrole : options.role entry = .property f)
    (h : (discover target declared options).1 = .ok schema) :
    (discover (target ++ [entry]) declared options).1 = .ok (schema.withProperty f.name) := by
  obtain ⟨rfl, -, -⟩ := SchemaOptions.of_role_property hrole
  have hfirst : empty.register (target ++ [.function f]) = empty.register target := by
    rw [register_append]
    cases empty.register target with
    | error e => rfl
    | ok registered => rfl
  have hregister : empty.registerAll ((target ++ [.function f]) :: declared) =
      empty.registerAll (target :: declared) := by
    rw [registerAll, hfirst, registerAll]
  rw [discover] at h
  rw [discover, hregister]
  split at h
  · exact survey_concat_property hrole h
  · cases h

end Schema

end ContractFuzz
