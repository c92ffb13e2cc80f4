import ContractFuzz.Campaign.Shrinking

namespace ContractFuzz

namespace Oracle

theorem inspectRevert?_eq_some {oracle : Oracle} {live : Obligations} {r : Revert}
    {violation : Violation} (h : oracle.inspectRevert? live r = some violation) :
    ∃ signatures template message, oracle = .exceptions signatures ∧
      extractMessage? signatures r = some message ∧ live.matching? message = some template ∧
      violation = .exception template message := by
  cases oracle with
  | properties target sender => cases h
  | exceptions signatures =>
      obtain ⟨message, hmessage, h⟩ := Option.bind_eq_some_iff.mp h
      obtain ⟨template, htemplate, h⟩ := Option.bind_eq_some_iff.mp h
      cases h
      exact ⟨signatures, template, message, rfl, hmessage, htemplate, rfl⟩

theorem inspectRevert?_of_message {signatures : List String} {live : Obligations} {r : Revert}
    {template message : String} (hmessage : extractMessage? signatures r = some message)
    (htemplate : live.matching? message = some template) :
    (Oracle.exceptions signatures).inspectRevert? live r = some (.exception template message) := by
  refine Option.bind_eq_some_iff.mpr ⟨message, hmessage, ?_⟩
  exact Option.bind_eq_some_iff.mpr ⟨template, htemplate, rfl⟩

theorem obligation_mem_of_inspectRevert? {oracle : Oracle} {live : Obligations} {r : Revert}
    {violation : Violation} (h : oracle.inspectRevert? live r = some violation) :
    violation.obligation ∈ live.live := by
  obtain ⟨signatures, template, message, rfl, -, htemplate, rfl⟩ := inspectRevert?_eq_some h
  exact List.mem_of_find?_eq_some htemplate

end Oracle

namespace Goal

theorem isShownBy_of_inspectRevert? {oracle : Oracle} {live : Obligations} {r : Revert}
    {violation : Violation} (h : oracle.inspectRevert? live r = some violation) :
    Goal.isShownBy ⟨oracle, live, [violation]⟩ r = true := by
  obtain ⟨signatures, template, message, rfl, -, -, rfl⟩ := Oracle.inspectRevert?_eq_some h
  simp only [isShownBy, h]
  simp [Oracle.accepts, Violation.raised?]

theorem message_of_isShownBy {goal : Goal} {r : Revert} (h : goal.isShownBy r = true) :
    ∃ signatures message, goal.oracle = .exceptions signatures ∧
      Oracle.extractMessage? signatures r = some message ∧
      goal.violations.filterMap Violation.raised? = [message] := by
  rw [isShownBy] at h
  split at h
  · rename_i violation hinspect
    obtain ⟨signatures, template, message, horacle, hmessage, -, rfl⟩ :=
      Oracle.inspectRevert?_eq_some hinspect
    refine ⟨signatures, message, horacle, hmessage, ?_⟩
    rw [horacle] at h
    simp only [Oracle.accepts, Bool.and_eq_true, beq_iff_eq] at h
    exact h.2
  · cases h

end Goal

end ContractFuzz
