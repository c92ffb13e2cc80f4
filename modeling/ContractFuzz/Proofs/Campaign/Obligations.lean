import ContractFuzz.Campaign.Oracle

namespace ContractFuzz.Obligations

theorem mem_add {o : Obligations} {name other : String} :
    name ∈ (o.add other).live ↔ name = other ∨ name ∈ o.live := by
  rw [add]
  split
  · rename_i hother
    exact (or_iff_right_of_imp fun h => h ▸ hother).symm
  · rw [List.mem_append, List.mem_singleton, or_comm]

theorem mem_ofList {names : List String} {name : String} :
    name ∈ (ofList names).live ↔ name ∈ names := by
  have hfold (o : Obligations) : name ∈ (names.foldl add o).live ↔ name ∈ o.live ∨ name ∈ names := by
    induction names generalizing o with
    | nil => simp
    | cons other rest ih =>
        rw [List.foldl_cons, ih, mem_add, List.mem_cons, or_assoc, or_left_comm]
  rw [ofList, hfold]
  exact or_iff_right List.not_mem_nil

theorem not_mem_of_live_eq {o : Obligations} {names : List String} {name : String}
    (h : o.live = names ++ [name]) : name ∉ names := by
  have hnodup := o.nodup
  rw [h] at hnodup
  intro hname
  exact (List.nodup_append.mp hnodup).2.2 name hname name (List.mem_singleton_self name) rfl

theorem live_ofList_concat {names : List String} {name : String} (h : name ∉ names) :
    (ofList (names ++ [name])).live = (ofList names).live ++ [name] := by
  have hnew : name ∉ (ofList names).live := mt mem_ofList.mp h
  rw [ofList, List.foldl_append, List.foldl_cons, List.foldl_nil]
  change ((ofList names).add name).live = _
  rw [add, dif_neg hnew]

theorem live_retire (o : Obligations) (name : String) :
    (o.retire name).live = o.live.filter (· ≠ name) := by
  change o.live.erase name = _
  rw [o.nodup.erase_eq_filter]
  apply List.filter_congr
  intro other _
  by_cases hother : other = name <;> simp [hother]

theorem live_retireAll (o : Obligations) (names : List String) :
    (o.retireAll names).live = o.live.filter (· ∉ names) := by
  induction names generalizing o with
  | nil => exact (List.filter_eq_self.mpr fun _ _ => by simp).symm
  | cons name rest ih =>
      change ((o.retire name).retireAll rest).live = _
      rw [ih, live_retire, List.filter_filter]
      apply List.filter_congr
      intro other _
      by_cases hother : other = name <;> simp [hother]

theorem live_discharge (o : Obligations) (violations : List Violation) :
    (o.discharge violations).live =
      o.live.filter (· ∉ violations.map Violation.obligation) :=
  live_retireAll o _

theorem discharge_subset (o : Obligations) (violations : List Violation) :
    (o.discharge violations).live ⊆ o.live := by
  rw [live_discharge]
  exact List.filter_sublist.subset

end ContractFuzz.Obligations
