import ContractFuzz.Json.Record
import Mathlib.Data.List.Nodup

namespace ContractFuzz.Json

variable {α β : Type}

/-- Whatever is written is read back. -/
def ReadsBack (write : α → Json) (read : Json → Option α) : Prop := ∀ a, read (write a) = some a

theorem mapM_eq_some_map {f : α → Option β} {g : α → β} {xs : List α}
    (h : ∀ x ∈ xs, f x = some (g x)) : xs.mapM f = some (xs.map g) := by
  induction xs with
  | nil => rfl
  | cons x rest ih =>
      obtain ⟨hx, hrest⟩ := List.forall_mem_cons.mp h
      rw [List.mapM_cons, hx, ih hrest]
      rfl

theorem listOf?_ofList {write : α → Json} {read : Json → Option α} {xs : List α}
    (h : ∀ x ∈ xs, read (write x) = some x) : listOf? read (ofList write xs) = some xs := by
  change (xs.map write).mapM read = some xs
  have hread : ∀ value ∈ xs, (read ∘ write) value = some (id value) := h
  rw [List.mapM_map, mapM_eq_some_map hread, List.map_id]

theorem ReadsBack.list {write : α → Json} {read : Json → Option α} (h : ReadsBack write read) :
    ReadsBack (ofList write) (listOf? read) := fun _ => listOf?_ofList fun x _ => h x

theorem ReadsBack.option {write : α → Json} {read : Json → Option α} (h : ReadsBack write read)
    (hnull : ∀ a, write a ≠ .null) (a : Option α) :
    optional read (some (ofOption write a)) = some a := by
  cases a with
  | none => rfl
  | some a =>
      change optional read (some (write a)) = some (some a)
      rw [optional, h a]
      · rfl
      · exact hnull a

theorem readsBack_nat : ReadsBack ofNat nat? := fun _ => rfl

theorem readsBack_string : ReadsBack .string string? := fun _ => rfl

theorem readsBack_bool : ReadsBack .bool bool? := fun _ => rfl

section Fields

variable {fields : List (String × Json)} {name tag : String} {value : Json}

theorem uniqueField?_eq_lookup (hnodup : (fields.map Prod.fst).Nodup) (name : String) :
    uniqueField? fields name = some (fields.lookup name) := by
  induction fields with
  | nil => rfl
  | cons field rest ih =>
      obtain ⟨hfirst, hrest⟩ := List.nodup_cons.mp hnodup
      rw [uniqueField?, List.filter_cons, List.lookup_cons]
      cases hname : name == field.1 with
      | true =>
          obtain rfl := beq_iff_eq.mp hname
          have hother : rest.filter (fun other => other.1 == field.1) = [] := by
            refine List.filter_eq_nil_iff.mpr fun other hother hsame => hfirst ?_
            exact List.mem_map.mpr ⟨other, hother, beq_iff_eq.mp hsame⟩
          rw [if_pos hname, hother]
      | false =>
          rw [if_neg (mt beq_iff_eq.mp (Ne.symm (beq_eq_false_iff_ne.mp hname)))]
          exact ih hrest

theorem recordFields?_object (hnodup : (fields.map Prod.fst).Nodup) (names : List String) :
    recordFields? names (.object fields) = some (names.map (List.lookup · fields)) := by
  rw [recordFields?]
  exact mapM_eq_some_map fun name _ => uniqueField?_eq_lookup hnodup name

theorem tagged?_object (h : tag ∉ fields.map Prod.fst) :
    tagged? tag (.object ((tag, .string name) :: fields)) = some (name, .object fields) := by
  have hne : ∀ field ∈ fields, field.1 ≠ tag := by
    rintro field hfield rfl
    exact h (List.mem_map_of_mem hfield)
  have hunique : uniqueField? ((tag, .string name) :: fields) tag = some (some (.string name)) := by
    have hnone : fields.filter (fun field => field.1 == tag) = [] :=
      List.filter_eq_nil_iff.mpr fun field hfield => mt beq_iff_eq.mp (hne field hfield)
    rw [uniqueField?, List.filter_cons, if_pos (beq_self_eq_true tag), hnone]
  have hothers : ((tag, Json.string name) :: fields).filter (fun field => field.1 != tag) =
      fields := by
    rw [List.filter_cons_of_neg (by simp)]
    exact List.filter_eq_self.mpr fun field hfield => bne_iff_ne.mpr (hne field hfield)
  rw [tagged?, hunique]
  exact congrArg (fun others => some (name, Json.object others)) hothers

end Fields

section Parts

variable {items : List Json} {fields : List (String × Json)} {name : String} {value : Json}

theorem areReadable_eq (items : List Json) : areReadable items = items.all isReadable := by
  induction items with
  | nil => rfl
  | cons item rest ih => rw [areReadable, ih, List.all_cons]

theorem areReadableFields_eq (fields : List (String × Json)) :
    areReadableFields fields = fields.all (·.2.isReadable) := by
  induction fields with
  | nil => rfl
  | cons field rest ih => rw [areReadableFields, ih, List.all_cons]

theorem distinctItems_eq (items : List Json) : distinctItems items = items.map distinct := by
  induction items with
  | nil => rfl
  | cons item rest ih => rw [distinctItems, ih, List.map_cons]

theorem distinctFields_eq (fields : List (String × Json)) :
    distinctFields fields = fields.map fun field => (field.1, field.2.distinct) := by
  induction fields with
  | nil => rfl
  | cons field rest ih => rw [distinctFields, ih, List.map_cons]

theorem keepLast_eq_self (hnodup : (fields.map Prod.fst).Nodup) : keepLast fields = fields := by
  induction fields with
  | nil => rfl
  | cons field rest ih =>
      obtain ⟨hfirst, hrest⟩ := List.nodup_cons.mp hnodup
      have hlast : ¬(rest.any fun other => other.1 == field.1) = true := by
        intro hany
        obtain ⟨other, hother, hname⟩ := List.any_eq_true.mp hany
        exact hfirst (List.mem_map.mpr ⟨other, hother, beq_iff_eq.mp hname⟩)
      rw [keepLast, if_neg hlast, ih hrest]

theorem height_lt_of_mem_items (h : value ∈ items) : value.height < (Json.array items).height := by
  rw [height]
  induction items with
  | nil => cases h
  | cons item rest ih =>
      rw [heightOfItems]
      rcases List.mem_cons.mp h with rfl | h
      · omega
      · have hrest := ih h
        omega

theorem height_lt_of_mem_fields (h : (name, value) ∈ fields) :
    value.height < (Json.object fields).height := by
  rw [height]
  induction fields with
  | nil => cases h
  | cons field rest ih =>
      rw [heightOfFields]
      rcases List.mem_cons.mp h with rfl | h
      · exact Nat.lt_succ_of_le (Nat.le_max_left _ _)
      · have hrest := ih h
        omega

theorem exists_fuel {fuel : Nat} (h : (Json.object fields).height ≤ fuel) :
    ∃ rest, fuel = rest + 1 ∧ ∀ name value, (name, value) ∈ fields → value.height ≤ rest := by
  cases fuel with
  | zero =>
      rw [height] at h
      cases h
  | succ rest =>
      refine ⟨rest, rfl, fun name value hfield => ?_⟩
      exact Nat.le_of_lt_succ (Nat.lt_of_lt_of_le (height_lt_of_mem_fields hfield) h)

/-- Values of which every part can be read, without a name that comes twice in an object. -/
structure Settled (json : Json) : Prop where
  readable : json.isReadable = true
  distinct : json.distinct = json

@[simp] theorem settled_null : Settled .null := ⟨rfl, rfl⟩

@[simp] theorem settled_nat (n : Nat) : Settled (ofNat n) := ⟨rfl, rfl⟩

@[simp] theorem settled_string (s : String) : Settled (.string s) := ⟨rfl, rfl⟩

theorem Settled.array (h : ∀ item ∈ items, item.Settled) : Settled (.array items) where
  readable := by
    rw [isReadable, areReadable_eq]
    exact List.all_eq_true.mpr fun item hitem => (h item hitem).readable
  distinct := by
    rw [Json.distinct, distinctItems_eq]
    have hitems : items.map Json.distinct = items.map id :=
      List.map_congr_left fun item hitem => (h item hitem).distinct
    rw [hitems, List.map_id]

theorem Settled.object (hnodup : (fields.map Prod.fst).Nodup)
    (h : ∀ field ∈ fields, field.2.Settled) : Settled (.object fields) where
  readable := by
    rw [isReadable, areReadableFields_eq]
    exact List.all_eq_true.mpr fun field hfield => (h field hfield).readable
  distinct := by
    have hvalues : fields.map (fun field => (field.1, field.2.distinct)) = fields.map id :=
      List.map_congr_left fun field hfield => Prod.ext rfl (h field hfield).distinct
    rw [Json.distinct, distinctFields_eq, hvalues, List.map_id, keepLast_eq_self hnodup]

/-- Fields that can stand behind a tag. -/
structure Taggable (tag : String) (fields : List (String × Json)) : Prop where
  untagged : tag ∉ fields.map Prod.fst
  nodup : (fields.map Prod.fst).Nodup
  settled : ∀ field ∈ fields, field.2.Settled

theorem Taggable.opens {tag : String} (h : Taggable tag fields) (kind : String) :
    ¬(!(Json.object ((tag, .string kind) :: fields)).isReadable) = true ∧
      tagged? tag (.object ((tag, .string kind) :: fields)) = some (kind, .object fields) := by
  have hsettled : (Json.object ((tag, .string kind) :: fields)).Settled :=
    .object (List.nodup_cons.mpr ⟨h.untagged, h.nodup⟩)
      (List.forall_mem_cons.mpr ⟨settled_string kind, h.settled⟩)
  refine ⟨?_, tagged?_object h.untagged⟩
  rw [hsettled.readable]
  decide

theorem settled_ofList {write : α → Json} (h : ∀ a, (write a).Settled) (xs : List α) :
    Settled (ofList write xs) := by
  refine .array fun item hitem => ?_
  obtain ⟨a, -, rfl⟩ := List.mem_map.mp hitem
  exact h a

theorem settled_ofOption {write : α → Json} (h : ∀ a, (write a).Settled) (a : Option α) :
    Settled (ofOption write a) := by
  cases a with
  | none => exact settled_null
  | some a => exact h a

end Parts

end ContractFuzz.Json
