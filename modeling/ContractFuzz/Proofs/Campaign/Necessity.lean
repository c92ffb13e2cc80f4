import ContractFuzz.Proofs.Campaign.Shrinking

namespace ContractFuzz.Shrinking

open ContractFuzz.Sandbox
open Executor (Alike)

/-- A call of a shortened sequence that was needed when its turn came. The calls `behind` it were
still to be tried, and those of `later` have been left of them. -/
def NeededInTurn (shows : List RecordedCall → Bool → Prop) (sequence earlier : List RecordedCall)
    (step : RecordedCall) (later : List RecordedCall) : Prop :=
  ∃ before behind, sequence = before ++ step :: behind ∧ earlier.Sublist before ∧
    later.Sublist behind ∧ shows (earlier ++ step :: behind) true ∧ shows (earlier ++ behind) false

theorem NeededInTurn.imp {shows others : List RecordedCall → Bool → Prop}
    {sequence earlier later : List RecordedCall} {step : RecordedCall}
    (h : NeededInTurn shows sequence earlier step later)
    (himp : ∀ calls answer, shows calls answer → others calls answer) :
    NeededInTurn others sequence earlier step later := by
  obtain ⟨before, behind, hsequence, hearlier, hlater, hwith, hwithout⟩ := h
  exact ⟨before, behind, hsequence, hearlier, hlater, himp _ _ hwith, himp _ _ hwithout⟩

/-- What comes before the calls that are tried comes before those that are kept of them, each of
which was needed in its turn. -/
theorem pruned_needs {shows : List RecordedCall → Bool} {kept pending : List RecordedCall}
    (h : shows (kept ++ pending) = true) :
    ∃ rest, pruned shows kept pending = kept ++ rest ∧
      ∀ earlier step later, rest = earlier ++ step :: later →
        NeededInTurn (fun calls answer => shows (kept ++ calls) = answer) pending earlier step
          later := by
  induction pending generalizing kept with
  | nil => exact ⟨[], (List.append_nil kept).symm, by simp⟩
  | cons tried pending ih =>
      rw [pruned]
      split
      · rename_i hdropped
        obtain ⟨rest, hpruned, hneeds⟩ := ih hdropped
        refine ⟨rest, hpruned, fun earlier step later hrest => ?_⟩
        obtain ⟨before, behind, rfl, hearlier, hneeded⟩ := hneeds earlier step later hrest
        exact ⟨tried :: before, behind, rfl, hearlier.cons tried, hneeded⟩
      · rename_i hkept
        have hshows : shows ((kept ++ [tried]) ++ pending) = true := by
          rw [List.append_assoc]
          exact h
        obtain ⟨rest, hpruned, hneeds⟩ := ih hshows
        have hsublist := pruned_sublist shows (kept ++ [tried]) pending
        rw [hpruned, List.append_sublist_append_left] at hsublist
        rw [List.append_assoc] at hpruned
        refine ⟨tried :: rest, hpruned, fun earlier step later hrest => ?_⟩
        rcases earlier with _ | ⟨first, earlier⟩
        · -- Of the call that has just been tried, the trial itself tells that it is needed.
          obtain ⟨rfl, rfl⟩ := List.cons.inj hrest
          exact ⟨[], pending, rfl, .slnil, hsublist, h, Bool.eq_false_iff.mpr hkept⟩
        · obtain ⟨rfl, htail⟩ := List.cons.inj hrest
          obtain ⟨before, behind, rfl, hearlier, hlater, hwith, hwithout⟩ :=
            hneeds earlier step later htail
          rw [List.append_assoc] at hwith hwithout
          exact ⟨tried :: before, behind, rfl, hearlier.cons_cons tried, hlater, hwith, hwithout⟩

/-- What a replay tells of a sequence, from any executor that has the same saved states. -/
def Answers (program : Program) (site : Site) (goal : Goal) (executor : Executor)
    (sequence : List RecordedCall) (answer : Bool) : Prop :=
  ∀ coverage replayer, Alike replayer executor →
    (reproduces program.client site goal sequence coverage replayer).1.1 = .ok answer

variable {program : Program} {goal : Goal} {site : Site} {executor : Executor}

theorem answers_of_shows {baseline : Storage} {sequence : List RecordedCall} {answer : Bool}
    (hbaseline : executor.snapshots[site.baseline.id]? = some baseline)
    (h : (executor.host program).shows site.target goal baseline sequence = answer) :
    Answers program site goal executor sequence answer := by
  intro coverage replayer halike
  rw [← halike.snapshots] at hbaseline
  rw [← halike.host_eq] at h
  obtain ⟨covered, next, hreproduces, -⟩ :=
    Executor.reproduces_shows program goal sequence coverage hbaseline
  rw [hreproduces, h]

theorem Tight.shows_without_last {host : Host} {target : InstanceId} {baseline : Storage}
    {earlier : List RecordedCall} {step : RecordedCall} {signatures : List String}
    (h : Tight host target goal baseline (earlier ++ [step]))
    (horacle : goal.oracle = .exceptions signatures) :
    host.shows target goal baseline earlier = false := by
  -- All calls before the last one go through, and no state is an exception.
  have hunmet (storage : Storage) : host.meets goal storage = false := by
    rw [Host.meets, horacle]
    rfl
  generalize hsequence : earlier ++ [step] = sequence at h
  cases h with
  | meets _ met =>
      rw [hunmet] at met
      cases met
  | raises advances _ _ =>
      obtain ⟨rfl, -⟩ := List.append_inj' hsequence rfl
      have hshows := advances.shows_append goal []
      rw [List.append_nil] at hshows
      rw [hshows]
      exact hunmet _

/-- Each call of a shortened sequence was needed in its turn: before the calls after it were tried,
the sequence showed the violations with it and not without it. Of a sequence that shows an exception
the last call is needed to the end. -/
theorem shrink_needs {trial : Executor} {sequence : List RecordedCall} {tried : Coverage}
    (h : (reproduces program.client site goal sequence tried trial).1.1 = .ok true)
    (halike : Executor.Alike executor trial) (coverage : Coverage) :
    ∃ shorter live after ended,
      shrink program.client site goal sequence coverage executor =
        ((.ok shorter, live, after), ended) ∧
      (∀ earlier step later, shorter = earlier ++ step :: later →
        NeededInTurn (Answers program site goal ended) sequence earlier step later) ∧
      ∀ signatures earlier step, goal.oracle = .exceptions signatures →
        shorter = earlier ++ [step] → Answers program site goal ended earlier false := by
  obtain ⟨baseline, after, ended, hbaseline, hshows, hshrink, hended⟩ :=
    shrink_of_reproduces h halike coverage
  have hstart : (executor.host program).shows site.target goal baseline ([] ++ sequence) = true :=
    hshows
  obtain ⟨rest, hpruned, hneeds⟩ := pruned_needs hstart
  have htight := pruned_tight .done hshows
  rw [List.nil_append] at hpruned
  rw [← hended.snapshots] at hbaseline
  rw [← hended.host_eq] at hpruned hneeds htight hshrink
  have hanswers (calls : List RecordedCall) (answer : Bool) :
      (ended.host program).shows site.target goal baseline calls = answer →
        Answers program site goal ended calls answer := answers_of_shows hbaseline
  refine ⟨_, _, after, ended, hshrink, fun earlier step later hshorter => ?_, ?_⟩
  · exact (hneeds earlier step later (hpruned.symm.trans hshorter)).imp hanswers
  · intro signatures earlier step horacle hshorter
    rw [hshorter] at htight
    exact hanswers _ _ (htight.shows_without_last horacle)

/-- A museum that can be robbed while nobody watches it, and a distraction from watching. -/
def museum : Program :=
  [.external "distract" [] fun storage _ => .ok ({}, storage.write "distracted" 1),
    .external "watch" [] fun storage _ =>
      if storage.read "distracted" = 1 then .ok ({}, storage)
      else .ok ({}, storage.write "watched" 1),
    .external "steal" [] fun storage _ =>
      if storage.read "watched" = 1 then .ok ({}, storage)
      else .ok ({}, storage.write "stolen" 1),
    .external "inspect" [] fun storage _ =>
      if storage.read "watched" = 1 then .ok ({}, storage)
      else .error "Unwatched: nobody is there",
    .property "tayt_kept" fun storage _ =>
      .ok ({ returnData := [if storage.read "stolen" = 1 then 0 else 1] }, storage)]

def museumCall (function : String) : RecordedCall := ⟨⟨0, function, [], .external, none⟩, []⟩

def inspectionCalls : List RecordedCall := ["distract", "watch", "inspect"].map museumCall

def robbed : Goal :=
  ⟨.properties targetAddress 0, .ofList ["tayt_kept"], [.property "tayt_kept" []]⟩

def unwatched : Goal :=
  ⟨.exceptions ["Unwatched"], .ofList ["nobody"], [.exception "nobody" "nobody is there"]⟩

theorem shrink_needs_museum :
    (reproduces museum.client turnstileSite unwatched inspectionCalls .empty
        turnstileExecutor).1.1 = .ok true ∧
      (shrink museum.client turnstileSite unwatched inspectionCalls .empty
        turnstileExecutor).1.1 = .ok [museumCall "distract", museumCall "inspect"] ∧
      ∃ ended,
        NeededInTurn (Answers museum turnstileSite unwatched ended) inspectionCalls []
          (museumCall "distract") [museumCall "inspect"] ∧
        Answers museum turnstileSite unwatched ended [museumCall "distract"] false := by
  have hreproduces : (reproduces museum.client turnstileSite unwatched inspectionCalls .empty
      turnstileExecutor).1.1 = .ok true := by decide +kernel
  have hshort : (shrink museum.client turnstileSite unwatched inspectionCalls .empty
      turnstileExecutor).1.1 = .ok [museumCall "distract", museumCall "inspect"] := by
    decide +kernel
  obtain ⟨shorter, live, after, ended, hshrink, hneeds, hlast⟩ :=
    shrink_needs hreproduces (.refl turnstileExecutor) .empty
  refine ⟨hreproduces, hshort, ended, ?_⟩
  rw [hshrink] at hshort
  obtain rfl := Except.ok.inj hshort
  exact ⟨hneeds [] _ _ rfl, hlast _ [museumCall "distract"] _ rfl rfl⟩

/-- A call of the shortened sequence can be left out, and what is left shows the violations. -/
def LeavesRemovable (program : Program) (goal : Goal) (sequence : List RecordedCall) : Prop :=
  (reproduces program.client turnstileSite goal sequence .empty turnstileExecutor).1.1 = .ok true ∧
    ∃ earlier step later,
      (shrink program.client turnstileSite goal sequence .empty turnstileExecutor).1.1 =
        .ok (earlier ++ step :: later) ∧
      (reproduces program.client turnstileSite goal (earlier ++ later) .empty
        (shrink program.client turnstileSite goal sequence .empty turnstileExecutor).2).1.1 =
          .ok true

/-- Once nobody is to watch any more, the distraction is not needed, but it has had its turn. -/
theorem museum_keeps_distraction :
    LeavesRemovable museum robbed (["distract", "watch", "steal"].map museumCall) ∧
      LeavesRemovable museum unwatched inspectionCalls := by
  constructor
  · refine ⟨?_, [], museumCall "distract", [museumCall "steal"], ?_, ?_⟩
    all_goals decide +kernel
  · refine ⟨?_, [], museumCall "distract", [museumCall "inspect"], ?_, ?_⟩
    all_goals decide +kernel

end ContractFuzz.Shrinking
