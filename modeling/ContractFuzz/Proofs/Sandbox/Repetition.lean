import ContractFuzz.Proofs.Sandbox.Replay

namespace ContractFuzz

/-- What a frame tells of its call, but for the numbers of the events. -/
def Frame.told (frame : Frame) : List Felt × List Event :=
  (frame.returnData, frame.sortedEvents.map Event.unnumbered)

/-- What is told of the calls of a replay: their return data and events, or why they reverted. -/
def Replay.told (replay : Replay) : List (Except Revert (List Felt × List Event)) :=
  replay.outcomes.map (Except.map Frame.told)

namespace Sandbox

/-- Calls with what came of them, and the ones of these that are kept when some calls that reverted
are left out. -/
inductive LeavesOut {α : Type} : List (RecordedCall × Except Revert α) →
    List (RecordedCall × Except Revert α) → Prop
  | nil : LeavesOut [] []
  | keeps {made all kept} (more : LeavesOut all kept) : LeavesOut (made :: all) (made :: kept)
  | drops {step r all kept} (more : LeavesOut all kept) : LeavesOut ((step, .error r) :: all) kept

def Outcome.told (outcome : Outcome) : List Felt × List Event :=
  (outcome.returnData, outcome.events.map Emission.event)

def Course.told (course : Course) : List (Except Revert (List Felt × List Event)) :=
  course.outcomes.map (Except.map Outcome.told)

/-- What is told of the calls of a course, and where it ends. -/
def Course.account (course : Course) : List (Except Revert (List Felt × List Event)) × Storage :=
  (course.told, course.storage)

theorem ShowsOutcome.told {program : Program} {answer : Except Revert Frame}
    {outcome : Except Revert Outcome} (h : ShowsOutcome program answer outcome) :
    answer.map Frame.told = outcome.map Outcome.told := by
  cases h with
  | ok target call outcome firstEvent =>
      have hevents := Executor.unnumbered_sortedEvents_frame program target call outcome firstEvent
      exact congrArg (fun events => Except.ok (outcome.returnData, events)) hevents
  | error r => rfl

theorem Takes.told {program : Program} {replay : Replay} {course : Course}
    (h : Takes program replay course) : replay.told = course.told := by
  have htold := h.outcomes.imp fun _ _ => ShowsOutcome.told
  exact List.forall₂_eq_eq_eq ▸
    List.forall₂_map_left_iff.mpr (List.forall₂_map_right_iff.mpr htold)

namespace Host

variable {host : Host} {target : InstanceId}

theorem told_after_ok (outcome : Outcome) (course : Course) :
    (course.after (.ok outcome)).told = .ok outcome.told :: course.told := rfl

theorem told_after_error (r : Revert) (course : Course) :
    (course.after (.error r)).told = .error r :: course.told := rfl

theorem length_told_replay (storage : Storage) (sequence : List RecordedCall) :
    (host.replay target (fun _ => false) storage sequence).told.length = sequence.length := by
  induction sequence generalizing storage with
  | nil => rfl
  | cons step rest ih =>
      rcases hrespond : host.respond (step.call.invocation target) storage with r | ⟨outcome, next⟩
      · rw [replay_of_error hrespond, if_neg Bool.false_ne_true, told_after_error,
          List.length_cons, ih, List.length_cons]
      · rw [replay_of_ok hrespond, told_after_ok, List.length_cons, ih, List.length_cons]

/-- A revert leaves the storage as it is, so the calls after it cannot tell whether it was there. -/
theorem replay_of_leavesOut {storage : Storage} {sequence : List RecordedCall}
    {kept : List (RecordedCall × Except Revert (List Felt × List Event))}
    (h : LeavesOut
      (sequence.zip (host.replay target (fun _ => false) storage sequence).told) kept) :
    (host.replay target (fun _ => false) storage (kept.map Prod.fst)).told = kept.map Prod.snd ∧
      (host.replay target (fun _ => false) storage (kept.map Prod.fst)).storage =
        (host.replay target (fun _ => false) storage sequence).storage := by
  induction sequence generalizing storage kept with
  | nil =>
      cases h
      exact ⟨rfl, rfl⟩
  | cons step rest ih =>
      rcases hrespond : host.respond (step.call.invocation target) storage with r | ⟨outcome, next⟩
      · rw [replay_of_error hrespond, if_neg Bool.false_ne_true] at h ⊢
        rw [told_after_error, List.zip_cons_cons] at h
        cases h with
        | keeps more =>
            obtain ⟨htold, hstorage⟩ := ih more
            rw [List.map_cons, List.map_cons, replay_of_error hrespond, if_neg Bool.false_ne_true,
              told_after_error, htold]
            exact ⟨rfl, hstorage⟩
        | drops more => exact ih more
      · rw [replay_of_ok hrespond] at h ⊢
        rw [told_after_ok, List.zip_cons_cons] at h
        cases h with
        | keeps more =>
            obtain ⟨htold, hstorage⟩ := ih more
            rw [List.map_cons, List.map_cons, replay_of_ok hrespond, told_after_ok, htold]
            exact ⟨rfl, hstorage⟩

end Host

namespace Executor

/-- What a replay that no revert stops tells of its calls and the storage it ends in, or why there
was none. -/
def replayed (program : Program) (site : Site) (sequence : List RecordedCall)
    (executor : Executor) :
    Except CampaignError (List (Except Revert (List Felt × List Event)) × Storage) :=
  let (answer, ended) := Replay.run program.client site (fun _ => false) sequence executor
  answer.map fun replay => (replay.told, ended.storage)

variable {program : Program} {site : Site} {executor left right : Executor}

theorem replayed_of_some {baseline : Storage}
    (hsaved : executor.snapshots[site.baseline.id]? = some baseline)
    (sequence : List RecordedCall) :
    replayed program site sequence executor = .ok
      ((host program executor).replay site.target (fun _ => false) baseline sequence).account := by
  obtain ⟨replay, ended, hrun, htakes, hstorage, -⟩ :=
    run_takes program (fun _ => false) sequence hsaved
  rw [replayed, hrun]
  exact congrArg₂ (fun told storage => Except.ok (told, storage)) htakes.told hstorage

theorem run_of_none (hsaved : executor.snapshots[site.baseline.id]? = none)
    (stops : Revert → Bool) (sequence : List RecordedCall) :
    Replay.run program.client site stops sequence executor =
      (.error (.ofExecution .restoringBaseline (.client (.unknownHandle site.baseline.id))),
        executor) := by
  simp only [Replay.run, bind_apply, pure_apply, restore_of_none program hsaved]

theorem replayed_of_none (hsaved : executor.snapshots[site.baseline.id]? = none)
    (sequence : List RecordedCall) :
    replayed program site sequence executor =
      .error (.ofExecution .restoringBaseline (.client (.unknownHandle site.baseline.id))) := by
  rw [replayed, run_of_none hsaved]
  rfl

theorem replayed_congr (hdeployed : left.deployed = right.deployed)
    (hsaved : left.snapshots[site.baseline.id]? = right.snapshots[site.baseline.id]?)
    (sequence : List RecordedCall) :
    replayed program site sequence left = replayed program site sequence right := by
  cases hright : right.snapshots[site.baseline.id]? with
  | none => rw [replayed_of_none (hsaved.trans hright), replayed_of_none hright]
  | some baseline =>
      have hhost : host program left = host program right := by rw [host, hdeployed]
      rw [replayed_of_some (hsaved.trans hright), replayed_of_some hright, hhost]

theorem run_alike (program : Program) (site : Site) (stops : Revert → Bool)
    (sequence : List RecordedCall) (executor : Executor) :
    Alike (Replay.run program.client site stops sequence executor).2 executor := by
  cases hsaved : executor.snapshots[site.baseline.id]? with
  | none =>
      rw [run_of_none hsaved]
      exact .refl executor
  | some baseline =>
      obtain ⟨replay, ended, hrun, -, -, halike⟩ := run_takes program stops sequence hsaved
      rw [hrun]
      exact halike

theorem baseline_of_replayed {sequence : List RecordedCall}
    {account : List (Except Revert (List Felt × List Event)) × Storage}
    (h : replayed program site sequence executor = .ok account) :
    ∃ baseline, executor.snapshots[site.baseline.id]? = some baseline ∧ account =
      ((host program executor).replay site.target (fun _ => false) baseline sequence).account := by
  cases hsaved : executor.snapshots[site.baseline.id]? with
  | none =>
      rw [replayed_of_none hsaved] at h
      cases h
  | some baseline =>
      rw [replayed_of_some hsaved] at h
      exact ⟨baseline, rfl, (Except.ok.inj h).symm⟩

theorem exists_replayed_iff (sequence : List RecordedCall) :
    (∃ told storage, replayed program site sequence executor = .ok (told, storage)) ↔
      executor.snapshots[site.baseline.id]?.isSome = true := by
  constructor
  · rintro ⟨told, storage, h⟩
    obtain ⟨baseline, hsaved, -⟩ := baseline_of_replayed h
    exact Option.isSome_of_eq_some hsaved
  · intro h
    obtain ⟨baseline, hsaved⟩ := Option.isSome_iff_exists.mp h
    exact ⟨_, _, replayed_of_some hsaved sequence⟩

theorem length_of_replayed {sequence : List RecordedCall}
    {told : List (Except Revert (List Felt × List Event))} {storage : Storage}
    (h : replayed program site sequence executor = .ok (told, storage)) :
    told.length = sequence.length := by
  obtain ⟨baseline, -, haccount⟩ := baseline_of_replayed h
  cases haccount
  exact Host.length_told_replay baseline sequence

theorem replayed_of_leavesOut {sequence : List RecordedCall}
    {told : List (Except Revert (List Felt × List Event))} {storage : Storage}
    {kept : List (RecordedCall × Except Revert (List Felt × List Event))}
    (h : replayed program site sequence executor = .ok (told, storage))
    (hkept : LeavesOut (sequence.zip told) kept) :
    replayed program site (kept.map Prod.fst) executor = .ok (kept.map Prod.snd, storage) := by
  obtain ⟨baseline, hsaved, haccount⟩ := baseline_of_replayed h
  cases haccount
  obtain ⟨htold, hstorage⟩ := Host.replay_of_leavesOut hkept
  rw [replayed_of_some hsaved, Course.account, htold, hstorage]

/-- Replays that no revert stops repeat themselves, on any executors that agree on the deployment
and on the baseline, and once more after themselves. They tell of every call, and the calls that
reverted can be left out. -/
theorem run_repeats (program : Program) (site : Site) (sequence : List RecordedCall)
    (hdeployed : left.deployed = right.deployed)
    (hsaved : left.snapshots[site.baseline.id]? = right.snapshots[site.baseline.id]?) :
    replayed program site sequence left = replayed program site sequence right ∧
      replayed program site sequence
          (Replay.run program.client site (fun _ => false) sequence left).2 =
        replayed program site sequence left ∧
      ((∃ told storage, replayed program site sequence left = .ok (told, storage)) ↔
        left.snapshots[site.baseline.id]?.isSome = true) ∧
      ∀ told storage, replayed program site sequence left = .ok (told, storage) →
        told.length = sequence.length ∧
          ∀ kept, LeavesOut (sequence.zip told) kept →
            replayed program site (kept.map Prod.fst) left =
              .ok (kept.map Prod.snd, storage) := by
  have halike := run_alike program site (fun _ => false) sequence left
  refine ⟨replayed_congr hdeployed hsaved sequence, ?_, exists_replayed_iff sequence, ?_⟩
  · exact replayed_congr halike.deployed (by rw [halike.snapshots]) sequence
  · intro told storage htold
    exact ⟨length_of_replayed htold, fun kept => replayed_of_leavesOut htold⟩

/-- A till that takes coins and gives them back, as long as it has some. -/
def till : Program :=
  [.external "pay" [] fun storage _ =>
      .ok ({ events := [⟨"Paid", [storage.read "coins"]⟩] },
        storage.write "coins" (storage.read "coins" + 1)),
    .external "refund" [] fun storage _ =>
      if storage.read "coins" = 0 then .error "The till is empty"
      else .ok ({ returnData := [1] }, storage.write "coins" (storage.read "coins" - 1))]

def tillSite : Site := ⟨targetAddress, ⟨0⟩⟩

def tillCall (function : String) : RecordedCall := ⟨⟨0, function, [], .external, none⟩, []⟩

/-- A till that has just been set up, and its one snapshot taken. -/
def newTill : Executor := { snapshots := [.empty], deployed := some targetAddress }

/-- A till after a day of work. -/
def usedTill : Executor :=
  { newTill with storage := Storage.write .empty "coins" 7, nextEvent := 12 }

theorem run_repeats_till :
    newTill.deployed = usedTill.deployed ∧
      newTill.snapshots[tillSite.baseline.id]? = usedTill.snapshots[tillSite.baseline.id]? ∧
      replayed till tillSite (["refund", "pay", "refund", "refund"].map tillCall) newTill =
        replayed till tillSite (["refund", "pay", "refund", "refund"].map tillCall) usedTill ∧
      ∃ storage,
        replayed till tillSite (["refund", "pay", "refund", "refund"].map tillCall) newTill =
          .ok ([.error ⟨"The till is empty"⟩, .ok ([], [Emission.event ⟨"Paid", [0]⟩]),
            .ok ([1], []), .error ⟨"The till is empty"⟩], storage) ∧
        replayed till tillSite (["pay", "refund"].map tillCall) newTill =
          .ok ([.ok ([], [Emission.event ⟨"Paid", [0]⟩]), .ok ([1], [])], storage) := by
  have hdeployed : newTill.deployed = usedTill.deployed := rfl
  have hsaved : newTill.snapshots[tillSite.baseline.id]? = some .empty := rfl
  obtain ⟨hsame, -, -, hkept⟩ :=
    run_repeats till tillSite (["refund", "pay", "refund", "refund"].map tillCall) hdeployed rfl
  have hreplayed : replayed till tillSite _ newTill = _ := replayed_of_some hsaved
    (["refund", "pay", "refund", "refund"].map tillCall)
  refine ⟨hdeployed, rfl, hsame, _, hreplayed, ?_⟩
  exact (hkept _ _ hreplayed).2 _ (.drops (.keeps (.keeps (.drops .nil))))

end Executor

end Sandbox

end ContractFuzz
