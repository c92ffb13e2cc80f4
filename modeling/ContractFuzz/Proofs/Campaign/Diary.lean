import ContractFuzz.Proofs.Campaign.Accounting
import ContractFuzz.Proofs.Campaign.FirstViolation
import ContractFuzz.Proofs.Campaign.Mirrors
import ContractFuzz.Proofs.Campaign.Trials
import ContractFuzz.Proofs.Coverage.Union

/-!
The coverage of a whole run. A client that keeps a diary tells the calls that a campaign draws from
those that it replays; the coverage after a run is that before it and what ran in the calls that
were drawn and in the queries.
-/

namespace ContractFuzz

/-- A request, and how it was answered. -/
inductive Note where
  | drawn (call : Invocation) (answer : Except ExecutionError Frame)
  | replayed (call : Invocation) (answer : Except ExecutionError Frame)
  | queried (call : Invocation) (answer : Except ExecutionError Frame)

namespace Note

def drawn? : Note → Option Invocation
  | drawn call _ => some call
  | _ => none

/-- The frame of a request that counts for coverage, if it has not failed. -/
def counted? : Note → Option Frame
  | drawn _ answer | queried _ answer => answer.toOption
  | replayed .. => none

end Note

/-- The notes of a client on what it has been asked, and how often the baseline has been restored in
the iteration under way. -/
structure Diary (σ : Type) where
  restores : Nat
  notes : List Note
  world : σ

namespace Diary

variable {σ α : Type}

def drawn (diary : Diary σ) : List Invocation := diary.notes.filterMap Note.drawn?

def counted (diary : Diary σ) : List Frame := diary.notes.filterMap Note.counted?

def note (note : Note) (diary : Diary σ) : Diary σ :=
  { diary with notes := diary.notes ++ [note] }

/-- What a client does, and what is written down of its answer. -/
def keeping (write : α → Diary σ → Diary σ) (perform : StateM σ α) : StateM (Diary σ) α :=
  fun diary =>
    let (answer, world) := perform diary.world
    (answer, write answer { diary with world })

/-- The page is turned when an iteration has ended. -/
def turn (_ : Log) : StateM (Diary σ) Unit := fun diary => ((), { diary with restores := 0 })

end Diary

/-- The client that keeps a diary of what is asked of another. Calls are drawn until the baseline is
restored a second time in an iteration. -/
def Client.watched {σ : Type} (client : Client (StateM σ)) : Client (StateM (Diary σ)) where
  deploy artifact arguments := Diary.keeping (fun _ => id) (client.deploy artifact arguments)
  declare artifact := Diary.keeping (fun _ => id) (client.declare artifact)
  invoke call :=
    Diary.keeping (fun answer diary =>
      diary.note (if diary.restores ≤ 1 then .drawn call answer else .replayed call answer))
      (client.invoke call)
  query call := Diary.keeping (fun answer => Diary.note (.queried call answer)) (client.query call)
  snapshot := Diary.keeping (fun _ => id) client.snapshot
  restore handle :=
    Diary.keeping (fun _ diary => { diary with restores := diary.restores + 1 })
      (client.restore handle)

variable {σ ρ : Type} {client : Client (StateM σ)} {diary next last : Diary σ}

theorem Client.watched_mirrors (client : Client (StateM σ)) :
    client.watched.Mirrors Diary.world client where
  invoke _ _ := rfl
  query _ _ := rfl
  restore _ _ := rfl

namespace Diary

/-- Diaries of which the later one has no other calls, drawn or counted. -/
structure Same (diary last : Diary σ) : Prop where
  drawn : last.drawn = diary.drawn
  counted : last.counted = diary.counted

theorem Same.trans (h : diary.Same next) (h' : next.Same last) : diary.Same last where
  drawn := h'.drawn.trans h.drawn
  counted := h'.counted.trans h.counted

theorem drawn_note (note : Note) :
    (diary.note note).drawn = diary.drawn ++ note.drawn?.toList := by
  rw [drawn, Diary.note, List.filterMap_append, List.filterMap_cons]
  cases note.drawn? <;> rfl

theorem counted_note (note : Note) :
    (diary.note note).counted = diary.counted ++ note.counted?.toList := by
  rw [counted, Diary.note, List.filterMap_append, List.filterMap_cons]
  cases note.counted? <;> rfl

end Diary

section Requests

variable {call : Invocation} {answer : Except ExecutionError Frame}

theorem Client.drawn_of_invoke (h : client.watched.invoke call diary = (answer, next))
    (hfirst : diary.restores ≤ 1) :
    next.restores = diary.restores ∧ next.drawn = diary.drawn ++ [call] ∧
      next.counted = diary.counted ++ answer.toOption.toList := by
  cases h
  refine ⟨rfl, ?_, ?_⟩
  · rw [Diary.drawn_note, if_pos hfirst]
    rfl
  · rw [Diary.counted_note, if_pos hfirst]
    rfl

theorem Client.same_of_invoke (h : client.watched.invoke call diary = (answer, next))
    (hlater : 1 < diary.restores) : next.restores = diary.restores ∧ diary.Same next := by
  cases h
  refine ⟨rfl, ?_, ?_⟩
  · rw [Diary.drawn_note, if_neg (Nat.not_le.mpr hlater)]
    exact List.append_nil _
  · rw [Diary.counted_note, if_neg (Nat.not_le.mpr hlater)]
    exact List.append_nil _

theorem Client.counted_of_query (h : client.watched.query call diary = (answer, next)) :
    next.restores = diary.restores ∧ next.drawn = diary.drawn ∧
      next.counted = diary.counted ++ answer.toOption.toList := by
  cases h
  refine ⟨rfl, ?_, ?_⟩
  · rw [Diary.drawn_note]
    exact List.append_nil _
  · rw [Diary.counted_note]
    rfl

theorem Client.same_of_restore {handle : StateHandle} {done : Except ExecutionError Unit}
    (h : client.watched.restore handle diary = (done, next)) :
    next.restores = diary.restores + 1 ∧ diary.Same next := by
  cases h
  exact ⟨rfl, rfl, rfl⟩

end Requests

/-- Coverage that some calls, counted in a diary, have led to. -/
def Diary.Accounts (diary : Diary σ) (start coverage : Coverage) : Prop :=
  coverage = diary.counted.foldl Coverage.after start

section Accounts

variable {start coverage after : Coverage}

theorem Diary.Accounts.of_same (h : diary.Accounts start coverage) (hsame : diary.Same last) :
    last.Accounts start coverage := by
  rw [Accounts, hsame.counted]
  exact h

theorem Diary.Accounts.of_counted (h : diary.Accounts start coverage) {frames : List Frame}
    (hcounted : last.counted = diary.counted ++ frames) :
    last.Accounts start (frames.foldl Coverage.after coverage) := by
  rw [Accounts, hcounted, List.foldl_append, ← h]

/-- What queries and replays come to: coverage is accounted for, and no call has been drawn. -/
structure Diary.Inspects (diary : Diary σ) (start after : Coverage) (last : Diary σ) : Prop where
  accounts : last.Accounts start after
  drawn : last.drawn = diary.drawn

theorem Diary.Inspects.of_drawn (h : next.Inspects start after last)
    (hdrawn : next.drawn = diary.drawn) : diary.Inspects start after last where
  accounts := h.accounts
  drawn := h.drawn.trans hdrawn

theorem Oracle.Queries.inspects {target : InstanceId} {sender : Felt} {names : List String}
    {result : Except CampaignError (List Violation)}
    (run : Queries client.watched target sender names coverage diary result after last)
    (h : diary.Accounts start coverage) :
    last.restores = diary.restores ∧ diary.Inspects start after last := by
  induction run with
  | done => exact ⟨rfl, h, rfl⟩
  | fails answer =>
      obtain ⟨hrestores, hdrawn, hcounted⟩ := Client.counted_of_query answer
      exact ⟨hrestores, h.of_counted hcounted, hdrawn⟩
  | reverts answer _ ih =>
      obtain ⟨hrestores, hdrawn, hcounted⟩ := Client.counted_of_query answer
      obtain ⟨hmore, hinspects⟩ := ih (h.of_counted hcounted)
      exact ⟨hmore.trans hrestores, hinspects.of_drawn hdrawn⟩
  | holds answer _ _ ih | breaks answer _ _ ih =>
      obtain ⟨hrestores, hdrawn, hcounted⟩ := Client.counted_of_query answer
      obtain ⟨hmore, hinspects⟩ := ih (h.of_counted hcounted)
      exact ⟨hmore.trans hrestores, hinspects.of_drawn hdrawn⟩

theorem Oracle.inspectState_inspects {oracle : Oracle} {live : Obligations}
    {result : Except CampaignError (List Violation)}
    (inspected : oracle.inspectState client.watched live coverage diary = ((result, after), last))
    (h : diary.Accounts start coverage) :
    last.restores = diary.restores ∧ diary.Inspects start after last := by
  cases oracle with
  | properties target sender =>
      have run : Queries client.watched target sender live.live coverage diary _ _ _ :=
        queries inspected
      exact run.inspects h
  | exceptions signatures =>
      cases inspected
      exact ⟨rfl, h, rfl⟩

namespace Replay

variable {stops : Revert → Bool} {sequence : List RecordedCall}
  {replayed : Except CampaignError Replay}

theorem calls_same {target : InstanceId}
    (hcalls : calls client.watched target stops sequence diary = (replayed, last))
    (hlater : 1 < diary.restores) : last.restores = diary.restores ∧ diary.Same last := by
  induction sequence generalizing diary replayed with
  | nil =>
      cases hcalls
      exact ⟨rfl, rfl, rfl⟩
  | cons step rest ih =>
      rcases answer : client.watched.invoke (step.call.invocation target) diary with
        ⟨⟨r | fault⟩ | frame, next⟩
      all_goals
        obtain ⟨hrestores, hsame⟩ := Client.same_of_invoke answer hlater
        simp only [calls, bind_apply, answer] at hcalls
      · split at hcalls
        · cases hcalls
          exact ⟨hrestores, hsame⟩
        · rcases hrest : calls client.watched target stops rest next with ⟨later, ended⟩
          simp only [bind_apply, pure_apply, hrest] at hcalls
          cases hcalls
          obtain ⟨hmore, hsames⟩ := ih hrest (hrestores ▸ hlater)
          exact ⟨hmore.trans hrestores, hsame.trans hsames⟩
      · cases hcalls
        exact ⟨hrestores, hsame⟩
      · rcases hrest : calls client.watched target stops rest next with ⟨later, ended⟩
        simp only [pure_apply, hrest] at hcalls
        cases hcalls
        obtain ⟨hmore, hsames⟩ := ih hrest (hrestores ▸ hlater)
        exact ⟨hmore.trans hrestores, hsame.trans hsames⟩

theorem run_same {site : Site}
    (hrun : run client.watched site stops sequence diary = (replayed, last))
    (hlater : 1 ≤ diary.restores) : last.restores = diary.restores + 1 ∧ diary.Same last := by
  -- The baseline is restored before the calls, so that none of them passes for a drawn one.
  rcases answer : client.watched.restore site.baseline diary with ⟨e | _, next⟩
  all_goals
    obtain ⟨hrestores, hsame⟩ := Client.same_of_restore answer
    simp only [run, bind_apply, answer] at hrun
  · cases hrun
    exact ⟨hrestores, hsame⟩
  · have hcalls := calls_same hrun (by omega)
    exact ⟨hcalls.1.trans hrestores, hsame.trans hcalls.2⟩

end Replay

namespace Shrinking

variable {site : Site} {goal : Goal}

theorem reproduces_inspects {sequence : List RecordedCall} {result : Except CampaignError Bool}
    (htrial : reproduces client.watched site goal sequence coverage diary = ((result, after), last))
    (h : diary.Accounts start coverage) (hlater : 1 ≤ diary.restores) :
    1 ≤ last.restores ∧ diary.Inspects start after last := by
  rcases hrun : Replay.run client.watched site goal.isShownBy sequence diary with
    ⟨e | replay, next⟩
  all_goals
    obtain ⟨hrestores, hsame⟩ := Replay.run_same hrun hlater
    simp only [reproduces, bind_apply, hrun] at htrial
  · cases htrial
    exact ⟨by omega, h.of_same hsame, hsame.drawn⟩
  split at htrial
  · cases htrial
    exact ⟨by omega, h.of_same hsame, hsame.drawn⟩
  · rcases hinspect : goal.oracle.inspectState client.watched goal.live coverage next with
      ⟨⟨found, covered⟩, ended⟩
    simp only [bind_apply, pure_apply, hinspect] at htrial
    cases htrial
    obtain ⟨hqueried, hinspects⟩ := Oracle.inspectState_inspects hinspect (h.of_same hsame)
    exact ⟨by omega, hinspects.of_drawn hsame.drawn⟩

theorem shrink_inspects {sequence : List RecordedCall}
    {result : Except CampaignError (List RecordedCall)} {live : Obligations}
    (hshrink : shrink client.watched site goal sequence coverage diary =
      ((result, live, after), last))
    (h : diary.Accounts start coverage) (hlater : 1 ≤ diary.restores) :
    diary.Inspects start after last := by
  have hkept := (shrink_ends hshrink).preserves
    (fun covered next => 1 ≤ next.restores ∧ diary.Inspects start covered next)
  refine (hkept ?_ ⟨hlater, h, rfl⟩).2
  rintro _ _ _ _ _ _ ⟨hrestores, hinspects⟩ htrial
  obtain ⟨hnext, htried⟩ := reproduces_inspects htrial hinspects.accounts hrestores
  exact ⟨hnext, htried.of_drawn hinspects.drawn⟩

end Shrinking

end Accounts

namespace Campaign

variable {campaign : Campaign ρ}

/-- Calls that are drawn first from one state of the generator, before those from another. -/
def DrawsFirst (campaign : Campaign ρ) (random : ρ) (calls : List Call) (next : ρ) : Prop :=
  ∀ later, (campaign.draws (calls.length + later) random).calls =
    calls ++ (campaign.draws later next).calls

theorem DrawsFirst.concat {random next following : ρ} {calls : List Call} {call : Call}
    (h : campaign.DrawsFirst random calls next)
    (generated : campaign.generator.call campaign.schema.functions campaign.schema.structs next =
      (.ok call, following)) :
    campaign.DrawsFirst random (calls ++ [call]) following := by
  intro later
  rw [List.length_append, List.length_singleton, Nat.add_assoc, Nat.add_comm 1, h,
    draws_of_ok generated, List.append_assoc, List.singleton_append]

/-- How a campaign that started with a state of the generator and some coverage has come to what it
has now: which calls it has drawn, and which have counted. -/
structure Tells (campaign : Campaign ρ) (start : Progress ρ) (progress : Progress ρ)
    (diary : Diary σ) : Prop where
  accounts : diary.Accounts start.coverage progress.coverage
  draws : ∃ calls, diary.drawn = calls.map (·.invocation campaign.site.target) ∧
    campaign.DrawsFirst start.random calls progress.random

/-- What is left to tell of a campaign that may have failed to draw a call. -/
structure Told (campaign : Campaign ρ) (start : Progress ρ) (coverage : Coverage)
    (diary : Diary σ) : Prop where
  accounts : diary.Accounts start.coverage coverage
  drawn : ∃ count, diary.drawn =
    (campaign.draws count start.random).calls.map (·.invocation campaign.site.target)

variable {start progress after : Progress ρ}

theorem Tells.told (h : campaign.Tells start progress diary) :
    campaign.Told start progress.coverage diary := by
  obtain ⟨calls, hdrawn, hfirst'⟩ := h.draws
  have hcalls : (campaign.draws calls.length start.random).calls = calls ++ [] := hfirst' 0
  refine ⟨h.accounts, calls.length, ?_⟩
  rw [hcalls, List.append_nil]
  exact hdrawn

theorem Tells.initial (progress : Progress ρ) {world : σ} :
    campaign.Tells progress progress ⟨0, [], world⟩ := by
  refine ⟨rfl, [], rfl, fun later => ?_⟩
  rw [List.length_nil, Nat.zero_add, List.nil_append]

theorem Tells.of_same (h : campaign.Tells start progress diary) (hsame : diary.Same last) :
    campaign.Tells start progress last := by
  obtain ⟨calls, hdrawn, hfirst'⟩ := h.draws
  exact ⟨h.accounts.of_same hsame, calls, hsame.drawn.trans hdrawn, hfirst'⟩

theorem Tells.inspects (h : campaign.Tells start progress diary) {coverage : Coverage}
    (hinspects : diary.Inspects start.coverage coverage last) (live : Obligations) :
    campaign.Tells start { progress with live, coverage } last := by
  obtain ⟨calls, hdrawn, hfirst'⟩ := h.draws
  exact ⟨hinspects.accounts, calls, hinspects.drawn.trans hdrawn, hfirst'⟩

theorem Tells.draw (h : campaign.Tells start progress diary) {call : Call} {random : ρ}
    {answer : Except ExecutionError Frame} (hfirst : diary.restores ≤ 1)
    (generated : campaign.generator.call campaign.schema.functions campaign.schema.structs
      progress.random = (.ok call, random))
    (invoked : client.watched.invoke (call.invocation campaign.site.target) diary =
      (answer, next)) :
    next.restores = diary.restores ∧
      campaign.Tells start
        ⟨random, progress.live, answer.toOption.toList.foldl Coverage.after progress.coverage⟩
        next := by
  obtain ⟨calls, hdrawn, hfirst'⟩ := h.draws
  obtain ⟨hrestores, hcall, hcounted⟩ := Client.drawn_of_invoke invoked hfirst
  refine ⟨hrestores, h.accounts.of_counted hcounted, calls ++ [call], ?_, hfirst'.concat generated⟩
  rw [hcall, hdrawn, List.map_append]
  rfl

theorem Makes.tells {count : Nat} {made : List RecordedCall}
    {result : Except CampaignError (Option Detection)}
    (run : Makes campaign client.watched count made progress diary result after last)
    (h : campaign.Tells start progress diary) (hfirst : diary.restores ≤ 1) :
    campaign.Told start after.coverage last ∧
      ∀ detected, result = .ok detected →
        campaign.Tells start after last ∧ last.restores = diary.restores := by
  induction run with
  | done => exact ⟨h.told, fun _ _ => ⟨h, rfl⟩⟩
  | ungenerated => exact ⟨h.told, nofun⟩
  | fails generated answer =>
      obtain ⟨-, hcall⟩ := h.draw hfirst generated answer
      exact ⟨hcall.told, nofun⟩
  | raises generated answer =>
      obtain ⟨hrestores, hcall⟩ := h.draw hfirst generated answer
      exact ⟨hcall.told, fun _ _ => ⟨hcall, hrestores⟩⟩
  | reverts generated answer _ _ ih =>
      obtain ⟨hrestores, hcall⟩ := h.draw hfirst generated answer
      obtain ⟨htold, htells⟩ := ih hcall (hrestores ▸ hfirst)
      refine ⟨htold, fun detected hresult => ?_⟩
      exact ⟨(htells detected hresult).1, (htells detected hresult).2.trans hrestores⟩
  | uninspected generated answer inspected =>
      obtain ⟨hrestores, hcall⟩ := h.draw hfirst generated answer
      obtain ⟨-, hinspects⟩ := Oracle.inspectState_inspects inspected hcall.accounts
      exact ⟨(hcall.inspects hinspects _).told, nofun⟩
  | passes generated answer inspected _ ih =>
      obtain ⟨hrestores, hcall⟩ := h.draw hfirst generated answer
      obtain ⟨hqueried, hinspects⟩ := Oracle.inspectState_inspects inspected hcall.accounts
      have hsame := hqueried.trans hrestores
      obtain ⟨htold, htells⟩ := ih (hcall.inspects hinspects _) (hsame ▸ hfirst)
      refine ⟨htold, fun detected hresult => ?_⟩
      exact ⟨(htells detected hresult).1, (htells detected hresult).2.trans hsame⟩
  | violates generated answer inspected =>
      obtain ⟨hrestores, hcall⟩ := h.draw hfirst generated answer
      obtain ⟨hqueried, hinspects⟩ := Oracle.inspectState_inspects inspected hcall.accounts
      refine ⟨(hcall.inspects hinspects _).told, fun _ _ => ⟨?_, hqueried.trans hrestores⟩⟩
      exact hcall.inspects hinspects _

theorem Iterates.tells {result : Except CampaignError (Option Detection)}
    (run : Iterates campaign client.watched progress diary result after last)
    (h : campaign.Tells start progress diary) (hturned : diary.restores = 0) :
    campaign.Told start after.coverage last ∧
      ∀ detected, result = .ok detected → campaign.Tells start after last ∧ 1 ≤ last.restores := by
  cases run with
  | unrestored answer =>
      obtain ⟨-, hsame⟩ := Client.same_of_restore answer
      exact ⟨(h.of_same hsame).told, nofun⟩
  | fails answer made =>
      obtain ⟨hrestores, hsame⟩ := Client.same_of_restore answer
      obtain ⟨htold, -⟩ := (makes made).tells (h.of_same hsame) (by omega)
      exact ⟨htold, nofun⟩
  | passes answer made | detects answer made =>
      obtain ⟨hrestores, hsame⟩ := Client.same_of_restore answer
      obtain ⟨htold, htells⟩ := (makes made).tells (h.of_same hsame) (by omega)
      refine ⟨htold, ?_⟩
      rintro detected ⟨⟩
      obtain ⟨hafter, hkept⟩ := htells _ rfl
      exact ⟨⟨hafter.accounts, hafter.draws⟩, by omega⟩

theorem settle_tells {detection : Detection} {result : Except CampaignError (List RecordedCall)}
    (settled : campaign.settle client.watched detection progress diary = ((result, after), last))
    (h : campaign.Tells start progress diary) (hlater : 1 ≤ diary.restores) :
    campaign.Tells start after last := by
  rw [settle] at settled
  split at settled
  · rcases hshrink : Shrinking.shrink client.watched campaign.site
      ⟨campaign.oracle, progress.live, detection.violations⟩ detection.sequence progress.coverage
      diary with ⟨⟨shorter, live, coverage⟩, ended⟩
    simp only [bind_apply, pure_apply, hshrink] at settled
    cases settled
    exact h.inspects (Shrinking.shrink_inspects hshrink h.accounts hlater) live
  · cases settled
    exact h

theorem Steps.tells {state next : State ρ} {result : Except CampaignError Unit}
    (run : Steps campaign client.watched state diary result next last)
    (h : campaign.Tells start state.progress diary) (hturned : diary.restores = 0) :
    campaign.Told start next.progress.coverage last ∧
      (result = .ok () → campaign.Tells start next.progress last) := by
  cases run with
  | fails iterated => exact ⟨((iterates iterated).tells h hturned).1, nofun⟩
  | passes iterated =>
      obtain ⟨htold, htells⟩ := (iterates iterated).tells h hturned
      exact ⟨htold, fun _ => (htells _ rfl).1⟩
  | unsettled iterated settled | finds iterated settled =>
      obtain ⟨-, htells⟩ := (iterates iterated).tells h hturned
      obtain ⟨hfound, hlater⟩ := htells _ rfl
      have hsettled := settle_tells settled hfound hlater
      exact ⟨hsettled.told, fun _ => hsettled⟩

theorem close_told {state ended : State ρ} {message : String} {result : Except CampaignError Unit}
    (h : campaign.Told start state.progress.coverage diary)
    (hclosed : close Diary.turn state message diary = ((result, ended), last)) :
    campaign.Told start ended.progress.coverage last := by
  cases hclosed
  exact ⟨h.accounts, h.drawn⟩

theorem loop_told {limited : Bool} {budget : Nat} {state ended : State ρ}
    {result : Except CampaignError Unit} (h : campaign.Tells start state.progress diary)
    (hturned : diary.restores = 0)
    (hend : campaign.loop client.watched Diary.turn limited budget state diary =
      ((result, ended), last)) :
    campaign.Told start ended.progress.coverage last := by
  induction budget generalizing state diary with
  | zero =>
      rw [loop] at hend
      split at hend
      · exact close_told h.told hend
      · split at hend
        · exact close_told h.told hend
        · cases hend
          exact h.told
  | succ budget ih =>
      rw [loop] at hend
      split at hend
      · exact close_told h.told hend
      · rcases stepped : campaign.step client.watched state diary with ⟨⟨e | _, next⟩, middle⟩
        all_goals
          obtain ⟨htold, htells⟩ := (steps stepped).tells h hturned
          simp only [bind_apply, stepped] at hend
        · cases hend
          exact ⟨htold.accounts, htold.drawn⟩
        · -- The page is turned before the next iteration, with all that is told on it.
          obtain ⟨haccounts, hdraws⟩ := htells rfl
          have hnext : campaign.Tells start next.progress
              (Diary.turn (next.log.drop state.log.length) middle).2 := ⟨haccounts, hdraws⟩
          exact ih hnext rfl hend

/-- The campaign with a diary of its own, on which nothing has been written yet. -/
def runWatched (client : Client (StateM σ)) (config : Config) (deployment : Deployment)
    (targetName : String) (coverage : Coverage) (world : σ) : RunOutcome × Diary σ :=
  runObserved client.watched Diary.turn config deployment targetName coverage ⟨0, [], world⟩

theorem run_eq_runWatched (client : Client (StateM σ)) (config : Config) (deployment : Deployment)
    (targetName : String) (coverage : Coverage) (world : σ) :
    run client config deployment targetName coverage world =
      ((runWatched client config deployment targetName coverage world).1,
        (runWatched client config deployment targetName coverage world).2.world) :=
  runObserved_mirrors client.watched_mirrors (fun _ _ => rfl) config deployment targetName coverage
    ⟨0, [], world⟩

theorem runWatched_told {config : Config} {deployment : Deployment} {targetName : String}
    {coverage : Coverage} {world : σ} {outcome : RunOutcome}
    (h : runWatched client config deployment targetName coverage world = (outcome, diary)) :
    diary.Accounts coverage outcome.coverage ∧
      (∀ generator, config.callGenerator = .ok generator →
        ∃ count, diary.drawn = (generator.draws deployment.schema.functions
          deployment.schema.structs count (.ofSeed config.seed)).calls.map
            (·.invocation deployment.target)) ∧
      ∀ report, outcome.result = .ok report →
        report.coveredInstructions = outcome.coverage.total := by
  rcases hprepare : prepare config deployment coverage with ⟨e | ⟨campaign, state⟩, log⟩
  · simp only [runWatched, runObserved, hprepare] at h
    cases h
    refine ⟨rfl, fun generator _ => ⟨0, rfl⟩, fun report hreport => ?_⟩
    cases hreport
  rcases hloop : campaign.loop client.watched Diary.turn config.maxIterations.isSome
    config.iterationBudget state (Diary.turn log ⟨0, [], world⟩).2 with ⟨⟨result, ended⟩, last⟩
  simp only [runWatched, runObserved, hprepare, bind_apply, pure_apply, hloop] at h
  cases h
  obtain ⟨generator, hgenerator, rfl, rfl⟩ := prepare_eq_ok hprepare
  have htold := loop_told (.initial _) rfl hloop
  refine ⟨htold.accounts, fun other hother => ?_, fun report hreport => ?_⟩
  · obtain rfl : generator = other := Except.ok.inj (hgenerator.symm.trans hother)
    exact htold.drawn
  · cases result with
    | error e => cases hreport
    | ok => exact Except.ok.inj hreport ▸ rfl

/-- Whatever a client answers and however a run ends, each instance has covered afterwards what it
had before and what was executed by the calls that were drawn and by the queries, at any depth. What
is replayed adds nothing. A report counts what all instances have covered. -/
theorem run_covers (client : Client (StateM σ)) (config : Config) (deployment : Deployment)
    (targetName : String) (coverage : Coverage) (world : σ) :
    let outcome := (run client config deployment targetName coverage world).1
    let diary := (runWatched client config deployment targetName coverage world).2
    (run client config deployment targetName coverage world =
        ((runWatched client config deployment targetName coverage world).1, diary.world)) ∧
      (∀ holder address, address ∈ outcome.coverage.covered holder ↔
        address ∈ coverage.covered holder ∨
          ∃ frame ∈ diary.counted, frame.Executes holder address) ∧
      (∀ generator, config.callGenerator = .ok generator →
        ∃ count, diary.drawn = (generator.draws deployment.schema.functions
          deployment.schema.structs count (.ofSeed config.seed)).calls.map
            (·.invocation deployment.target)) ∧
      ∀ report, outcome.result = .ok report →
        report.coveredInstructions = (outcome.coverage.addresses.keys.map fun holder =>
          (outcome.coverage.covered holder).size).sum := by
  intro outcome diary
  have hrun := run_eq_runWatched client config deployment targetName coverage world
  rcases hwatched : runWatched client config deployment targetName coverage world with
    ⟨watched, kept⟩
  obtain ⟨haccounts, hdrawn, htotal⟩ := runWatched_told hwatched
  obtain rfl : outcome = watched := congrArg Prod.fst (hwatched ▸ hrun)
  obtain rfl : diary = kept := congrArg Prod.snd hwatched
  refine ⟨hwatched ▸ hrun, fun holder address => ?_, hdrawn, fun report hreport => ?_⟩
  · rw [haccounts]
    exact Coverage.mem_covered_foldl_after
  · rw [htotal report hreport]
    exact Coverage.total_eq_sum_covered _

/-- A client that executes, in every call and query, an address that is the number of the request,
and in calls the same address of another instance. Queries return zero from the sixth request on;
those with a certain number fail. -/
def numberingClient (failing : Nat) : Client (StateM Nat) where
  deploy _ _ := fun asked => (.error (.client (.unknownHandle asked)), asked)
  declare _ := fun asked => (.ok asked, asked)
  invoke call := fun asked =>
    (.ok ⟨call.target, none, call.entryPoint, [], [], .ofList [asked],
      [⟨2, none, .external, [], [], .ofList [asked], []⟩]⟩, asked + 1)
  query call := fun asked =>
    if asked = failing then (.error (.client (.unknownHandle asked)), asked)
    else (.ok ⟨call.target, none, call.entryPoint, [5 - asked], [], .ofList [asked], []⟩, asked + 1)
  snapshot := fun asked => (.ok ⟨asked⟩, asked)
  restore _ := fun asked => (.ok (), asked)

def numberedConfig : Config := { sequenceLength := 2, maxIterations := some 1 }

theorem run_covers_numberingClient :
    (∃ report,
      (run (numberingClient 99) numberedConfig threeProperties "f" .empty 0).1.result = .ok report ∧
        report.coveredInstructions = 14 + 2) ∧
      ((run (numberingClient 13) numberedConfig threeProperties "f" .empty 0).1.coverage.covered
        1).toList = [0, 1, 2, 3, 4, 5, 6, 7, 9, 10, 11, 12] ∧
      ∃ frame ∈ (runWatched (numberingClient 13) numberedConfig threeProperties "f" .empty
        0).2.counted, frame.Executes 1 12 := by
  obtain ⟨-, -, -, hreport⟩ :=
    run_covers (numberingClient 99) numberedConfig threeProperties "f" .empty 0
  obtain ⟨-, hcovered, -, -⟩ :=
    run_covers (numberingClient 13) numberedConfig threeProperties "f" .empty 0
  have hfailed : ((run (numberingClient 13) numberedConfig threeProperties "f" .empty
      0).1.coverage.covered 1).toList = [0, 1, 2, 3, 4, 5, 6, 7, 9, 10, 11, 12] := by decide +kernel
  refine ⟨⟨_, rfl, (hreport _ rfl).trans (by decide +kernel)⟩, hfailed, ?_⟩
  have htwelve := (hcovered 1 12).mp (SortedSet.mem_toList.mp (hfailed ▸ by decide))
  exact htwelve.resolve_left List.not_mem_nil

end Campaign

end ContractFuzz
