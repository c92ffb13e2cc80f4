import ContractFuzz.Proofs.Campaign.Atomicity
import ContractFuzz.Proofs.Campaign.Diary
import ContractFuzz.Proofs.Campaign.Requests
import ContractFuzz.Proofs.Campaign.Trials

namespace ContractFuzz

open Sandbox (Request)

variable {σ ρ α β : Type}

/-- Programs for a client that notes its requests, by the requests that they make and what they come
to. -/
def Notes (spec : α → List Request → Prop) (program : StateM (List Request × σ) α) : Prop :=
  ∀ state, ∃ requests, (program state).2.1 = state.1 ++ requests ∧ spec (program state).1 requests

namespace Notes

variable {spec : α → List Request → Prop}

theorem pure {a : α} (h : spec a []) : Notes spec (pure a : StateM (List Request × σ) α) :=
  fun _ => ⟨[], (List.append_nil _).symm, h⟩

theorem bind {first : α → List Request → Prop} {both : β → List Request → Prop}
    {x : StateM (List Request × σ) α} {f : α → StateM (List Request × σ) β} (hx : Notes first x)
    (hf : ∀ a earlier, first a earlier → Notes (fun b later => both b (earlier ++ later)) (f a)) :
    Notes both (x >>= f) := by
  intro state
  obtain ⟨earlier, hearlier, hfirst⟩ := hx state
  obtain ⟨later, hlater, hboth⟩ := hf _ earlier hfirst (x state).2
  refine ⟨earlier ++ later, ?_, hboth⟩
  rw [bind_apply, hlater, hearlier, List.append_assoc]

theorem mono {weaker : α → List Request → Prop} {x : StateM (List Request × σ) α}
    (hx : Notes spec x) (h : ∀ a requests, spec a requests → weaker a requests) :
    Notes weaker x := by
  intro state
  obtain ⟨requests, hrequests, hspec⟩ := hx state
  exact ⟨requests, hrequests, h _ _ hspec⟩

theorem of_eq {x : StateM (List Request × σ) α} (hx : Notes spec x) {a : α}
    {state last : List Request × σ} (hrun : x state = (a, last)) :
    ∃ requests, last.1 = state.1 ++ requests ∧ spec a requests := by
  obtain ⟨requests, hrequests, hspec⟩ := hx state
  rw [hrun] at hrequests hspec
  exact ⟨requests, hrequests, hspec⟩

end Notes

theorem Client.noting_mirrors (client : Client (StateM σ)) :
    client.noting.Mirrors Prod.snd client where
  invoke _ _ := rfl
  query _ _ := rfl
  restore _ _ := rfl

/-- How many of some requests restore a state. -/
def restores (requests : List Request) : Nat :=
  requests.countP (·.kind = .restore)

theorem restores_append (earlier later : List Request) :
    restores (earlier ++ later) = restores earlier + restores later :=
  List.countP_append

/-- Requests that start over from the baseline once, before all others. -/
inductive StartsOver (site : Site) : List Request → Prop
  | startsOver {later} (once : restores later = 0) :
      StartsOver site (.restore site.baseline :: later)

/-- So many rounds of requests, each of which starts over from the baseline. -/
inductive Rounds (site : Site) : Nat → List Request → Prop
  | done : Rounds site 0 []
  | goes {count first later} (starts : StartsOver site first) (more : Rounds site count later) :
      Rounds site (count + 1) (first ++ later)

section Rounds

variable {site : Site} {count more : Nat} {requests later : List Request}

theorem StartsOver.append (h : StartsOver site requests) (hlater : restores later = 0) :
    StartsOver site (requests ++ later) := by
  cases h with
  | startsOver once =>
      refine .startsOver (Eq.trans (restores_append _ later) ?_)
      rw [once, hlater]

theorem StartsOver.restores_eq_one (h : StartsOver site requests) : restores requests = 1 := by
  cases h with
  | @startsOver later once =>
      change List.countP _ (_ :: later) = 1
      rw [List.countP_cons_of_pos rfl]
      exact congrArg (· + 1) once

theorem StartsOver.rounds (h : StartsOver site requests) : Rounds site 1 requests := by
  rw [← List.append_nil requests]
  exact .goes h .done

theorem Rounds.append (h : Rounds site count requests) (hlater : Rounds site more later) :
    Rounds site (count + more) (requests ++ later) := by
  induction h with
  | done =>
      rw [Nat.zero_add]
      exact hlater
  | goes starts _ ih =>
      rw [Nat.succ_add, List.append_assoc]
      exact .goes starts ih

theorem Rounds.restores_eq (h : Rounds site count requests) : restores requests = count := by
  induction h with
  | done => rfl
  | goes starts _ ih => rw [restores_append, starts.restores_eq_one, ih, Nat.add_comm]

end Rounds

/-- Programs that restore nothing. -/
def RestoresNone (program : StateM (List Request × σ) α) : Prop :=
  Notes (fun _ requests => restores requests = 0) program

namespace RestoresNone

theorem pure (a : α) : RestoresNone (pure a : StateM (List Request × σ) α) := Notes.pure rfl

theorem bind {x : StateM (List Request × σ) α} {f : α → StateM (List Request × σ) β}
    (hx : RestoresNone x) (hf : ∀ a, RestoresNone (f a)) : RestoresNone (x >>= f) := by
  refine Notes.bind hx fun a earlier hearlier => (hf a).mono fun _ later hlater => ?_
  rw [restores_append, hearlier, hlater]

end RestoresNone

section Requests

variable (client : Client (StateM σ))

theorem Client.noting_invoke_restoresNone (call : Invocation) :
    RestoresNone (client.noting.invoke call) :=
  fun _ => ⟨[.invoke call], rfl, rfl⟩

theorem Client.noting_query_restoresNone (call : Invocation) :
    RestoresNone (client.noting.query call) :=
  fun _ => ⟨[.query call], rfl, rfl⟩

theorem Oracle.queryProperties_restoresNone (target : InstanceId) (sender : Felt)
    (names : List String) (coverage : Coverage) :
    RestoresNone (queryProperties client.noting target sender names coverage) := by
  induction names generalizing coverage with
  | nil => exact .pure _
  | cons name rest ih =>
      refine .bind (client.noting_query_restoresNone _) ?_
      rintro (⟨r | fault⟩ | frame)
      · exact ih coverage
      · exact .pure _
      · refine .bind (ih _) ?_
        rintro ⟨result, coverage⟩
        dsimp only
        split
        · exact .pure _
        · exact .pure _

theorem Oracle.inspectState_restoresNone (oracle : Oracle) (live : Obligations)
    (coverage : Coverage) :
    RestoresNone (oracle.inspectState client.noting live coverage) := by
  cases oracle with
  | properties target sender =>
      exact queryProperties_restoresNone client target sender live.live coverage
  | exceptions signatures => exact .pure _

theorem Replay.calls_restoresNone (target : InstanceId) (stops : Revert → Bool)
    (sequence : List RecordedCall) :
    RestoresNone (calls client.noting target stops sequence) := by
  induction sequence with
  | nil => exact .pure _
  | cons step rest ih =>
      refine .bind (client.noting_invoke_restoresNone _) ?_
      rintro (⟨r | fault⟩ | frame)
      · dsimp only
        split
        · exact .pure _
        · exact .bind ih fun _ => .pure _
      · exact .pure _
      · exact .bind ih fun _ => .pure _

theorem Client.noting_startsOver (site : Site) :
    Notes (fun _ requests => StartsOver site requests) (client.noting.restore site.baseline) :=
  fun _ => ⟨[.restore site.baseline], rfl, .startsOver rfl⟩

theorem Notes.bind_startsOver {site : Site} {x : StateM (List Request × σ) α}
    {f : α → StateM (List Request × σ) β}
    (hx : Notes (fun _ requests => StartsOver site requests) x) (hf : ∀ a, RestoresNone (f a)) :
    Notes (fun _ requests => StartsOver site requests) (x >>= f) :=
  .bind hx fun a _ hearlier => (hf a).mono fun _ _ hlater => hearlier.append hlater

theorem Replay.run_startsOver (site : Site) (stops : Revert → Bool)
    (sequence : List RecordedCall) :
    Notes (fun _ requests => StartsOver site requests)
      (run client.noting site stops sequence) := by
  refine .bind_startsOver (client.noting_startsOver site) ?_
  rintro (e | ⟨⟩)
  · exact .pure _
  · exact calls_restoresNone client site.target stops sequence

theorem Shrinking.reproduces_startsOver (site : Site) (goal : Goal) (sequence : List RecordedCall)
    (coverage : Coverage) :
    Notes (fun _ requests => StartsOver site requests)
      (reproduces client.noting site goal sequence coverage) := by
  refine .bind_startsOver (Replay.run_startsOver client site goal.isShownBy sequence) ?_
  rintro (e | replay)
  · exact .pure _
  · dsimp only
    split
    · exact .pure _
    · exact .bind (Oracle.inspectState_restoresNone client _ _ _) fun _ => .pure _

namespace Campaign

variable (campaign : Campaign ρ)

theorem makeCalls_restoresNone (count : Nat) (made : List RecordedCall) (progress : Progress ρ) :
    RestoresNone (campaign.makeCalls client.noting count made progress) := by
  induction count generalizing made progress with
  | zero => exact .pure _
  | succ count ih =>
      rw [makeCalls]
      split
      · exact .pure _
      refine .bind (client.noting_invoke_restoresNone _) ?_
      rintro (⟨r | fault⟩ | frame)
      · dsimp only
        split
        · exact .pure _
        · exact ih _ _
      · exact .pure _
      · refine .bind (Oracle.inspectState_restoresNone client _ _ _) ?_
        rintro ⟨e | _ | ⟨violation, others⟩, coverage⟩
        · exact .pure _
        · exact ih _ _
        · exact .pure _

theorem iterate_startsOver (progress : Progress ρ) :
    Notes (fun _ requests => StartsOver campaign.site requests)
      (campaign.iterate client.noting progress) := by
  refine .bind_startsOver (client.noting_startsOver campaign.site) ?_
  rintro (e | ⟨⟩)
  · exact .pure _
  refine .bind (makeCalls_restoresNone client campaign _ _ progress) ?_
  rintro ⟨e | _ | detection, after⟩
  · exact .pure _
  · exact .pure _
  · dsimp only
    split
    · exact .pure _
    · exact .pure _

end Campaign

end Requests

section Shrinking

variable {client : Client (StateM σ)} {state last : List Request × σ}

theorem Shrinking.Tries.rounds {site : Site} {goal : Goal} {count : Nat} {cursor ended : Cursor}
    {coverage after : Coverage}
    (run : Tries client.noting site goal count cursor coverage state ended after last) :
    ∃ requests, last.1 = state.1 ++ requests ∧ Rounds site count requests := by
  induction run with
  | done => exact ⟨[], (List.append_nil _).symm, .done⟩
  | tries _ tried _ ih =>
      obtain ⟨first, hfirst, hstarts⟩ := (reproduces_startsOver client site goal _ _).of_eq tried
      obtain ⟨later, hlater, hmore⟩ := ih
      refine ⟨first ++ later, ?_, .goes hstarts hmore⟩
      rw [hlater, hfirst, List.append_assoc]

theorem Shrinking.shrink_rounds (client : Client (StateM σ)) (site : Site) (goal : Goal)
    (sequence : List RecordedCall) (coverage : Coverage) :
    Notes (fun outcome requests => ∃ count ≤ sequence.length, Rounds site count requests ∧
        ∀ shorter, outcome.1 = .ok shorter → count = sequence.length)
      (shrink client.noting site goal sequence coverage) := by
  intro state
  rcases hshrink : shrink client.noting site goal sequence coverage state with
    ⟨⟨result, live, after⟩, last⟩
  cases shrink_ends hshrink with
  | finishes tried =>
      obtain ⟨requests, hrequests, hrounds⟩ := tried.rounds
      exact ⟨requests, hrequests, sequence.length, Nat.le_refl _, hrounds, fun _ _ => rfl⟩
  | fails fewer tried failed =>
      obtain ⟨requests, hrequests, hrounds⟩ := tried.rounds
      obtain ⟨later, hlater, hstarts⟩ := (reproduces_startsOver client site goal _ _).of_eq failed
      refine ⟨requests ++ later, ?_, _, fewer, hrounds.append hstarts.rounds, nofun⟩
      rw [hlater, hrequests, List.append_assoc]

namespace Campaign

variable {campaign : Campaign ρ}

theorem settle_rounds {detection : Detection} {progress after : Progress ρ}
    {sequence : List RecordedCall}
    (h : campaign.settle client.noting detection progress state = ((.ok sequence, after), last)) :
    ∃ requests, last.1 = state.1 ++ requests ∧
      Rounds campaign.site (if campaign.shrinks then detection.sequence.length else 0)
        requests := by
  rw [settle] at h
  split at h
  · rename_i hshrinks
    rw [if_pos hshrinks]
    rcases hshrink : Shrinking.shrink client.noting campaign.site
      ⟨campaign.oracle, progress.live, detection.violations⟩ detection.sequence progress.coverage
      state with ⟨⟨e | shorter, live, covered⟩, next⟩
    all_goals
      simp only [bind_apply, pure_apply, hshrink] at h
      cases h
    obtain ⟨requests, hrequests, count, -, hrounds, hcount⟩ :=
      (Shrinking.shrink_rounds client _ _ _ _).of_eq hshrink
    rw [hcount _ rfl] at hrounds
    exact ⟨requests, hrequests, hrounds⟩
  · rename_i hshrinks
    rw [if_neg hshrinks]
    cases h
    exact ⟨[], (List.append_nil _).symm, .done⟩

end Campaign

/-- How many trials it takes to shrink what findings have been made from. -/
def Finding.trials (shrinks : Bool) (findings : List Finding) : Nat :=
  if shrinks then (findings.map Finding.foundLength).sum else 0

theorem Finding.trials_concat (shrinks : Bool) (findings : List Finding) (finding : Finding) :
    trials shrinks (findings ++ [finding]) =
      trials shrinks findings + if shrinks then finding.foundLength else 0 := by
  cases shrinks <;> simp [trials]

namespace Campaign

variable {campaign : Campaign ρ}

theorem Steps.rounds {current next : State ρ}
    (run : Steps campaign client.noting current state (.ok ()) next last)
    (h : Rounds campaign.site
      (current.iteration + Finding.trials campaign.shrinks current.findings) state.1) :
    Rounds campaign.site (next.iteration + Finding.trials campaign.shrinks next.findings)
      last.1 := by
  cases run with
  | passes iterated =>
      obtain ⟨requests, hrequests, hstarts⟩ := (iterate_startsOver client campaign _).of_eq iterated
      rw [hrequests, Nat.add_right_comm]
      exact h.append hstarts.rounds
  | @finds detection found middle sequence progress _ iterated settled finding hfinding =>
      obtain ⟨first, hfirst, hstarts⟩ := (iterate_startsOver client campaign _).of_eq iterated
      obtain ⟨later, hlater, htrials⟩ := settle_rounds settled
      have hlength : finding.foundLength = detection.sequence.length := by rw [hfinding]
      have hrounds := (h.append hstarts.rounds).append htrials
      rw [Finding.trials_concat, hlength, hlater, hfirst]
      rwa [Nat.add_right_comm, ← Nat.add_assoc, Nat.add_right_comm _ _ 1]

end Campaign

end Shrinking

namespace Campaign

/-- A campaign restores the baseline for its iterations and for the trials, and for nothing else. -/
theorem run_rounds {client : Client (StateM σ)} {config : Config} {deployment : Deployment}
    {targetName : String} {coverage : Coverage} {world : σ} {report : Report}
    (h : (run client.noting config deployment targetName coverage ([], world)).1.result =
      .ok report) :
    Rounds deployment.site (report.iterations + Finding.trials config.shrink report.findings)
      (run client.noting config deployment targetName coverage ([], world)).2.1 := by
  obtain ⟨campaign, state, log, ended, last, hprepare, hloop, rfl⟩ := run_ends h
  have hrun : (run client.noting config deployment targetName coverage ([], world)).2 = last := by
    simp only [run, runObserved, hprepare, bind_apply, pure_apply, hloop]
  obtain ⟨generator, -, rfl, rfl⟩ := prepare_eq_ok hprepare
  have hstart : Rounds deployment.site (0 + Finding.trials config.shrink []) [] := by
    cases config.shrink <;> exact .done
  rw [hrun]
  exact loop_preserves (fun (state : State Random.Stream) (noted : List Request × σ) =>
      Rounds deployment.site (state.iteration + Finding.trials config.shrink state.findings)
        noted.1)
    (fun _ _ _ h => h) (fun _ _ _ h => h) (fun _ _ _ _ _ h stepped => stepped.rounds h) hstart
    hloop

/-- Whatever the client answers and the oracle looks for, shrinking comes to an end after no more
trials than the sequence has calls, and after just as many if none of them fails. Each of them
starts over from the baseline once. A campaign that reports has started over once for each iteration
and, if it shrinks, once for each call of the sequences that it has found. -/
theorem run_restores (client : Client (StateM σ)) (site : Site) (goal : Goal)
    (sequence : List RecordedCall) (config : Config) (deployment : Deployment)
    (targetName : String) (coverage : Coverage) (world : σ) :
    (∃ result live after last,
      Shrinking.shrink client site goal sequence coverage world = ((result, live, after), last) ∧
      Shrinking.Ends client site goal (.start sequence) coverage world result after last) ∧
    (∀ count ended after last,
      Shrinking.Tries client site goal count (.start sequence) coverage world ended after last →
      count ≤ sequence.length) ∧
    Notes (fun _ requests => StartsOver site requests)
      (Shrinking.reproduces client.noting site goal sequence coverage) ∧
    Notes (fun outcome requests => ∃ count ≤ sequence.length, Rounds site count requests ∧
        ∀ shorter, outcome.1 = .ok shorter → count = sequence.length)
      (Shrinking.shrink client.noting site goal sequence coverage) ∧
    let noted := run client.noting config deployment targetName coverage ([], world)
    run client config deployment targetName coverage world = (noted.1, noted.2.2) ∧
      ∀ report, noted.1.result = .ok report →
        let count := report.iterations + Finding.trials config.shrink report.findings
        Rounds deployment.site count noted.2.1 ∧ restores noted.2.1 = count := by
  refine ⟨⟨_, _, _, _, rfl, Shrinking.shrink_ends rfl⟩, fun count ended after last tries => ?_,
    Shrinking.reproduces_startsOver client site goal sequence coverage,
    Shrinking.shrink_rounds client site goal sequence coverage, ?_⟩
  · have hcount := tries.count_add_untried
    rw [Shrinking.Cursor.untried_start] at hcount
    omega
  · intro noted
    refine ⟨runObserved_mirrors client.noting_mirrors (fun _ => .pure ()) config deployment
      targetName coverage ([], world), fun report hreport => ?_⟩
    have hrounds := run_rounds hreport
    exact ⟨hrounds, hrounds.restores_eq⟩

theorem run_restores_numberingClient :
    (∃ ended after last, Shrinking.Tries (numberingClient 99) threeProperties.site brittleGoal 1
      (.start brittleCalls) .empty 0 ended after last ∧ 1 ≤ brittleCalls.length) ∧
    (let shrunk :=
        Shrinking.shrink (numberingClient 99).noting threeProperties.site brittleGoal brittleCalls
          .empty ([], 0)
     shrunk.1.1 = .ok (brittleCalls.take 1) ∧ Rounds threeProperties.site 3 shrunk.2.1) ∧
    ∃ report,
      (run (numberingClient 99) numberedConfig threeProperties "f" .empty 0).1.result =
        .ok report ∧
      report.iterations = 1 ∧ report.findings.map Finding.foundLength = [2] ∧
      restores (run (numberingClient 99).noting numberedConfig threeProperties "f" .empty
        ([], 0)).2.1 = 1 + 2 := by
  obtain ⟨-, hbound, -, hshrink, -, hreport⟩ := run_restores (numberingClient 99)
    threeProperties.site brittleGoal brittleCalls numberedConfig threeProperties "f" .empty 0
  have htrial : Shrinking.Tries (numberingClient 99) threeProperties.site brittleGoal 1
      (.start brittleCalls) .empty 0 _ _ _ := .tries (by decide) rfl .done
  obtain ⟨requests, hrequests, count, -, hrounds, hcount⟩ := hshrink ([], 0)
  refine ⟨⟨_, _, _, htrial, hbound _ _ _ _ htrial⟩, ⟨rfl, ?_⟩,
    _, rfl, rfl, rfl, (hreport _ rfl).2⟩
  rw [hcount _ rfl] at hrounds
  rw [hrequests]
  exact hrounds

end Campaign

end ContractFuzz
