import ContractFuzz.Proofs.Campaign.Runs

/-!
The trials of shrinking. A cursor goes over a sequence; each trial either shortens the sequence or
moves the cursor on, so that there are as many trials as there were calls.
-/

namespace ContractFuzz.Shrinking

variable {σ : Type}

/-- A sequence that is being shrunk, and the place of the call that is left out next. -/
structure Cursor where
  sequence : List RecordedCall
  place : Nat

namespace Cursor

def start (sequence : List RecordedCall) : Cursor := ⟨sequence, 0⟩

def finish (sequence : List RecordedCall) : Cursor := ⟨sequence, sequence.length⟩

def trial (cursor : Cursor) : List RecordedCall := cursor.sequence.eraseIdx cursor.place

/-- A trial that shows the violations is adopted, and the cursor stays where it is. -/
def after (cursor : Cursor) (shown : Bool) : Cursor :=
  if shown then { cursor with sequence := cursor.trial }
  else { cursor with place := cursor.place + 1 }

/-- How many calls have not been left out yet. -/
def untried (cursor : Cursor) : Nat := cursor.sequence.length - cursor.place

theorem after_sublist (cursor : Cursor) (shown : Bool) :
    (cursor.after shown).sequence.Sublist cursor.sequence := by
  cases shown with
  | true => exact List.eraseIdx_sublist _ _
  | false => exact List.Sublist.refl _

theorem untried_start (sequence : List RecordedCall) :
    (start sequence).untried = sequence.length := rfl

theorem untried_after {cursor : Cursor} (h : cursor.place < cursor.sequence.length)
    (shown : Bool) : (cursor.after shown).untried + 1 = cursor.untried := by
  cases shown with
  | true =>
      change (cursor.sequence.eraseIdx cursor.place).length - cursor.place + 1 = cursor.untried
      rw [List.length_eraseIdx_of_lt h, untried]
      omega
  | false =>
      change cursor.sequence.length - (cursor.place + 1) + 1 = cursor.untried
      rw [untried]
      omega

/-- The cursor at the first of the calls `pending`. -/
def between (kept pending : List RecordedCall) : Cursor := ⟨kept ++ pending, kept.length⟩

theorem untried_between (kept pending : List RecordedCall) :
    (between kept pending).untried = pending.length := by
  simp [between, untried]

theorem trial_between (kept pending : List RecordedCall) (step : RecordedCall) :
    (between kept (step :: pending)).trial = kept ++ pending := by
  simp [between, trial, List.eraseIdx_append_of_length_le]

theorem between_after (kept pending : List RecordedCall) (step : RecordedCall) (shown : Bool) :
    (between kept (step :: pending)).after shown =
      between (if shown then kept else kept ++ [step]) pending := by
  cases shown with
  | true =>
      rw [after, if_pos rfl, trial_between]
      rfl
  | false => simp [after, between]

end Cursor

/-- So many trials, one after another, none of which fails. -/
inductive Tries (client : Client (StateM σ)) (site : Site) (goal : Goal) :
    Nat → Cursor → Coverage → σ → Cursor → Coverage → σ → Prop
  | done {cursor coverage world} :
      Tries client site goal 0 cursor coverage world cursor coverage world
  | tries {count cursor coverage world shown covered next ended after last}
      (within : cursor.place < cursor.sequence.length)
      (tried : reproduces client site goal cursor.trial coverage world =
        ((.ok shown, covered), next))
      (more : Tries client site goal count (cursor.after shown) covered next ended after last) :
      Tries client site goal (count + 1) cursor coverage world ended after last

/-- What trials come to: they end behind the last call, or with a trial that fails. -/
inductive Ends (client : Client (StateM σ)) (site : Site) (goal : Goal) (cursor : Cursor)
    (coverage : Coverage) (world : σ) :
    Except CampaignError (List RecordedCall) → Coverage → σ → Prop
  | finishes {shorter after last}
      (tried : Tries client site goal cursor.untried cursor coverage world (.finish shorter) after
        last) :
      Ends client site goal cursor coverage world (.ok shorter) after last
  | fails {e count reached covered middle after last} (fewer : count < cursor.untried)
      (tried : Tries client site goal count cursor coverage world reached covered middle)
      (failed : reproduces client site goal reached.trial covered middle =
        ((.error e, after), last)) :
      Ends client site goal cursor coverage world (.error e) after last

section Trials

variable {client : Client (StateM σ)} {site : Site} {goal : Goal} {cursor : Cursor}
  {coverage covered after : Coverage} {world next last : σ}

section Preserves

variable (holds : Coverage → σ → Prop)
  (hstep : ∀ trial coverage world result after last, holds coverage world →
    reproduces client site goal trial coverage world = ((result, after), last) → holds after last)

include hstep

theorem Tries.preserves {count : Nat} {ended : Cursor}
    (run : Tries client site goal count cursor coverage world ended after last)
    (h : holds coverage world) : holds after last := by
  induction run with
  | done => exact h
  | tries _ tried _ ih => exact ih (hstep _ _ _ _ _ _ h tried)

theorem Ends.preserves {result : Except CampaignError (List RecordedCall)}
    (ends : Ends client site goal cursor coverage world result after last)
    (h : holds coverage world) : holds after last := by
  cases ends with
  | finishes tried => exact tried.preserves holds hstep h
  | fails _ tried failed => exact hstep _ _ _ _ _ _ (tried.preserves holds hstep h) failed

end Preserves

theorem Tries.sublist {count : Nat} {ended : Cursor}
    (run : Tries client site goal count cursor coverage world ended after last) :
    ended.sequence.Sublist cursor.sequence := by
  induction run with
  | done => exact List.Sublist.refl _
  | tries _ _ _ ih => exact ih.trans (Cursor.after_sublist _ _)

theorem Tries.count_add_untried {count : Nat} {ended : Cursor}
    (run : Tries client site goal count cursor coverage world ended after last) :
    count + ended.untried = cursor.untried := by
  induction run with
  | done => exact Nat.zero_add _
  | tries within _ _ ih =>
      rw [← Cursor.untried_after within, ← ih]
      omega

theorem Ends.of_trial {shown : Bool} {result : Except CampaignError (List RecordedCall)}
    (within : cursor.place < cursor.sequence.length)
    (tried : reproduces client site goal cursor.trial coverage world = ((.ok shown, covered), next))
    (ends : Ends client site goal (cursor.after shown) covered next result after last) :
    Ends client site goal cursor coverage world result after last := by
  have huntried := Cursor.untried_after within shown
  cases ends with
  | finishes more =>
      refine .finishes ?_
      rw [← huntried]
      exact .tries within tried more
  | fails fewer more failed => exact .fails (by omega) (.tries within tried more) failed

/-- Pruning is the loop of the cursor, which is between the calls `kept` and the calls `pending`. -/
theorem prune_ends {kept pending : List RecordedCall}
    {result : Except CampaignError (List RecordedCall)}
    (h : prune client site goal kept pending coverage world = ((result, after), last)) :
    Ends client site goal (.between kept pending) coverage world result after last := by
  induction pending generalizing kept coverage world with
  | nil =>
      cases h
      refine .finishes ?_
      rw [Cursor.untried_between, Cursor.between, List.append_nil]
      exact .done
  | cons step pending ih =>
      have hwithin : (Cursor.between kept (step :: pending)).place <
          (Cursor.between kept (step :: pending)).sequence.length := by
        simp [Cursor.between]
      have htrial := Cursor.trial_between kept pending step
      rcases tried : reproduces client site goal (kept ++ pending) coverage world with
        ⟨⟨e | shown, covered⟩, next⟩
      · simp only [prune, bind_apply, pure_apply, tried] at h
        cases h
        refine .fails ?_ .done (htrial ▸ tried)
        rw [Cursor.untried_between]
        exact Nat.succ_pos _
      · refine .of_trial hwithin (htrial ▸ tried) ?_
        rw [Cursor.between_after]
        cases shown
        all_goals
          simp only [prune, bind_apply, tried] at h
          exact ih h

theorem shrink_ends {sequence : List RecordedCall} {live : Obligations}
    {result : Except CampaignError (List RecordedCall)}
    (h : shrink client site goal sequence coverage world = ((result, live, after), last)) :
    Ends client site goal (.start sequence) coverage world result after last := by
  rcases hprune : prune client site goal [] sequence coverage world with
    ⟨⟨e | pruned, covered⟩, next⟩
  all_goals
    simp only [shrink, bind_apply, pure_apply, hprune] at h
    cases h
    exact prune_ends hprune

theorem shrink_sublist {sequence shorter : List RecordedCall} {live : Obligations}
    (h : shrink client site goal sequence coverage world = ((.ok shorter, live, after), last)) :
    shorter.Sublist sequence := by
  cases shrink_ends h with
  | finishes tried => exact tried.sublist

end Trials

end ContractFuzz.Shrinking
