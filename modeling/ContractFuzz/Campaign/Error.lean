import ContractFuzz.Calldata.Generator
import ContractFuzz.Execution.Client

namespace ContractFuzz

inductive CampaignCause where
  | emptySequences
  | generation (e : Calldata.GenerationError)
  | execution (e : ExecutionError)
  /-- An unlimited campaign has run out of iteration numbers. -/
  | iterationsExhausted
  deriving DecidableEq, Repr

inductive CampaignActivity where
  | restoringBaseline
  | invoking (function : String)
  | replaying (function : String)
  | querying (property : String)
  | iterating (iteration : Nat)
  | shrinking
  deriving DecidableEq, Repr

/-- A cause, and the activities it came up in, the outermost first. -/
structure CampaignError where
  activities : List CampaignActivity
  cause : CampaignCause
  deriving DecidableEq, Repr

def CampaignCause.message : CampaignCause → String
  | .emptySequences => "sequence length must be at least 1"
  | .generation e => e.message
  | .execution e => e.message
  | .iterationsExhausted => "iteration numbers exhausted"

def CampaignActivity.message : CampaignActivity → String
  | .restoringBaseline => "restoring baseline state"
  | .invoking function => s!"invoking {function}"
  | .replaying function => s!"replaying {function}"
  | .querying property => s!"querying property {property}"
  | .iterating iteration => s!"fuzz iteration {iteration}"
  | .shrinking => "shrinking violating sequence"

namespace CampaignError

def message (e : CampaignError) : String :=
  ": ".intercalate (e.activities.map CampaignActivity.message ++ [e.cause.message])

/-- The error as it is seen from an activity around it. -/
def during (activity : CampaignActivity) (e : CampaignError) : CampaignError :=
  { e with activities := activity :: e.activities }

def ofGeneration (e : Calldata.GenerationError) : CampaignError := ⟨[], .generation e⟩

/-- A failure of the executing side in an activity. -/
def ofExecution (activity : CampaignActivity) (e : ExecutionError) : CampaignError :=
  ⟨[activity], .execution e⟩

end CampaignError

end ContractFuzz
