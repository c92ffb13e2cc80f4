import ContractFuzz.Artifact.Basic
import ContractFuzz.Execution.Frame

namespace ContractFuzz

abbrev ClassTable := SortedMap ClassHash Artifact

end ContractFuzz
