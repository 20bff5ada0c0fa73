import FilecoinHarness.GoStrings
import FilecoinHarness.Output
import FilecoinHarness.Config
import FilecoinHarness.Pipe
import FilecoinHarness.Runs
import FilecoinHarness.RunWithStdin
import FilecoinHarness.ChainHead
import FilecoinHarness.Lifetime
import FilecoinHarness.CreateMinerAddr
