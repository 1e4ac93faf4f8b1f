import ZkQuorum.Lib.Bytes
import ZkQuorum.Lib.Rust
import ZkQuorum.Lib.Records
import ZkQuorum.Guest.Tx
import ZkQuorum.Lib.Tally
import ZkQuorum.Lib.Search
import ZkQuorum.Guest.Computors
import ZkQuorum.Guest.Main
import ZkQuorum.Guest.Commits
import ZkQuorum.Guest.Steps
import ZkQuorum.Guest.Outcome
import ZkQuorum.GenFixture.BuildTx
import ZkQuorum.GenFixture.Series
import ZkQuorum.Host.Fixture
import ZkQuorum.Host.Run
import ZkQuorum.Guest.Soundness
import ZkQuorum.Host.Completeness
import ZkQuorum.Host.Format
import ZkQuorum.Contract.Verifier
import ZkQuorum.Contract.Journal
import ZkQuorum.Contract.Runs
import ZkQuorum.Identity.Codec
import ZkQuorum.Identity.RoundTrip
import ZkQuorum.CheckFixture.Checks
import ZkQuorum.CheckFixture.Commits
import ZkQuorum.CheckFixture.Agreement
import ZkQuorum.CheckFixture.Verdict
import ZkQuorum.Crypto.Absorb
import ZkQuorum.Crypto.KangarooTwelve
import ZkQuorum.Identity.K12
import ZkQuorum.Crypto.Builds
import ZkQuorum.Crypto.Canonical
import ZkQuorum.Crypto.Pointers
import ZkQuorum.Crypto.Stock
import ZkQuorum.GenFixture.Args
import ZkQuorum.GenFixture.Commits
import ZkQuorum.GenFixture.Report
import ZkQuorum.Guest.Bigint2
import ZkQuorum.Crypto.Decompose
import ZkQuorum.Crypto.Endomorphisms
import ZkQuorum.CheckFixture.Lookup
import ZkQuorum.Guest.Walk
import ZkQuorum.Guest.Reply
import ZkQuorum.GenFixture.Codec
import ZkQuorum.GenFixture.Negative
import ZkQuorum.Crypto.Splitting
import ZkQuorum.Guest.Inversion
import ZkQuorum.Crypto.Acceptance
import ZkQuorum.Protocol.Attestation
import ZkQuorum.GenFixture.SelfChecks
import ZkQuorum.Crypto.Schnorr
import ZkQuorum.GenFixture.Port
import ZkQuorum.Protocol.Pipeline
import ZkQuorum.Identity.Reference
import ZkQuorum.Identity.Config
import ZkQuorum.Vectors.Run
