import DocLint.CommandLine.Outcome
import DocLint.FileSystem.Edit
import DocLint.Main
import DocLint.Proofs.CommandLine.AllChecks
import DocLint.Proofs.CommandLine.Options
import DocLint.Proofs.Config.Kept
import DocLint.Proofs.Discovery.Filtered
import DocLint.Proofs.Discovery.Followed
import DocLint.Proofs.Discovery.Opened
import DocLint.Proofs.Discovery.Unfollowed
import DocLint.Proofs.Emoji.Listing
import DocLint.Proofs.Fence.Append
import DocLint.Proofs.Fence.Blocks
import DocLint.Proofs.Fence.Cuts
import DocLint.Proofs.Link.CandidateList
import DocLint.Proofs.Link.External
import DocLint.Proofs.Link.Fragment
import DocLint.Proofs.Link.Growth
import DocLint.Proofs.Link.Layout
import DocLint.Proofs.Link.Spelling
import DocLint.Proofs.Naming.Selected
import DocLint.Proofs.Report.Bounded
import DocLint.Proofs.Report.Frame
import DocLint.Proofs.Report.Keys
import DocLint.Proofs.Report.LineEnds
import DocLint.Proofs.Report.LineNumbers
import DocLint.Proofs.Report.Relocated
import DocLint.Proofs.Report.Rows
import DocLint.Proofs.Report.SingleLine
import DocLint.Proofs.Report.WalkOrder
