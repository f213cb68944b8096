import Proposal.Main
import Proposal.Proofs.Admission
import Proposal.Proofs.RoundTrip
import Proposal.Proofs.Funds
import Proposal.Proofs.Vesting.RoundTrip
import Proposal.Proofs.Requirement
import Proposal.Proofs.Dispatch
import Proposal.Proofs.Resolution
import Proposal.Proofs.Reencoding
import Proposal.Proofs.Draft
import Proposal.Proofs.Submission
import Proposal.Proofs.Draft.Invariant
import Proposal.Proofs.Independence
import Proposal.Proofs.Draft.Retry
import Proposal.Proofs.Delivery
import Proposal.Proofs.Decoding.Failure
import Proposal.Proofs.Resolution.Order
import Proposal.Proofs.Registration
import Proposal.Proofs.Draft.Kind
import Proposal.Proofs.Encoding.Leniency
import Proposal.Proofs.Spending
import Proposal.Proofs.Amount.Agreement
import Proposal.Proofs.Vesting.Preview
import Proposal.Proofs.Vesting.Reencoding
import Proposal.Proofs.Vesting.Exactness
import Proposal.Proofs.Amount.Inverse
import Proposal.Proofs.Vesting.Accrual
import Proposal.Proofs.Vesting.Validity
import Proposal.Proofs.Config
import Proposal.Proofs.Resolution.Native
import Proposal.Proofs.Json.Value
import Proposal.Proofs.Vesting.Description
