import PullGate.Client.Call
import PullGate.Json.Form
import PullGate.Main
import PullGate.Service
import PullGate.Wire.Forms
import PullGate.Proofs.Delivery
import PullGate.Proofs.Notices
import PullGate.Proofs.Aim
import PullGate.Proofs.Attempt
import PullGate.Proofs.Pursuit
import PullGate.Proofs.Redelivery
import PullGate.Proofs.Duplicate
import PullGate.Proofs.Interruption
import PullGate.Proofs.Requirements
import PullGate.Proofs.Interleaving
import PullGate.Proofs.OpenCap
import PullGate.Proofs.Failures
import PullGate.Proofs.ReadsFirst
import PullGate.Proofs.Sparing
import PullGate.Proofs.Admission
import PullGate.Proofs.Webhook.Overlooked
import PullGate.Proofs.Webhook.Report
import PullGate.Proofs.Noninterference
import PullGate.Proofs.Listing
import PullGate.Proofs.Summary
import PullGate.Proofs.Compliance.Aliases
import PullGate.Proofs.Wire.Documents
import PullGate.Proofs.Compliance.Leniency
import PullGate.Proofs.CompanionTests
import PullGate.Proofs.Client.Paging
import PullGate.Proofs.Compliance.Once
import PullGate.Proofs.Signing
import PullGate.Proofs.Client.Contents
import PullGate.Proofs.Client.Refusal
import PullGate.Proofs.OtherSecrets
import PullGate.Proofs.Privilege
import PullGate.Proofs.Gate.Checklist
import PullGate.Proofs.Compliance.Extensionless
import PullGate.Proofs.Webhook.Scope
