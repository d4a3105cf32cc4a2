import PolicyAttachment.Main
import PolicyAttachment.Proofs.Register.Resume
import PolicyAttachment.Proofs.Register.Search
import PolicyAttachment.Proofs.Session.Conditions
import PolicyAttachment.Proofs.Session.Marks
import PolicyAttachment.Proofs.Session.Pair
import PolicyAttachment.Proofs.Session.Unique
import PolicyAttachment.Proofs.Register.Call
import PolicyAttachment.Proofs.Register.Reload
import PolicyAttachment.Proofs.Register.Since
import PolicyAttachment.Proofs.Session.Log
import PolicyAttachment.Proofs.Tracker.Channel
import PolicyAttachment.Proofs.Tracker.Flags
import PolicyAttachment.Proofs.Session.Flagged
import PolicyAttachment.Proofs.Session.Sent
import PolicyAttachment.Proofs.Tracker.View
import PolicyAttachment.Proofs.Session.Fed
import PolicyAttachment.Proofs.Wire.Calendar
import PolicyAttachment.Proofs.Wire.TimeText
import PolicyAttachment.Proofs.Wire.StatusJson
import PolicyAttachment.Proofs.Wire.PolicyStatus
import PolicyAttachment.Proofs.Register.Echo
import PolicyAttachment.Proofs.Register.Threads
import PolicyAttachment.Proofs.Register.Places
import PolicyAttachment.Proofs.Tracker.Quiet
import PolicyAttachment.Proofs.Session.Echo
import PolicyAttachment.Proofs.Wire.Objects
import PolicyAttachment.Proofs.Wire.HealthChecks
import PolicyAttachment.Proofs.Wire.Forms
import PolicyAttachment.Proofs.Wire.Specs
import PolicyAttachment.Proofs.Wire.Members
import PolicyAttachment.Proofs.Tracker.Contest
import PolicyAttachment.Proofs.Session.Invalid
import PolicyAttachment.Proofs.Session.Spelling
import PolicyAttachment.Proofs.Writer.Address
import PolicyAttachment.Proofs.Writer.Delivery
import PolicyAttachment.Proofs.Session.Fleet
import PolicyAttachment.Proofs.Session.AnyOrder
import PolicyAttachment.Proofs.Policy.Targets
import PolicyAttachment.Proofs.Tracker.Ancestry
import PolicyAttachment.Proofs.Tracker.Precedence
import PolicyAttachment.Proofs.Register.Merge
import PolicyAttachment.Proofs.Register.Repeat
import PolicyAttachment.Proofs.Condition.Reading
import PolicyAttachment.Proofs.Condition.Steps
import PolicyAttachment.Proofs.Condition.Extras
import PolicyAttachment.Proofs.Session.Gateways
import PolicyAttachment.Proofs.ControllerName
import PolicyAttachment.Proofs.Spec.HealthCheck.Documented
