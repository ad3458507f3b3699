import PageReply.Main
import PageReply.Proofs.Answer.Failure
import PageReply.Proofs.Answer.FollowUp
import PageReply.Proofs.Answer.Hops
import PageReply.Proofs.Answer.Precedence
import PageReply.Proofs.Answer.Reply
import PageReply.Proofs.Answer.Snapshot
import PageReply.Proofs.Answer.Strategy
import PageReply.Proofs.Http.Field
import PageReply.Proofs.Http.History
import PageReply.Proofs.Http.Length
import PageReply.Proofs.Http.Location
import PageReply.Proofs.Http.Lookup
import PageReply.Proofs.Http.Reading
import PageReply.Proofs.Http.Refusals
import PageReply.Proofs.Script.Buffered
import PageReply.Proofs.Script.Echo
import PageReply.Proofs.Script.Form
import PageReply.Proofs.Script.RoundTrip
import PageReply.Proofs.Script.Strategy
import PageReply.Proofs.Store.Account
import PageReply.Proofs.Store.Insertion
import PageReply.Proofs.Store.Pages
import PageReply.Proofs.Store.Separation
import PageReply.Proofs.Store.Sweep
import PageReply.Proofs.Trim
