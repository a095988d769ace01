import MeetDesk.Assembly
import MeetDesk.Http.App
import MeetDesk.Http.Document
import MeetDesk.Progress
import MeetDesk.Proofs.Archive.Recency
import MeetDesk.Proofs.Desk.Alike
import MeetDesk.Proofs.Desk.Calls
import MeetDesk.Proofs.Desk.Containment
import MeetDesk.Proofs.Desk.History
import MeetDesk.Proofs.Desk.Replay
import MeetDesk.Proofs.Desk.Shape
import MeetDesk.Proofs.Desk.Verdict
import MeetDesk.Proofs.Http.Agreement
import MeetDesk.Proofs.Query.Decoding
import MeetDesk.Proofs.Tool.Search
import MeetDesk.Query.Loose
import MeetDesk.Proofs.Query.Placeholders
import MeetDesk.Proofs.Desk.Decision
import MeetDesk.Proofs.Desk.Failure
import MeetDesk.Proofs.Query.Strictness
import MeetDesk.Proofs.Tool.Soundness
import MeetDesk.Proofs.Form.Dumps
import MeetDesk.Proofs.Prompt.Rows
import MeetDesk.Proofs.Progress.Steps
import MeetDesk.Proofs.Warehouse.Connections
import MeetDesk.Proofs.Http.Disclosure
import MeetDesk.Proofs.Desk.Thread
import MeetDesk.Proofs.Query.Range
import MeetDesk.Proofs.Query.Table
import MeetDesk.Proofs.Tool.Sweep
import MeetDesk.Proofs.Query.Spelling
import MeetDesk.Proofs.Inquiry.Latest
