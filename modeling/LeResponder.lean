import LeResponder.Path
import LeResponder.Store
import LeResponder.Daemon
import LeResponder.Cycle
import LeResponder.Acme
import LeResponder.Publish
import LeResponder.Issue
import LeResponder.Scan
import LeResponder.Admin
import LeResponder.System
import LeResponder.Invariants
import LeResponder.Publication
import LeResponder.Races
import LeResponder.Pem
import LeResponder.Output
import LeResponder.Acm
import LeResponder.AcmCache
import LeResponder.AdminUi
import LeResponder.Observers
