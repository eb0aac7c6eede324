import Routing.Main
import Routing.Script
import Routing.Proofs.Matcher.Bindings
import Routing.Proofs.Server.Versions
import Routing.Proofs.Store.Canonical
import Routing.Proofs.Server.Failures
import Routing.Proofs.Demo.Simulation
import Routing.Proofs.Config.RoundTrip
import Routing.Proofs.Store.Prefixed
import Routing.Proofs.Server.Suffix
import Routing.Proofs.Matcher.Shadowing
import Routing.Proofs.Matcher.Reordering
import Routing.Proofs.Server.Accounting
import Routing.Proofs.Http.Response
import Routing.Proofs.Introspection.Reading
import Routing.Proofs.Store.Precedence
import Routing.Proofs.Store.Reached
import Routing.Proofs.Matcher.Appending
import Routing.Proofs.Server.Refusals
import Routing.Proofs.Matcher.Labels
import Routing.Proofs.Properties.Algebra
import Routing.Proofs.Server.Parts
import Routing.Proofs.Demo.Resources
import Routing.Proofs.Matcher.Numerals
import Routing.Proofs.Config.Explained
