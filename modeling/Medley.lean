import Medley.Proofs.Render.Safety
import Medley.Proofs.Template.Diagnostics
import Medley.Proofs.Template.RoundTrip
import Medley.Trial
import Medley.Proofs.Engine.Loading
import Medley.Proofs.Render.Lockstep
import Medley.Proofs.Render.Alike
import Medley.Proofs.Session.Uncached
import Medley.Proofs.Template.Places
import Medley.Proofs.Render.Content
import Medley.Proofs.Session.Dependencies
import Medley.Proofs.Session.Debugging
import Medley.Proofs.Template.Notices
import Medley.Proofs.Template.Comments
import Medley.Proofs.Session.Verbatim
import Medley.Proofs.Session.Wrappers
import Medley.Proofs.Render.Notes
import Medley.Proofs.Session.Staleness
import Medley.Proofs.Template.Overlong
import Medley.Proofs.Engine.Refusals
import Medley.Proofs.Render.Faults
import Medley.Proofs.Session.FailedLoads
import Medley.Proofs.Session.Confinement
import Medley.Proofs.Template.Unread
import Medley.Proofs.Session.FirstNames
import Medley.Proofs.Template.Openings
import Medley.Proofs.Template.Unclosed
import Medley.Proofs.Session.Chains
import Medley.Proofs.Session.Surroundings
import Medley.Proofs.Session.Locales
import Medley.Proofs.Session.Layouts
import Medley.Proofs.Session.Nesting
import Medley.Proofs.Render.Escaping
import Medley.Proofs.Engine.Translations
import Medley.Proofs.Render.Families
import Medley.Proofs.Template.Snippets
import Medley.Proofs.Template.Fences
import Medley.Proofs.Render.Loops
import Medley.Proofs.Template.ThirdBrace
import Medley.Proofs.Render.Reports
import Medley.Proofs.Session.Trials
import Medley.Proofs.Template.Slots
import Medley.Proofs.Session.Bursts
import Medley.Proofs.Helper.Amounts
import Medley.Proofs.Encoding.Utf8
import Medley.Proofs.Text.Percent
import Medley.Proofs.Value.Sums
import Medley.Proofs.Files.Listing
import Medley.Proofs.Template.NormalForm
import Medley.Proofs.Template.Quotes
import Medley.Proofs.Template.Descent
import Medley.Proofs.Helper.Slugs
