import MegaPanel.Provenance.Requests
import MegaPanel.Release.Files

set_option autoImplicit false

/-! # Publications of one site, statement by statement

`publish_project_build` and `rollback_project_build` as they run beside each other. A request reads
the site row and selects a build. After the gates it switches the links of the site's directory,
asks Caddy, and if Caddy refuses it switches them back. If Caddy agrees it writes the row of the
site and the rows of the pages (`MegaPanel.Provenance`), and commits. No lock is held before the
row of the site is flushed, and none covers the directory.

The directory is in symlink mode, and no release is built or swept meanwhile. An activation and a
compensation are one step each. A request that a gate blocks ends before its activation.
-/

namespace MegaPanel.Publishing

open MegaPanel.Lib MegaPanel.Candidate
open MegaPanel.Provenance (Db Publication SiteRow publicationOf rollbackMatches)
open MegaPanel.Release (Hash Root)

abbrev RequestId := Nat

/-! ## The state -/

/-- A request between two of its statements, with the hash of its build. -/
inductive Session
  /-- The gates have been passed. -/
  | selected (hash : Hash) (p : Publication)
  /-- The links have been switched, and Caddy is asked. -/
  | activated (hash : Hash) (p : Publication)
  /-- Caddy agrees. -/
  | agreed (hash : Hash) (p : Publication)
  /-- The row of the site has been flushed, and the rows of the pages have been read. -/
  | projecting (hash : Hash) (p : Publication) (read : List (String × SitePage))

/-- The request has not switched the links yet. -/
def Session.isSelected : Session → Bool
  | .selected _ _ => true
  | _ => false

structure World where
  db : Db
  root : Root
  requests : Table RequestId Session
  /-- The request that has flushed the row of the site. -/
  siteLock : Option RequestId

/-! ## Statements -/

inductive Action
  | publish (rid : RequestId) (id : BuildId) (now : Time)
  | rollback (rid : RequestId) (buildHash : Hash)
  /-- A gate blocks the request. -/
  | refuse (rid : RequestId)
  | activate (rid : RequestId)
  /-- The answer of Caddy, with the compensation if it refuses. -/
  | caddy (rid : RequestId) (ok : Bool)
  | project (rid : RequestId)
  | commit (rid : RequestId)

def World.setSession (w : World) (rid : RequestId) (s : Session) : World :=
  { w with requests := w.requests.set rid s }

def World.endSession (w : World) (rid : RequestId) : World := { w with
  requests := w.requests.erase rid
  siteLock := if w.siteLock = some rid then none else w.siteLock }

/-- A request begins with the build that it has selected. -/
def World.begin (w : World) (rid : RequestId) (id : BuildId) (build : Provenance.Build)
    (hash : Hash) (firstPublishedAt : Option Time) : Option World :=
  if w.requests.get rid = none then
    (publicationOf w.db id build hash firstPublishedAt).toOption.map (fun p =>
      w.setSession rid (.selected hash p))
  else none

def step (w : World) : Action → Option World
  | .publish rid id now =>
    (w.db.builds.get id).bind (fun build =>
      match decide (build.status = .ready), build.buildHash with
      | true, some hash => w.begin rid id build hash (some (build.firstPublishedAt.getD now))
      | _, _ => none)
  | .rollback rid hash =>
    if w.db.site.buildHash = some hash then none
    else
      match rollbackMatches w.db hash with
      | [(id, build)] => w.begin rid id build hash build.firstPublishedAt
      | _ => none
  | .refuse rid =>
    match w.requests.get rid with
    | some (.selected _ _) => some (w.endSession rid)
    | _ => none
  | .activate rid =>
    match w.requests.get rid with
    | some (.selected hash p) =>
      let activation := Release.activate true w.root hash
      let w := { w with root := activation.1 }
      some (if activation.2 then w.setSession rid (.activated hash p) else w.endSession rid)
    | _ => none
  | .caddy rid ok =>
    match w.requests.get rid with
    | some (.activated hash p) =>
      if ok then some (w.setSession rid (.agreed hash p))
      else
        let restored := Release.restoreActivation true w.root hash p.loaded.buildHash
        some (World.endSession { w with root := restored.1 } rid)
    | _ => none
  | .project rid =>
    match w.requests.get rid with
    | some (.agreed hash p) =>
      let w' := w.setSession rid (.projecting hash p w.db.pages.rows)
      -- A row that is as it was loaded is not flushed.
      if p.current = p.loaded then some w'
      else
        match w.siteLock with
        | some _ => none
        | none => some { w' with siteLock := some rid }
    | _ => none
  | .commit rid =>
    match w.requests.get rid with
    | some (.projecting _ p read) =>
      -- A page that another request has inserted violates the unique constraint.
      match w.db.publish p read with
      | some db => some (World.endSession { w with db := db } rid)
      | none => some (w.endSession rid)
    | _ => none

/-! ## What the requests answer -/

/-- The hash that a commit answers success for. -/
def successOf (w : World) : Action → Option Hash
  | .commit rid =>
    match w.requests.get rid with
    | some (.projecting hash p read) => (w.db.publish p read).map (fun _ => hash)
    | _ => none
  | _ => none

/-- The history variable: the hashes of the successful answers, in order. -/
def note (w : World) (a : Action) (successes : List Hash) : List Hash :=
  successes ++ (successOf w a).toList

end MegaPanel.Publishing
