import MegaPanel.Lib.Chars
import MegaPanel.Lib.Run

set_option autoImplicit false

/-! # The release manager of the host

`scripts/release-manager.sh`: the installed releases of the panel itself, the links `current` and
`previous`, and `state.env`. The commands run one after the other, each under the lock.

A command is a function of the disk and of what the host answers while it runs (`Host`): the
archive, the backup, `docker compose` and the health checks. `die` leaves the whole script wherever
it is called, also in the condition of an `if`; a function that returns 1 leaves its caller in
charge (`Done`).
-/

namespace MegaPanel.ReleaseManager

/-- A Git object ID. -/
abbrev ReleaseId := List Char

/-- `is_release_id` -/
def isReleaseId (release : ReleaseId) : Bool :=
  (release.length = 40 || release.length = 64) &&
    release.all (fun c => ('0' ≤ c && c ≤ '9') || ('a' ≤ c && c ≤ 'f'))

/-- A directory under `releases`. -/
structure ReleaseDir where
  id : ReleaseId
  /-- It has `infra/docker/docker-compose.production.yml`. -/
  composeFile : Bool
  /-- Its `.env` is a link to the shared one. -/
  envLink : Bool
  deriving DecidableEq

/-- `state.env` -/
structure StateFile where
  currentRelease : Option ReleaseId
  lastGoodRelease : Option ReleaseId
  lastDeployAt : Option Nat
  lastRollbackAt : Option Nat
  lastRestartAt : Option Nat
  lastAutoRecoveryEpoch : Option Nat
  deriving DecidableEq

/-- The disk. A link is the directory it resolves to. -/
structure Disk where
  releases : List ReleaseDir
  current : Option ReleaseId
  previous : Option ReleaseId
  state : StateFile
  deriving DecidableEq

/-- `ensure_layout` on an empty host. -/
def freshDisk : Disk := ⟨[], none, none, ⟨none, none, none, none, none, none⟩⟩

/-- `RELEASE_RETENTION` and `AUTO_RECOVERY_COOLDOWN_SECONDS` -/
structure Settings where
  retention : Int
  cooldown : Int

/-- What the host answers while a command runs. -/
structure Host where
  /-- `shared/.env` exists. -/
  sharedEnv : Bool
  /-- The archive is there, has only safe paths, and has all that `install-archive` asks for. -/
  archive : Bool
  /-- `validate_production_env` -/
  validates : Bool
  /-- `bin/backup-production.sh` can be executed. -/
  backupManager : Bool
  backup : Bool
  build : Bool
  /-- `up` of the release that the command turns to, and its health. -/
  start : Bool
  health : Bool
  /-- `up` of the release that the command returns to, and its health. -/
  restoreStart : Bool
  restoreHealth : Bool
  /-- The health of the current release before anything is done about it. -/
  currentHealth : Bool
  restart : Bool
  restartHealth : Bool
  now : Nat
  /-- The release directories, the youngest first. -/
  listing : List ReleaseId

/-- How a function ends: it returns a status, or `die` has left the script. -/
inductive Done
  | returned (ok : Bool)
  | died (error : String)
  deriving DecidableEq

def Done.failed : Done → Bool
  | .returned ok => !ok
  | .died _ => true

def Disk.installed (d : Disk) (release : ReleaseId) : Bool :=
  d.releases.any (fun dir => dir.id = release)

/-! ## docker compose -/

/-- The checks of `compose_for_release`. -/
def composeError (host : Host) (d : Disk) (release : ReleaseId) : Option String :=
  match d.releases.find? (fun dir => dir.id = release) with
  | none => some "release_not_found"
  | some dir =>
    if dir.composeFile = false then some "production_compose_missing"
    else if (dir.envLink && host.sharedEnv) = false then some "release_env_link_missing"
    else none

/-- `compose_for_release`, with the answer of `docker compose`. -/
def composeForRelease (host : Host) (d : Disk) (release : ReleaseId) (answer : Bool) : Done :=
  match composeError host d release with
  | some error => .died error
  | none => .returned answer

/-- `wait_for_health`: the checks run in a subshell, which `die` leaves as an unhealthy release. -/
def waitForHealth (host : Host) (d : Disk) (release : ReleaseId) (answer : Bool) : Bool :=
  (composeError host d release).isNone && answer

/-- `start_release "$release" && wait_for_health "$release"` -/
def startHealthy (host : Host) (d : Disk) (release : ReleaseId) (start health : Bool) : Done :=
  match composeForRelease host d release start with
  | .died error => .died error
  | .returned false => .returned false
  | .returned true => .returned (waitForHealth host d release health)

/-! ## The commands -/

/-- `link_shared_env`, where there is a shared one. -/
def Disk.linkSharedEnv (d : Disk) (release : ReleaseId) : Disk :=
  { d with releases := d.releases.map (fun dir =>
      if dir.id = release then { dir with envLink := true } else dir) }

/-- `install_archive` -/
def installArchive (host : Host) (d : Disk) (release : ReleaseId) : Disk × Done :=
  if isReleaseId release = false then (d, .died "invalid_release_id")
  else if host.archive = false then (d, .died "release_archive_missing")
  else if d.installed release then (d, .died "release_already_installed")
  else
    let d := { d with releases := d.releases ++ [⟨release, true, false⟩] }
    if host.sharedEnv = false then (d, .died "shared_env_missing")
    else (d.linkSharedEnv release, .returned true)

/-- The loop of `cleanup_old_releases` behind `count` releases: what it removes. -/
def removable (retention : Int) (current previous : Option ReleaseId) :
    Int → List ReleaseId → List ReleaseId
  | _, [] => []
  | count, id :: rest =>
    if some id = current ∨ some id = previous then removable retention current previous count rest
    else if retention < count + 1 then
      id :: removable retention current previous (count + 1) rest
    else removable retention current previous (count + 1) rest

/-- `cleanup_old_releases` -/
def cleanupOldReleases (settings : Settings) (host : Host) (d : Disk) : Disk :=
  { d with releases := d.releases.filter (fun dir =>
      dir.id ∉ removable settings.retention d.current d.previous 0 host.listing) }

/-- `activate_release` behind its checks and the build. -/
def switchTo (settings : Settings) (host : Host) (d : Disk) (release : ReleaseId) : Disk × Done :=
  let linked := { d with current := some release }
  match startHealthy host linked release host.start host.health with
  | .died error => (linked, .died error)
  | .returned true =>
    let kept :=
      match d.current with
      | some previous => { linked with previous := some previous }
      | none => linked
    let recorded :=
      { kept with
        state := { kept.state with
          currentRelease := some release
          lastGoodRelease := some release
          lastDeployAt := some host.now } }
    (cleanupOldReleases settings host recorded, .returned true)
  | .returned false =>
    match d.current with
    | none =>
      ({ linked with state := { linked.state with currentRelease := some release } },
        .died "health_failed_no_previous_release")
    | some previous =>
      let restored := { linked with current := some previous }
      match startHealthy host restored previous host.restoreStart host.restoreHealth with
      | .died error => (restored, .died error)
      | .returned true =>
        ({ restored with
          state := { restored.state with
            currentRelease := some previous
            lastRollbackAt := some host.now } }, .returned false)
      | .returned false =>
        ({ restored with state := { restored.state with currentRelease := some previous } },
          .died "health_failed_after_rollback")

/-- `activate_release` -/
def activateRelease (settings : Settings) (host : Host) (d : Disk) (release : ReleaseId) :
    Disk × Done :=
  if isReleaseId release = false then (d, .died "invalid_release_id")
  else if d.installed release = false then (d, .died "release_not_found")
  else if host.validates = false then (d, .died "production_env_validation_failed")
  else if host.sharedEnv = false then (d, .died "shared_env_missing")
  else
    let d := d.linkSharedEnv release
    if d.current.isSome ∧ host.backupManager = false then (d, .died "backup_manager_missing")
    else if d.current.isSome ∧ host.backup = false then (d, .died "predeploy_backup_failed")
    else
      match composeForRelease host d release host.build with
      | .died error => (d, .died error)
      | .returned false => (d, .died "release_build_failed")
      | .returned true => switchTo settings host d release

/-- `rollback_release` -/
def rollbackRelease (host : Host) (d : Disk) : Disk × Done :=
  match d.current, d.previous with
  | some current, some previous =>
    let swapped := { d with current := some previous, previous := some current }
    match startHealthy host swapped previous host.start host.health with
    | .died error => (swapped, .died error)
    | .returned true =>
      ({ swapped with
        state := { swapped.state with
          currentRelease := some previous
          lastRollbackAt := some host.now } }, .returned true)
    | .returned false =>
      let restored := { swapped with current := some current, previous := some previous }
      match composeForRelease host restored current host.restoreStart with
      | .died error => (restored, .died error)
      | .returned _ => (restored, .returned false)
  | _, _ => (d, .returned false)

/-- `restart_current` -/
def restartCurrent (host : Host) (d : Disk) : Disk × Done :=
  match d.current with
  | none => (d, .returned false)
  | some current =>
    match composeForRelease host d current host.restart with
    | .died error => (d, .died error)
    | .returned false => (d, .returned false)
    | .returned true =>
      if waitForHealth host d current host.restartHealth then
        ({ d with state := { d.state with lastRestartAt := some host.now } }, .returned true)
      else (d, .returned false)

/-- The last recovery is not long enough ago. -/
def inCooldown (settings : Settings) (host : Host) (d : Disk) : Bool :=
  d.state.lastAutoRecoveryEpoch.any (fun last => (host.now : Int) - last < settings.cooldown)

/-- `auto_recover` -/
def autoRecover (settings : Settings) (host : Host) (d : Disk) : Disk × Done :=
  match d.current with
  | none => (d, .died "current_release_missing")
  | some current =>
    if waitForHealth host d current host.currentHealth then (d, .returned true)
    else if inCooldown settings host d then (d, .returned false)
    else
      let noted := { d with state := { d.state with lastAutoRecoveryEpoch := some host.now } }
      match restartCurrent host noted with
      | (d, .died error) => (d, .died error)
      | (d, .returned true) => (d, .returned true)
      | (d, .returned false) =>
        match rollbackRelease host d with
        | (d, .died error) => (d, .died error)
        | (d, .returned true) => (d, .returned true)
        | (d, .returned false) => (d, .died "auto_recovery_failed")

inductive Command
  | installArchive (release : ReleaseId)
  | activate (release : ReleaseId)
  | deploy (release : ReleaseId)
  | restart
  | rollback
  | autoRecover
  deriving DecidableEq

/-- `cmd || die error` -/
def orDie (error : String) : Disk × Done → Disk × Done
  | (d, .returned false) => (d, .died error)
  | result => result

/-- `main`, under the lock. -/
def perform (settings : Settings) (host : Host) (d : Disk) : Command → Disk × Done
  | .installArchive release => installArchive host d release
  | .activate release => activateRelease settings host d release
  | .deploy release =>
    match installArchive host d release with
    | (d, .returned true) => activateRelease settings host d release
    | result => result
  | .restart => orDie "restart_health_failed" (restartCurrent host d)
  | .rollback => orDie "rollback_health_failed_or_missing" (rollbackRelease host d)
  | .autoRecover => autoRecover settings host d

/-- One command and what the host answers to it. -/
structure Action where
  command : Command
  host : Host

def step (settings : Settings) (d : Disk) (a : Action) : Option Disk :=
  some (perform settings a.host d a.command).1

end MegaPanel.ReleaseManager
