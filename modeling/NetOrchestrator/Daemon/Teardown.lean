import NetOrchestrator.Daemon.Validate

/-!
# `Daemon.Teardown`: taking an owner down

Four routines, chosen by the owner: WireGuard, OpenVPN, Xray, and the generic one for
client owners, conditional rules, intents and manual edits. Each removes what the entry
lists, newest first, and goes on past what it cannot remove; what is left stays in the
entry, which becomes `stale`.
-/

namespace NetOrchestrator.Daemon

open Net Lib

/-- Whether the object of a removal is gone: `NotFound` says so too. -/
def goneAfter (removal : Prog Unit) : Prog Bool := do
  match ← Call.attempt removal with
  | .ok () => pure true
  | .error e => pure (isNotFound e)

/-- `entry.state = Stale`. -/
def markStale (index : Nat) : Prog Unit := updateEntry index (·.setState .stale)

/-- The end of every sweep: drop the entry, or keep in it what was left. -/
def settle (index : Nat) (failed : List OwnedResource) (message : String) : Prog Unit := do
  if failed.isEmpty then removeEntry index
  else do
    updateEntry index fun entry =>
      (entry.setState .stale).setResources failed.reverse
    Call.throw ⟨.other, .text message⟩

/-! ### Generic owners -/

/-- A suppressed foreign object is put back instead of deleted. -/
def releaseGeneric : OwnedResource → Prog Unit
  | .route route => Call.tolerate isNotFound (removeRoute route)
  | .netRoute route => Call.tolerate isNotFound (removeSystemRoute route)
  | .netRule rule => Call.tolerate isNotFound (removeSystemRule rule)
  | .suppressedRoute route => Call.tolerate isAlreadyExists (addSystemRoute .foreign route)
  | .suppressedRule rule => Call.tolerate isAlreadyExists (addSystemRule .foreign rule)
  | _ => pure ()

def releasedGeneric (_ : List OwnedResource) (resource : OwnedResource) : Prog Bool := do
  match ← Call.attempt (releaseGeneric resource) with
  | .ok () => pure true
  | .error _ => pure false

def teardownGenericEntry (index : Nat) : Prog Unit := do
  let entry ← entryAt index
  let failed ← Call.sweep releasedGeneric [] entry.resources.reverse
  settle index failed "owner teardown left resources behind"

/-! ### WireGuard -/

/-- One resource of a WireGuard entry. The link stays while anything else does. -/
def releasedWireguard (owned : Bool) (failed : List OwnedResource) : OwnedResource → Prog Bool
  | .route route => if owned then goneAfter (removeRoute route) else pure true
  | .address address =>
    if owned then goneAfter (removeAddress address.interfaceIndex address.address)
    else pure true
  | .wireGuardLink link =>
    if failed.isEmpty then if owned then goneAfter (deleteLink link) else pure true
    else pure false
  | .rule rule => do
      if ← Call.gets fun core => core.executors.policy then goneAfter (removeRule rule)
      else Call.throw policyUnavailable
  | .dns dns => do
      if owned then
        if ← Call.gets fun core => core.executors.dns then goneAfter (dnsRevert dns.name)
        else pure false
      else pure true
  | .attachSpec _ => pure true
  | _ => pure false

/-- A lookup that fails leaves the entry stale. -/
def staleOnError {α : Type} (index : Nat) (m : Prog α) : Prog α := do
  match ← Call.attempt m with
  | .ok a => pure a
  | .error e => do
      markStale index
      Call.throw e

/-- Whether the entry's link is in the kernel and the daemon's. A link of that name that
is somebody else's stops the teardown. -/
def verifiedWireguardLink (index : Nat) (link : WireGuardLinkResource) : Prog Bool := do
  let owned ← staleOnError index (linkOwned link)
  if owned then pure true
  else do
    let present ← staleOnError index (linkPresent link)
    if present then do
      markStale index
      Call.throw ⟨.other, .text "WireGuard link identity is unverified"⟩
    else pure false

def teardownWireguardEntry (index : Nat) : Prog Unit := do
  let entry ← entryAt index
  match findWireGuardLink entry.resources with
  | none => Call.throw ⟨.invalidData, .text "WireGuard owner has no link"⟩
  | some link => do
      if ← Call.gets fun core => core.executors.wg then do
        let owned ← verifiedWireguardLink index link
        let failed ← Call.sweep (releasedWireguard owned) [] entry.resources.reverse
        settle index failed "WireGuard cleanup left owned resources"
      else do
        markStale index
        Call.throw ⟨.notConnected, .text "WireGuard executor is unavailable"⟩

/-! ### Xray -/

/-- Stop the child, if it is still tracked, and clean up its staging directory. -/
def stopXrayProcess (uid : Nat) (name : String) : Prog Unit := do
  Call.tolerate isNotFound (xrayStop name)
  xrayCleanup uid name

/-- One resource of an Xray entry. The process marker stays while anything else does. -/
def releasedXray (uid : Nat) (process : XrayProcessResource) (linkUp quicFailed : Bool)
    (failed : List OwnedResource) : OwnedResource → Prog Bool
  | .dns dns => do
      if linkUp then
        if ← Call.gets fun core => core.executors.dns then goneAfter (dnsRevert dns.name)
        else pure false
      else pure true
  | .rule rule => do
      if ← Call.gets fun core => core.executors.policy then goneAfter (removeRule rule)
      else Call.throw policyUnavailable
  | .route route => goneAfter (removeRoute route)
  | .address address => do
      if linkUp then
        if ← Call.gets fun core => core.executors.wg then
          goneAfter (removeAddress address.interfaceIndex address.address)
        else Call.throw ⟨.notConnected, .text "TUN executor is unavailable"⟩
      else pure true
  | .xrayProcess _ => do
      let gone ← goneAfter (stopXrayProcess uid process.name)
      pure (gone && failed.isEmpty && !quicFailed)
  | _ => pure false

/-- Lift the QUIC reject of a process that has one. -/
def quicLifted (uid : Nat) (process : XrayProcessResource) : Prog Bool := do
  if process.rejectQuic then
    if ← Call.gets fun core => core.executors.quicReject then
      match ← Call.attempt (quicRemove uid process.name) with
      | .ok () => pure true
      | .error _ => pure false
    else pure false
  else pure true

def teardownXrayEntry (index : Nat) : Prog Unit := do
  let entry ← entryAt index
  match findXrayProcess entry.resources with
  | none => Call.throw ⟨.invalidData, .text "Xray owner has no process marker"⟩
  | some process => do
      let lifted ← quicLifted entry.uid process
      if ← Call.gets fun core => core.executors.xray then do
        let currentIndex ← runnerLinkIndex process.name
        if currentIndex.any fun current => process.index == 0 || current != process.index then do
          markStale index
          Call.throw ⟨.other, .text "Xray TUN link identity is unverified"⟩
        else do
          let failed ← Call.sweep
            (releasedXray entry.uid process currentIndex.isSome (!lifted)) []
            entry.resources.reverse
          settle index failed "Xray cleanup left owned resources"
      else do
        markStale index
        Call.throw ⟨.notConnected, .text "Xray executor is unavailable"⟩

/-! ### OpenVPN -/

/-- Take back the DNS setting of a session. Without the link there is nothing to revert. -/
def revertOpenvpnDns (linkPresent : Bool) (dns : WireGuardDnsResource) : Prog Unit := do
  if ← Call.gets fun core => core.executors.dns then
    match ← Call.attempt (dnsRevert dns.name) with
    | .ok () => pure ()
    | .error _ =>
      if linkPresent then Call.throw ⟨.other, .text "OpenVPN DNS cleanup failed"⟩ else pure ()
  else if linkPresent then Call.throw ⟨.other, .text "OpenVPN DNS executor is unavailable"⟩
  else pure ()

/-- The removal of one resource. A missing policy executor ends the whole routine. -/
def clearOpenvpnResult (linkPresent : Bool) : OwnedResource → Prog (Except IoError Unit)
  | .dns dns =>
    if dns.applied then Call.attempt (revertOpenvpnDns linkPresent dns) else pure (.ok ())
  | .rule rule => do
      if ← Call.gets fun core => core.executors.policy then Call.attempt (removeRule rule)
      else Call.throw ⟨.other, .text "OpenVPN policy executor is unavailable"⟩
  | .route route => Call.attempt (removeRoute route)
  | _ => pure (.ok ())

def clearOpenvpnResource (index : Nat) (linkPresent : Bool) (resource : OwnedResource) :
    Prog Unit := do
  match ← clearOpenvpnResult linkPresent resource with
  | .ok () => pure ()
  | .error e =>
    if isNotFound e then pure ()
    else do
      markStale index
      persist
      Call.throw ⟨.other, .text "OpenVPN network cleanup failed"⟩

/-- Keep only the process marker, and no full tunnel in it. -/
def keepOpenVpnProcess (resources : List OwnedResource) : List OwnedResource :=
  let kept := resources.filter fun
    | .openVpnProcess _ => true
    | _ => false
  match kept with
  | .openVpnProcess process :: rest => .openVpnProcess { process with full := none } :: rest
  | other => other

/-- `clear_openvpn_network`: remove routes, rules and DNS of the session, stopping at the
first that cannot be removed. -/
def clearOpenvpnNetwork (index : Nat) : Prog Unit := do
  let entry ← entryAt index
  match findOpenVpnProcess entry.resources with
  | none => Call.throw ⟨.invalidData, .text "OpenVPN process journal is malformed"⟩
  | some process => do
      if ← Call.gets fun core => core.executors.openvpn then do
        let link ← runnerLinkIndex process.name
        Call.forEach (clearOpenvpnResource index link.isSome) entry.resources.reverse
        updateEntry index fun entry => entry.setResources (keepOpenVpnProcess entry.resources)
        save
      else Call.throw ⟨.notConnected, .text "OpenVPN executor is unavailable"⟩

def staleWith (index : Nat) (kind : ErrorKind) (message : String) : Prog Unit := do
  markStale index
  Call.throw ⟨kind, .text message⟩

def teardownOpenvpnEntry (index : Nat) : Prog Unit := do
  let entry ← entryAt index
  match findOpenVpnProcess entry.resources with
  | none => Call.throw ⟨.invalidData, .text "OpenVPN owner has no process marker"⟩
  | some process => do
      if ← Call.gets fun core => core.executors.openvpn then do
        if ← goneAfter (openvpnStop process.name) then
          if (← runnerLinkIndex process.name).isSome then
            staleWith index .alreadyExists "OpenVPN link identity is unverified"
          else
            match ← Call.attempt (clearOpenvpnNetwork index) with
            | .error _ => staleWith index .other "OpenVPN network cleanup failed"
            | .ok () =>
              if ← goneAfter (openvpnCleanup entry.uid process.name) then do
                removeEntry index
                Call.modify fun core =>
                  { core with
                    openvpnRuntime :=
                      core.openvpnRuntime.filter fun x => x.1 != (entry.uid, entry.owner) }
              else staleWith index .other "OpenVPN staging cleanup failed"
        else staleWith index .other "OpenVPN child termination failed"
      else staleWith index .notConnected "OpenVPN executor is unavailable"

/-! ### Dispatch -/

/-- `teardown_entry`. -/
def teardownEntry (index : Nat) : Prog Unit := do
  let entry ← entryAt index
  match entry.owner with
  | .xray _ => teardownXrayEntry index
  | .ovpn _ | .ovpnProbe _ => teardownOpenvpnEntry index
  | .wg _ => teardownWireguardEntry index
  | _ => teardownGenericEntry index

structure CleanupResult where
  removedOwners : List Owner
  failed : List Owner
  deriving DecidableEq

/-- The loop of `teardown`: newest entry first. -/
def teardownLoop (selects : JournalEntry → Bool) : Nat → CleanupResult → Prog CleanupResult
  | 0, result => pure result
  | index + 1, result => do
      let entry ← entryAt index
      if selects entry then
        match ← Call.attempt (teardownEntry index) with
        | .ok () =>
          teardownLoop selects index
            { result with removedOwners := result.removedOwners ++ [entry.owner] }
        | .error _ =>
          teardownLoop selects index { result with failed := result.failed ++ [entry.owner] }
      else teardownLoop selects index result

/-- `teardown`. -/
def teardownWhere (selects : JournalEntry → Bool) : Prog CleanupResult := do
  let count ← Call.gets fun core => core.journal.length
  let result ← teardownLoop selects count { removedOwners := [], failed := [] }
  save
  pure result

def cleanupUid (uid : Nat) : Prog CleanupResult := do
  Call.modify fun core =>
    { core with tunnelFailed := core.tunnelFailed.filter fun key => key.1 != uid }
  teardownWhere fun entry => entry.uid == uid

def shutdown : Prog CleanupResult := teardownWhere fun _ => true

end NetOrchestrator.Daemon
