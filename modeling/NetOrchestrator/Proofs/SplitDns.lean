import NetOrchestrator.Lib.Runs
import NetOrchestrator.Proofs.BookedRequests
import NetOrchestrator.Proofs.ResolverFiles

/-!
# `Proofs.SplitDns`: the split DNS of concurrent secondaries

A WireGuard and an OpenVPN secondary can run at once, each with its own suffixes. The marker of a
resolver file does not say whose it is, so the two are independent as long as no suffix is on
record twice. That can only come about when a WireGuard connect or the push of an OpenVPN session
puts a suffix on record: `SplitApart` is about these two, and nothing has to be known about the
disconnects.

That no file is left behind is another matter. It needs no such condition, only that no removal of
a file is refused (`filesClean`).
-/

namespace NetOrchestrator.Macos

open Net Lib Lib.Call Option Table
open Daemon (validDnsSuffix)

/-- The record of a running secondary. An Xray has no split DNS. -/
def Machine.secondary (w : Machine) : Kind → Option Record
  | .xray => none
  | .wireGuard => (w.wireGuard.filter fun active => active.role == .secondary).map (·.record)
  | .openVpn => (w.openVpn.filter fun active => active.role == .secondary).map (·.record)

/-- What a request does to the split DNS. -/
structure SplitDnsKept (request : TunnelRequest) (outcome : Outcome TunnelError Unit)
    (w w' : Machine) : Prop where
  /-- The files of another running secondary are what they were. -/
  kept : ∀ kind record, w.secondary kind = some record → request.tunnel ≠ some kind →
    ∀ file ∈ w.resolvers, file.domain ∈ record.resolverDomains → file ∈ w'.resolvers
  /-- So are the files without the marker. -/
  foreign : ∀ file, file.marked = false → (file ∈ w'.resolvers ↔ file ∈ w.resolvers)
  /-- No file is left when no secondary runs. -/
  gone : outcome ≠ .crash → w'.filesClean = true → (∀ kind, w'.secondary kind = none) →
    ∀ file ∈ w'.resolvers, file.marked = false

variable (w : Machine)

/-- No suffix that the request puts on record is on record for the other tunnel. -/
def SplitApart (request : TunnelRequest) : Prop :=
  ∀ domain ∈ w.asks request, ∀ kind, kind ≠ .xray → request.tunnel ≠ some kind →
    domain ∉ w.recordedDomains (.tunnel kind)

instance (w : Machine) (request : TunnelRequest) : Decidable (SplitApart w request) :=
  decidable_of_iff
    (∀ domain ∈ w.asks request, ∀ kind ∈ Kind.all, kind ≠ .xray → request.tunnel ≠ some kind →
      domain ∉ w.recordedDomains (.tunnel kind))
    ⟨fun h domain hdomain kind => h domain hdomain kind (by cases kind <;> decide),
      fun h domain hdomain kind _ => h domain hdomain kind⟩

/-! ### Records that are apart -/

/-- No suffix is on record twice. -/
def DomainsApart : Prop :=
  ∀ k k', k ≠ .xray → k' ≠ .xray → k ≠ k' → ∀ domain ∈ w.recordedDomains (.tunnel k),
    domain ∉ w.recordedDomains (.tunnel k')

section
variable {w w' : Machine} {request : TunnelRequest}

/-- What a request may touch is not on record for another tunnel. -/
theorem DomainsApart.touches (h : DomainsApart w) (hasks : SplitApart w request) {kind : Kind}
    (hkind : kind ≠ .xray) (hother : request.tunnel ≠ some kind) {domain : String}
    (hdomain : domain ∈ w.touches request) : domain ∉ w.recordedDomains (.tunnel kind) := by
  unfold Machine.touches at hdomain
  split at hdomain
  · cases hdomain
  · cases hdomain
  · rename_i k hxray htunnel
    rcases List.mem_append.mp hdomain with hown | hasked
    · have hne : k ≠ kind := fun heq => hother (heq ▸ htunnel)
      exact h k kind hxray hkind hne domain hown
    · exact hasks domain hasked kind hkind hother

theorem DomainsApart.step (h : DomainsApart w) (hasks : SplitApart w request)
    (hconfined : Confined request.tunnel (w.touches request) w w') : DomainsApart w' := by
  -- The tunnel at work has on record what it may touch, the others what they had.
  have hfacing : ∀ k k', k ≠ .xray → k' ≠ .xray → k ≠ k' → request.tunnel = some k →
      ∀ domain ∈ w'.recordedDomains (.tunnel k), domain ∉ w'.recordedDomains (.tunnel k') := by
    intro k k' hk hk' hne htunnel domain hdomain
    rw [hconfined.others k' (by simp [htunnel, hne])]
    exact h.touches hasks hk' (by simp [htunnel, hne]) (hconfined.recorded k htunnel hk hdomain)
  intro k k' hk hk' hne domain hdomain hdomain'
  by_cases htunnel : request.tunnel = some k
  · exact hfacing k k' hk hk' hne htunnel domain hdomain hdomain'
  · by_cases htunnel' : request.tunnel = some k'
    · exact hfacing k' k hk' hk hne.symm htunnel' domain hdomain' hdomain
    · rw [hconfined.others k htunnel] at hdomain
      rw [hconfined.others k' htunnel'] at hdomain'
      exact h k k' hk hk' hne domain hdomain hdomain'

theorem secondary_recorded {kind : Kind} {record : Record} (h : w.secondary kind = some record) :
    kind ≠ .xray ∧ record.resolverDomains ⊆ w.recordedDomains (.tunnel kind) := by
  have hsession : kind ≠ .xray ∧ w.sessionRecord (.tunnel kind) = some record := by
    cases kind with
    | xray => cases h
    | wireGuard =>
      obtain ⟨active, hactive, rfl⟩ := map_eq_some_iff.mp h
      simp [Machine.sessionRecord, (filter_eq_some_iff.mp hactive).1]
    | openVpn =>
      obtain ⟨active, hactive, rfl⟩ := map_eq_some_iff.mp h
      simp [Machine.sessionRecord, (filter_eq_some_iff.mp hactive).1]
  refine ⟨hsession.1, ?_⟩
  have hsub := session_recorded (.tunnel kind) w
  rwa [hsession.2] at hsub

end

/-! ### Files that a session has on record -/

/-- A session has the file on record. -/
def Machine.Covers (file : ResolverFile) : Prop :=
  ∃ kind record, kind ≠ .xray ∧ w.sessionRecord (.tunnel kind) = some record ∧
    file.domain ∈ record.resolverDomains

/-- Every file with the marker is the helper's, and a session's unless it is of `domains`. -/
def FilesCovered (domains : List String) (w : Machine) : Prop :=
  w.filesClean = true → ∀ file ∈ w.resolvers, file.marked = true →
    validDnsSuffix file.domain = true ∧ (file.domain ∈ domains ∨ w.Covers file)

/-- A component at work has the files of `domains` in hand. -/
structure FilesInHand (who : Component) (domains : List String) (w : Machine) : Prop where
  idle : w.sessionRecord who = none
  safe : FilesCovered (if who = xrayTunnel then [] else domains) w

section
variable {who : Component} {kind : Kind} {domains domains' : List String} {w w' : Machine}

section
variable (h : FilesCovered domains w) (hresolvers : w'.resolvers = w.resolvers)
  (hclean : w'.filesClean = w.filesClean)
include h hresolvers hclean

theorem FilesCovered.mono (hcovers : ∀ file : ResolverFile, file.domain ∈ domains ∨ w.Covers file →
      file.domain ∈ domains' ∨ w'.Covers file) : FilesCovered domains' w' := by
  intro hc file hfile hmarked
  rw [hclean] at hc
  rw [hresolvers] at hfile
  obtain ⟨hvalid, hin⟩ := h hc file hfile hmarked
  exact ⟨hvalid, hcovers file hin⟩

theorem FilesCovered.same (hrecord : w'.sessionRecord = w.sessionRecord) :
    FilesCovered domains w' := by
  apply h.mono hresolvers hclean
  intro file hin
  rwa [Machine.Covers, hrecord]

end

theorem FilesInHand.same (h : FilesInHand who domains w) (hresolvers : w'.resolvers = w.resolvers)
    (hclean : w'.filesClean = w.filesClean) (hrecord : w'.sessionRecord = w.sessionRecord) :
    FilesInHand who domains w' :=
  ⟨by rw [hrecord]; exact h.idle, h.safe.same hresolvers hclean hrecord⟩

theorem FilesInHand.adjust (h : FilesInHand who domains w) (hdomains : domains ⊆ domains') :
    FilesInHand who domains' w := by
  refine ⟨h.idle, h.safe.mono rfl rfl ?_⟩
  intro file hin
  refine hin.imp_left ?_
  split
  · exact id
  · exact fun hfile => hdomains hfile

theorem FilesInHand.covered (h : FilesInHand who [] w) : FilesCovered [] w := by
  have hsafe := h.safe
  simpa using hsafe

variable {record : Record}

/-- A session is taken in hand, with its files. -/
theorem FilesInHand.of_session (h : FilesCovered [] w)
    (hsession : w.sessionRecord (.tunnel kind) = some record) (hhanded : Handed (.tunnel kind) w w')
    (hidle : w'.sessionRecord (.tunnel kind) = none) :
    FilesInHand (.tunnel kind) record.resolverDomains w' := by
  refine ⟨hidle, h.mono hhanded.resolvers hhanded.filesClean ?_⟩
  rintro file (hnil | ⟨k, other, hk, hother, hin⟩)
  · cases hnil
  · by_cases heq : k = kind
    · subst heq
      obtain rfl : record = other := Option.some.inj (hsession.symm.trans hother)
      rw [if_neg (by simpa using hk)]
      exact .inl hin
    · refine .inr ⟨k, other, hk, ?_, hin⟩
      rw [hhanded.record _ (by simpa using heq)]
      exact hother

/-- A session starts, and has the files on record. -/
theorem FilesInHand.start (h : FilesInHand (.tunnel kind) domains w)
    (hdomains : domains ⊆ record.resolverDomains) (hhanded : Handed (.tunnel kind) w w')
    (hsession : w'.sessionRecord (.tunnel kind) = some record) : FilesCovered [] w' := by
  apply h.safe.mono hhanded.resolvers hhanded.filesClean
  rintro file (hin | ⟨k, other, hk, hother, hin⟩)
  · split at hin
    · cases hin
    · rename_i hne
      exact .inr ⟨kind, record, by simpa using hne, hsession, hdomains hin⟩
  · by_cases heq : k = kind
    · rw [heq, h.idle] at hother
      cases hother
    · refine .inr ⟨k, other, hk, ?_, hin⟩
      rw [hhanded.record _ (by simpa using heq)]
      exact hother

variable {domain : String} (h : FilesInHand who domains w)
include h

theorem FilesInHand.write {servers : List IpAddr} (hwho : who ≠ xrayTunnel)
    (hvalid : validDnsSuffix domain = true) (hdomain : domain ∈ domains) :
    FilesInHand who domains (w.resolverWritten who domain servers) := by
  have hfree : (w.resolvers.erase domain).has domain = false := by
    rw [← get_eq_none, get_erase, if_pos rfl]
  refine ⟨h.idle, ?_⟩
  have hsafe := h.safe
  rw [if_neg hwho] at hsafe ⊢
  intro hclean file hfile hmarked
  rcases (mem_insert hfree).mp hfile with hold | rfl
  · exact hsafe hclean file (mem_erase.mp hold).1 hmarked
  · exact ⟨hvalid, .inl hdomain⟩

theorem FilesInHand.remove (hdomains : ∀ d ∈ domains, d = domain ∨ d ∈ domains') :
    FilesInHand who domains' { w with resolvers := w.resolvers.erase domain } := by
  refine ⟨h.idle, ?_⟩
  intro hclean file hfile hmarked
  obtain ⟨hmem, hne⟩ := mem_erase.mp hfile
  obtain ⟨hvalid, hin⟩ := h.safe hclean file hmem hmarked
  refine ⟨hvalid, hin.imp_left ?_⟩
  split
  · exact id
  · exact fun hin => (hdomains file.domain hin).resolve_left hne

/-- A file without the marker, or with no valid name, is not in hand. -/
theorem FilesInHand.skip
    (hskip : (validDnsSuffix domain && (w.resolvers.get domain).any ResolverFile.marked) = false)
    (hdomains : ∀ d ∈ domains, d = domain ∨ d ∈ domains') : FilesInHand who domains' w := by
  refine ⟨h.idle, ?_⟩
  intro hclean file hfile hmarked
  obtain ⟨hvalid, hin⟩ := h.safe hclean file hfile hmarked
  have hne : file.domain ≠ domain := by
    rintro rfl
    rw [hvalid, get_key hfile] at hskip
    simp [hmarked] at hskip
  refine ⟨hvalid, hin.imp_left ?_⟩
  split
  · exact id
  · exact fun hin => (hdomains file.domain hin).resolve_left hne

end

/-- The books of the resolver files. -/
theorem bookkeeping_files : Bookkeeping (FilesCovered []) (fun _ => True) fun who _ _ domains _ =>
      FilesInHand who domains where
  idle_same := fun _ _ hsame h => h.same hsame.resolvers hsame.filesClean hsame.record
  hand_same := fun _ _ hsame h => h.same hsame.resolvers hsame.filesClean hsame.record
  idle_cut _ := trivial
  hand_cut _ := trivial
  hand_idle h := h.idle
  adjust _ _ hdomains _ h := h.adjust hdomains
  take h hsession hhanded hidle := .of_session h hsession hhanded hidle
  load h hidle _ := ⟨hidle, h.mono rfl rfl fun _ hin => .inr (hin.resolve_left (by simp))⟩
  fresh h hidle _ := ⟨hidle, h.mono rfl rfl fun _ hin => .inr (hin.resolve_left (by simp))⟩
  start h _ _ hdomains hhanded hsession := h.start hdomains hhanded hsession
  done h := h.covered
  unsupervised h _ := h.covered
  plan _ h := h.same rfl rfl (funext (sessionRecord_congr rfl rfl rfl))
  add h _ := h.same rfl rfl (funext (sessionRecord_congr rfl rfl rfl))
  delete h _ _ := h.same rfl rfl (funext (sessionRecord_congr rfl rfl rfl))
  deleteFailed h _ := h.same rfl rfl (funext (sessionRecord_congr rfl rfl rfl))
  save h _ _ _ := h.same rfl rfl (funext (sessionRecord_congr rfl rfl rfl))
  saveFailed h := h.same rfl rfl (funext (sessionRecord_congr rfl rfl rfl))
  clear h := h.same rfl rfl (funext (sessionRecord_congr rfl rfl rfl))
  noFiles h := ⟨h.idle, h.safe⟩
  write h hwho hvalid hdomain _ := h.write hwho hvalid hdomain
  remove h hdomains := h.remove hdomains
  removeFailed h := ⟨h.idle, fun hclean => by cases hclean⟩
  skip h hskip hdomains := h.skip hskip hdomains

/-! ### Every sequence of requests -/

section
variable {w t u : Machine} {request : TunnelRequest}

/-- Nothing runs and nothing is on record. -/
theorem Unused.recordedDomains (h : Unused w) (kind : Kind) :
    w.recordedDomains (.tunnel kind) = [] := by
  unfold Machine.recordedDomains
  rw [h.journal]
  cases kind with
  | xray => simp [Machine.sessionRecord, h.xray]
  | wireGuard => simp [Machine.sessionRecord, h.wireGuard]
  | openVpn => simp [Machine.sessionRecord, h.openVpn]

theorem Unused.domainsApart (h : Unused w) : PlainPrimaries w ∧ DomainsApart w := by
  refine ⟨⟨?_, ?_⟩, ?_⟩
  · intro active hactive
    rw [h.wireGuard] at hactive
    cases hactive
  · intro active hactive
    rw [h.openVpn] at hactive
    cases hactive
  · intro k k' _ _ _ domain hdomain
    rw [h.recordedDomains] at hdomain
    cases hdomain

/-- Suffixes that are apart stay apart. -/
theorem domainsApart_of_reaches (hstart : Unused w) (hrun : Reaches runRequest SplitApart w t) :
    PlainPrimaries t ∧ DomainsApart t := by
  refine hrun.invariant (I := fun v => PlainPrimaries v ∧ DomainsApart v) (C := fun _ => True)
    hstart.domainsApart ?_
  rintro v request ⟨hplain, hapart⟩ hasks
  exact wp_mono (wp_runRequest_confined request hplain)
    (fun _ _ hconfined => ⟨hconfined.plain, hapart.step hasks hconfined⟩)
    (fun _ _ hconfined => ⟨hconfined.plain, hapart.step hasks hconfined⟩) (fun _ _ => trivial)

theorem filesCovered_of_reaches (hfiles : ∀ file ∈ w.resolvers, file.marked = false)
    (hrun : Reaches runRequest SplitApart w t) : FilesCovered [] t := by
  refine hrun.invariant (C := fun _ => True) ?_ fun v request hv _ =>
    bookkeeping_files.booked_runRequest request hv
  intro _ file hfile hmarked
  rw [hfiles file hfile] at hmarked
  cases hmarked

/-- A session that has a file on record is that of a secondary. -/
theorem PlainPrimaries.secondary (h : PlainPrimaries u) {kind : Kind} {record : Record}
    {domain : String} (hkind : kind ≠ .xray)
    (hsession : u.sessionRecord (.tunnel kind) = some record)
    (hdomain : domain ∈ record.resolverDomains) : u.secondary kind = some record := by
  cases kind with
  | xray => exact absurd rfl hkind
  | wireGuard =>
    obtain ⟨active, hactive, rfl⟩ := map_eq_some_iff.mp hsession
    cases hrole : active.role with
    | primary =>
      rw [h.wireGuard active hactive hrole] at hdomain
      cases hdomain
    | secondary => simp [Machine.secondary, hactive, hrole]
  | openVpn =>
    obtain ⟨active, hactive, rfl⟩ := map_eq_some_iff.mp hsession
    cases hrole : active.role with
    | primary =>
      rw [h.openVpn active hactive hrole] at hdomain
      cases hdomain
    | secondary => simp [Machine.secondary, hactive, hrole]

theorem SplitDnsKept.of_confined {outcome : Outcome TunnelError Unit} (hapart : DomainsApart t)
    (hasks : SplitApart t request) (hconfined : Confined request.tunnel (t.touches request) t u)
    (hcovered : outcome ≠ .crash → FilesCovered [] u) : SplitDnsKept request outcome t u where
  kept := by
    intro kind record hsecondary hother file hfile hdomain
    obtain ⟨hkind, hrecorded⟩ := secondary_recorded hsecondary
    have hnot : file.domain ∉ t.touches request := fun htouched =>
      hapart.touches hasks hkind hother htouched (hrecorded hdomain)
    have hget : u.resolvers.get file.domain = some file := by
      rw [hconfined.elsewhere file.domain hnot, get_key hfile]
    exact (get_eq_some.mp hget).1
  foreign := by
    intro file hmarked
    have hiff := hconfined.foreign file hmarked
    rw [get_eq_some, get_eq_some] at hiff
    simpa using hiff
  gone := by
    intro halive hclean hnone file hfile
    by_contra hmarked
    obtain ⟨_, hin⟩ := hcovered halive hclean file hfile (by simpa using hmarked)
    rcases hin with hnil | ⟨kind, record, hkind, hsession, hdomain⟩
    · cases hnil
    · have hrunning := hconfined.plain.secondary hkind hsession hdomain
      rw [hnone kind] at hrunning
      cases hrunning

/-- Over any sequence of requests and events in which no suffix is put on record that the other
tunnel has on record, and at every point of the last one: the split DNS of each secondary is its
own, and none is left behind. -/
theorem split_dns_kept (hstart : Unused w) (hfiles : ∀ file ∈ w.resolvers, file.marked = false)
    (hrun : Reaches runRequest SplitApart w t) (hasks : SplitApart t request)
    (vs rest : List (Verdict Fault)) {outcome : Outcome TunnelError Unit}
    (hlast : runRequest request t vs = (outcome, u, rest)) : SplitDnsKept request outcome t u := by
  obtain ⟨hplain, hapart⟩ := domainsApart_of_reaches hstart hrun
  have hconfined := wp_runRequest_confined request hplain vs fun _ _ => trivial
  have hcovered := bookkeeping_files.booked_runRequest request
    (filesCovered_of_reaches hfiles hrun) vs fun _ _ => trivial
  rw [hlast] at hconfined hcovered
  cases outcome with
  | ok _ => exact .of_confined hapart hasks hconfined.2 fun _ => hcovered.2
  | err _ => exact .of_confined hapart hasks hconfined.2 fun _ => hcovered.2
  | crash => exact .of_confined hapart hasks hconfined fun halive => absurd rfl halive

end

/-! ### Two secondaries -/

def millMachine : Machine := .initial .empty [.address (.v4 0xc0a80101)]

theorem unused_millMachine : Unused millMachine := ⟨fun _ => rfl, rfl, rfl, rfl⟩

theorem unmarked_millMachine : ∀ file ∈ millMachine.resolvers, file.marked = false := by
  intro file hfile
  cases hfile

/-- A WireGuard secondary for the names of a company. -/
def millWireGuard : TunnelRequest :=
  .wgConnect
    { uplink := some ⟨"en0", some 0xc0a80101⟩
      service := true
      resolves := fun _ => true
      tun := "utun10"
      helperPid := 90 }
    { uid := 501
      profileId := "mill"
      role := .secondary
      config := .ok
        { addresses := []
          dnsServers := [.v4 0x0a0a0035]
          peers := []
          tableOff := false }
      routes := [⟨.v4 0x0a0a0000 16, 0, none⟩]
      dnsDomains := ["corp.example"] }

/-- An OpenVPN secondary. -/
def millOpenVpn (dnsDomains : List String) : TunnelRequest :=
  .ovpnConnect
    { uplink := some ⟨"en0", some 0xc0a80101⟩
      remotes := []
      unit := "utun11"
      stage := "wharf"
      stageable := true
      controllable := true }
    { uid := 501
      profileId := "wharf"
      role := .secondary
      routes := [⟨.v4 0x0a140000 16, 0, none⟩]
      dnsDomains
      credentials := false
      credentialsValid := true
      assetsDecode := true
      accepted := true }

/-- The OpenVPN server pushes its DNS. -/
def millPush : TunnelRequest :=
  .events "wharf"
    [.pushReply
        { routes := []
          redirectGatewayDef1 := false
          legacyDnsServers := [.v4 0x0a140035]
          searchDomains := []
          dnsServers := []
          moreFollows := false },
      .state .connected]
    none true

/-- Both run, before the push. -/
def millBoth (dnsDomains : List String) : Machine :=
  (runRequest (millOpenVpn dnsDomains) (runRequest millWireGuard millMachine []).2.1 []).2.1

def millFile : ResolverFile := ⟨"corp.example", [.v4 0x0a0a0035], true, some wgTunnel⟩

/-- The runs that lead there. -/
theorem reaches_millBoth {ok : Machine → TunnelRequest → Prop} (dnsDomains : List String)
    (hwireGuard : ok millMachine millWireGuard)
    (hopenVpn : ok (runRequest millWireGuard millMachine []).2.1 (millOpenVpn dnsDomains))
    (hup : (runRequest millWireGuard millMachine []).1 = .ok () ∧
      (runRequest (millOpenVpn dnsDomains) (runRequest millWireGuard millMachine []).2.1 []).1 =
        .ok ()) : Reaches runRequest ok millMachine (millBoth dnsDomains) :=
  .call (.call .start hwireGuard (eq_of_outcome hup.1) (by simp)) hopenVpn (eq_of_outcome hup.2)
    (by simp)

/-- A secondary with other names: its push leaves the file alone. -/
theorem mill_own_suffix_kept :
    let pushed := (runRequest millPush (millBoth ["lab.example"]) []).2.1
    pushed.resolvers.rows.length = 2 ∧
      SplitDnsKept millPush (.ok ()) (millBoth ["lab.example"]) pushed :=
  ⟨by decide +kernel,
    split_dns_kept unused_millMachine unmarked_millMachine
      (reaches_millBoth ["lab.example"] (by decide +kernel) (by decide +kernel)
        (by decide +kernel))
      (by decide +kernel) [] _ (eq_of_outcome (by decide +kernel))⟩

/-- With the same name in both lists, the push replaces the file. -/
theorem mill_shared_suffix_taken :
    ¬∀ w t u : Machine, Unused w → (∀ file ∈ w.resolvers, file.marked = false) →
      Reaches runRequest (fun _ _ => True) w t →
      ∀ (request : TunnelRequest) (vs rest : List (Verdict Fault))
        (outcome : Outcome TunnelError Unit), runRequest request t vs = (outcome, u, rest) →
        SplitDnsKept request outcome t u := by
  intro hall
  have hkept := hall millMachine (millBoth ["corp.example"]) _ unused_millMachine
    unmarked_millMachine (reaches_millBoth _ trivial trivial (by decide +kernel)) millPush [] _ _
    (eq_of_outcome (o := .ok ()) (by decide +kernel))
  obtain ⟨record, hsecondary, hdomains⟩ : ∃ record,
      (millBoth ["corp.example"]).secondary .wireGuard = some record ∧
        record.resolverDomains = ["corp.example"] :=
    Option.map_eq_some_iff.mp (by decide +kernel)
  have hfile : millFile ∈ (runRequest millPush (millBoth ["corp.example"]) []).2.1.resolvers.rows :=
    hkept.kept .wireGuard record hsecondary (by decide) millFile
      (show millFile ∈ (millBoth ["corp.example"]).resolvers.rows by decide +kernel)
      (by simp [hdomains, millFile])
  exact absurd hfile (by decide +kernel)

end NetOrchestrator.Macos
