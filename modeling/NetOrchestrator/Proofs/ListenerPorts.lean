import NetOrchestrator.Core.ProfileImport

/-!
# `Proofs.ListenerPorts`: no two profiles listen on one port

A port is chosen against the profiles that the call has read, and the write checks no profile but
its own. So what another call writes in between can be on the same port.
`listener_ports_apart` says what the calls need: when a call changes the store, every other stored
profile has only ports that the call took for used. Nobody has to wait for anybody else, as long
as that holds, and a call that leaves the store as it is may have read anything.
-/

namespace NetOrchestrator.Core.Profiles

open Lib Lib.Windows Core.Errors List Option
open Daemon (trim)
open Lib.Checks (bind_eq_ok map_eq_ok toOption_eq_some)

variable {setting : Setting} {configs : Configs} {used : List Nat} {available : Nat → Bool}
variable {port : Nat} {preferred : Option Nat} {profile : Profile} {document : ProfileDocument}

/-! ### Profiles apart -/

/-- The two profiles share no listener port. -/
def Apart (p q : Profile) : Prop := p.listenerPorts.Disjoint q.listenerPorts

/-- No two stored profiles share a listener port. -/
def PortsApart (profiles : List Profile) : Prop := profiles.Pairwise Apart

theorem Apart.symm {p q : Profile} (h : Apart p q) : Apart q p := fun _ hq hp => h hp hq

/-- If the call changes the store, every other profile there has only ports that the call takes
for used, in what it has read. -/
def PortsSeen {ι : Type} (setting : Setting) (calls : ι → PortCall) (i : ι)
    (document : ProfileDocument) (file : Option ProfileDocument) : Prop :=
  (calls i).write setting document file ≠ .ok file →
    ∀ other ∈ otherProfiles (calls i).id (storedProfiles file), ∀ port ∈ other.listenerPorts,
      port ∈ profileListenerPorts (calls i).configs document.profiles (calls i).id

/-! ### The choice -/

theorem selectAvailableSocksPort_eq_ok
    (h : selectAvailableSocksPort used available = .ok port) : port ∉ used := by
  unfold selectAvailableSocksPort at h
  split at h
  · rename_i found hfound
    have hfree := find?_some hfound
    cases h
    simp only [Bool.and_eq_true, Bool.not_eq_true', contains_eq_mem,
      decide_eq_false_iff_not] at hfree
    exact hfree.1
  · cases h

theorem not_mem_of_mayStay (h : mayStay used available port = true) : port ∉ used := by
  simp only [mayStay, Bool.and_eq_true, Bool.not_eq_true', contains_eq_mem,
    decide_eq_false_iff_not] at h
  exact h.1.2

theorem generatedSocksPort_eq_ok
    (h : generatedSocksPort preferred used available = .ok port) : port ∉ used := by
  cases preferred with
  | none => exact selectAvailableSocksPort_eq_ok h
  | some kept =>
    simp only [generatedSocksPort] at h
    split at h
    · rename_i hstay
      cases h
      exact not_mem_of_mayStay hstay
    · cases h

theorem generatedHttpPort_eq_ok
    (h : generatedHttpPort preferred used available = .ok port) : port ∉ used := by
  unfold generatedHttpPort at h
  split at h
  · rename_i kept hkept
    cases h
    exact not_mem_of_mayStay (filter_eq_some_iff.mp hkept).2
  · exact selectAvailableSocksPort_eq_ok h

/-- Both generated ports are unused, and they differ. -/
theorem selectGeneratedPorts_eq_ok {preferredSocks preferredHttp : Option Nat} {socks http : Nat}
    (h : selectGeneratedPorts preferredSocks preferredHttp used available = .ok (socks, http)) :
    socks ∉ used ∧ http ∉ used ∧ http ≠ socks := by
  obtain ⟨socks', hsocks, hrest⟩ := bind_eq_ok.mp h
  obtain ⟨http', hhttp, hpair⟩ := bind_eq_ok.mp hrest
  cases hpair
  have hnew := generatedHttpPort_eq_ok hhttp
  rw [mem_cons, not_or] at hnew
  exact ⟨generatedSocksPort_eq_ok hsocks, hnew.2, hnew.1⟩

/-- A port that is not occupied stays. -/
theorem connectPort_eq_ok {chosen : Nat} (h : connectPort used available port = .ok chosen) :
    chosen = port ∨ chosen ∉ used := by
  unfold connectPort at h
  split at h
  · cases h
    exact .inl rfl
  · exact .inr (selectAvailableSocksPort_eq_ok h)

variable {http : Option Nat} {moved : Profile}

theorem connectHttpPort_eq_ok
    (h : connectHttpPort used available preferred = .ok http) (hport : http = some port) :
    preferred = some port ∨ port ∉ used := by
  subst hport
  cases preferred with
  | none => cases h
  | some kept =>
    obtain ⟨chosen, hchosen, hsome⟩ := map_eq_ok.mp h
    cases hsome
    exact (connectPort_eq_ok hchosen).imp_left fun heq => by rw [heq]

/-- A port of the replacement is one that the profile has, or it is unused. -/
theorem selectConnectPorts_eq_ok {profiles : List Profile} {socks : Nat}
    (h : selectConnectPorts configs profiles profile available = .ok (some (socks, http)))
    (hport : port ∈ socks :: http.toList) :
    port ∈ profile.listenerPorts ∨ port ∉ profileListenerPorts configs profiles profile.id := by
  unfold selectConnectPorts at h
  cases hprofile : profile.xraySocksPort with
  | none =>
    rw [hprofile] at h
    cases h
  | some old =>
    rw [hprofile] at h
    simp only at h
    split at h
    · cases h
    · obtain ⟨socks', hsocks, hrest⟩ := bind_eq_ok.mp h
      obtain ⟨http', hhttp, hpair⟩ := bind_eq_ok.mp hrest
      cases hpair
      rw [Profile.listenerPorts, hprofile]
      rcases mem_cons.mp hport with rfl | hmem
      · rcases connectPort_eq_ok hsocks with rfl | hnew
        · exact .inl (by simp)
        · exact .inr fun hused => hnew (mem_append_right _ hused)
      · rcases connectHttpPort_eq_ok hhttp (mem_toList.mp hmem) with hkept | hnew
        · exact .inl (by simp [hkept])
        · exact .inr fun hused => hnew (by simp [hused])

/-- The rewritten profile has the new ports. -/
theorem rewriteGeneratedProxyPorts_eq_ok {newSocks : Nat} {newHttp : Option Nat}
    (h : rewriteGeneratedProxyPorts configs profile newSocks newHttp = .ok moved) :
    moved.xraySocksPort = some newSocks ∧ moved.xrayHttpPort = newHttp := by
  unfold rewriteGeneratedProxyPorts at h
  split at h
  · cases h
  split at h
  · cases h
  obtain ⟨doc, -, hrest⟩ := bind_eq_ok.mp h
  obtain ⟨doc', -, hrest⟩ := bind_eq_ok.mp hrest
  obtain ⟨configPath, -, hmoved⟩ := bind_eq_ok.mp hrest
  cases hmoved
  exact ⟨rfl, rfl⟩

/-- A moved profile listens where it did, or where nobody did. -/
theorem preparePorts_eq_ok (h : preparePorts setting configs document profile = .ok (some moved))
    (hport : port ∈ moved.listenerPorts) : port ∈ profile.listenerPorts ∨
      port ∉ profileListenerPorts configs document.profiles profile.id := by
  obtain ⟨selected, hselected, hrest⟩ := bind_eq_ok.mp h
  cases selected with
  | none => cases hrest
  | some ports =>
    obtain ⟨rewritten, hrewritten, hmoved⟩ := map_eq_ok.mp hrest
    cases hmoved
    obtain ⟨hsocks, hhttp⟩ := rewriteGeneratedProxyPorts_eq_ok hrewritten
    have hmem : port ∈ ports.1 :: ports.2.toList := by
      simpa [Profile.listenerPorts, hsocks, hhttp] using hport
    exact selectConnectPorts_eq_ok hselected hmem

/-- What an import stores listens where nobody did. -/
theorem importedProfile_eq_ok {id name link : String}
    (h : importedProfile setting configs id name link document = .ok profile) : profile.id = id ∧
      ∀ port ∈ profile.listenerPorts, port ∉ profileListenerPorts configs document.profiles id := by
  unfold importedProfile at h
  split at h
  · cases h
  obtain ⟨⟨socks, http⟩, hports, hrest⟩ := bind_eq_ok.mp h
  obtain ⟨config, -, hrest⟩ := bind_eq_ok.mp hrest
  obtain ⟨configPath, -, hrest⟩ := bind_eq_ok.mp hrest
  obtain ⟨listeners, -, hprofile⟩ := bind_eq_ok.mp hrest
  cases hprofile
  obtain ⟨hsocks, hhttp, -⟩ := selectGeneratedPorts_eq_ok hports
  refine ⟨rfl, ?_⟩
  intro port hport
  simp only [Profile.listenerPorts, toList_some, singleton_append,
    mem_cons, not_mem_nil, or_false] at hport
  rcases hport with rfl | rfl
  · exact hsocks
  · exact hhttp

/-- The ports of the updated profile are the moved ones, and the stored profile had the old. -/
theorem movePorts_eq_ok {old new stored updated : Profile}
    (h : movePorts old new stored = .ok updated) :
    updated.id = stored.id ∧ updated.listenerPorts = new.listenerPorts ∧
      stored.listenerPorts = old.listenerPorts := by
  unfold movePorts at h
  split at h
  · cases h
  · rename_i hsame
    simp only [ne_eq, not_or, not_not] at hsame
    cases h
    refine ⟨rfl, rfl, ?_⟩
    rw [Profile.listenerPorts, Profile.listenerPorts, hsame.2.1, hsame.2.2]

/-! ### One write -/

section
variable {ι : Type} {calls : ι → PortCall} {i : ι} {document : ProfileDocument}
  {file file' : Option ProfileDocument}

/-- A write keeps the profiles apart, if the call has seen the ports of the others. -/
theorem write_keeps_apart (hapart : PortsApart (storedProfiles file))
    (hseen : PortsSeen setting calls i document file)
    (hwrite : (calls i).write setting document file = .ok file') :
    PortsApart (storedProfiles file') := by
  by_cases hsame : file' = file
  · rw [hsame]
    exact hapart
  have hseen := hseen fun hkept => hsame (Except.ok.inj (hwrite.symm.trans hkept))
  cases hcall : calls i with
  | importShareLink id name link configs =>
    rw [hcall] at hwrite
    simp only [hcall, PortCall.id, PortCall.configs] at hseen
    obtain ⟨profile, hprofile, hstore⟩ := bind_eq_ok.mp hwrite
    obtain ⟨written, hwritten, hfile⟩ := map_eq_ok.mp hstore
    cases hfile
    obtain ⟨hid, hports⟩ := importedProfile_eq_ok hprofile
    rw [storedProfiles, upsert_eq_ok hwritten]
    refine pairwise_putProfile (fun _ _ h => h.symm) hapart ?_
    intro other hother port hport hport'
    rw [hid] at hother
    exact hports port hport (hseen other hother port hport')
  | prepareConnectPorts id configs =>
    rw [hcall] at hwrite
    simp only [hcall, PortCall.id, PortCall.configs] at hseen
    simp only [PortCall.write] at hwrite
    cases hread : findProfile id document.profiles with
    | none =>
      rw [hread] at hwrite
      cases hwrite
    | some profile =>
      rw [hread] at hwrite
      obtain ⟨moved, hmoved, hstore⟩ := bind_eq_ok.mp hwrite
      cases moved with
      | none =>
        cases hstore
        exact hapart
      | some moved =>
        obtain ⟨written, hwritten, hfile⟩ := map_eq_ok.mp hstore
        cases hfile
        obtain ⟨stored, updated, hstored, hupdated, hprofiles⟩ := updateProfile_eq_ok hwritten
        obtain ⟨hid, hnew, hold⟩ := movePorts_eq_ok hupdated
        have hstoredId := id_of_findProfile hstored
        have hupdatedId : updated.id = id := hid.trans hstoredId
        rw [storedProfiles, hprofiles, replaceProfile_eq_putProfile hupdatedId hstored]
        refine pairwise_putProfile (fun _ _ h => h.symm) hapart ?_
        intro other hother port hport hport'
        rw [hupdatedId] at hother
        rw [hnew] at hport
        rcases preparePorts_eq_ok hmoved hport with hkept | hunused
        · -- the port stayed, and the stored profile was apart from the others with it
          rw [← hold] at hkept
          exact pairwise_findProfile (fun _ _ h => Apart.symm h) hapart hstored hother hkept hport'
        · rw [id_of_findProfile hread] at hunused
          exact hunused (hseen other hother port hport')

/-- In every run whose changes see the ports of the other profiles, no two stored profiles share a
listener port in any state that is reached. -/
theorem listener_ports_apart [DecidableEq ι] (setting : Setting) (calls : ι → PortCall)
    {start : Option ProfileDocument} {t : Shared (Option ProfileDocument) ProfileDocument ι}
    (hapart : PortsApart (storedProfiles start))
    (h : Steps (portCalls setting calls).step (Writes (portCalls setting calls) (PortsSeen setting calls))
      (Shared.start start) t) :
    PortsApart (storedProfiles t.document) := by
  refine Calls.invariant (I := fun file => PortsApart (storedProfiles file)) ?_ h hapart
  intro i document file file' hfile hseen hwrite
  exact write_keeps_apart hfile hseen (toOption_eq_some.mp hwrite)

end

/-! ### Two imports -/

section

/-- A config as far as its listeners go. -/
def listenerConfig (socks http : Nat) : Json :=
  .object [("inbounds", .arr
    [.object [("tag", .str "socks-in"), ("listen", .str "127.0.0.1"), ("port", .nat socks),
      ("protocol", .str "socks")],
    .object [("tag", .str "http-in"), ("listen", .str "127.0.0.1"), ("port", .nat http),
      ("protocol", .str "http")]])]

/-- Every port is free, every link is good and every check goes through. -/
def freeSetting : Setting where
  checks := ⟨fun _ => .ok (), fun _ => .ok ()⟩
  links := ⟨fun _ socks http => .ok (listenerConfig socks http), fun _ => none⟩
  platform := .socks
  available _ := true

/-- A vault that keeps one config for each profile. -/
def plainConfigs : Configs where
  listeners _ := .ok []
  read _ _ := .ok (listenerConfig 10808 10809)
  store id _ := .ok ("/vault/" ++ id ++ "/rev-1/config.json")
  isManaged _ _ := true

def homeLink : String := "vless://11111111-1111-1111-1111-111111111111@a.example:443"
def officeLink : String := "vless://22222222-2222-2222-2222-222222222222@b.example:443"

/-- Two imports of two links. -/
def twoImports : Bool → PortCall
  | false => .importShareLink "home" "Home" homeLink plainConfigs
  | true => .importShareLink "office" "Office" officeLink plainConfigs

def importedAs (id name : String) (socks http : Nat) : Profile :=
  { id, name, backend := .xray, configPath := "/vault/" ++ id ++ "/rev-1/config.json",
    xraySocksPort := some socks, xrayHttpPort := some http }

/-- What both imports write after they have read the empty store. -/
def homeOnly : ProfileDocument := ⟨1, [importedAs "home" "Home" 10808 10809]⟩

def bothOnOnePort : ProfileDocument :=
  ⟨1, [importedAs "home" "Home" 10808 10809, importedAs "office" "Office" 10808 10809]⟩

def homeThenOffice : ProfileDocument :=
  ⟨1, [importedAs "home" "Home" 10808 10809, importedAs "office" "Office" 10810 10811]⟩

theorem home_written :
    (portCalls freeSetting twoImports).write false ⟨1, []⟩ none = some (some homeOnly) := rfl

theorem office_written_unseen :
    (portCalls freeSetting twoImports).write true ⟨1, []⟩ (some homeOnly) =
      some (some bothOnOnePort) := rfl

theorem office_written_seen :
    (portCalls freeSetting twoImports).write true homeOnly (some homeOnly) =
      some (some homeThenOffice) := rfl

/-- Either import reads whatever is stored. -/
theorem twoImports_read {file : Option ProfileDocument} {document : ProfileDocument}
    (h : load freeSetting.checks file = .ok document) (i : Bool) :
    (portCalls freeSetting twoImports).read i file = some document := by
  rw [← toOption_eq_some.mpr h]
  cases i with
  | false =>
    have hlink : checkShareLink "home" (trim homeLink) = .ok () := by decide +kernel
    show (checkShareLink "home" (trim homeLink) >>= fun _ =>
      load freeSetting.checks file).toOption = _
    rw [hlink]
    rfl
  | true =>
    have hlink : checkShareLink "office" (trim officeLink) = .ok () := by decide +kernel
    show (checkShareLink "office" (trim officeLink) >>= fun _ =>
      load freeSetting.checks file).toOption = _
    rw [hlink]
    rfl

/-- Both imports read the empty store, and both take the first two ports. -/
theorem overlapping_imports_share_ports :
    ¬ ∀ (setting : Setting) (calls : Bool → PortCall) (start : Option ProfileDocument)
      (t : Shared (Option ProfileDocument) ProfileDocument Bool),
      (∀ i j, i ≠ j → (calls i).id ≠ (calls j).id) → PortsApart (storedProfiles start) →
        Steps (portCalls setting calls).step (fun _ _ => True) (Shared.start start) t →
          PortsApart (storedProfiles t.document) := by
  intro hclaim
  have hids : ∀ i j, i ≠ j → (twoImports i).id ≠ (twoImports j).id := by decide
  have hhome : Steps (portCalls freeSetting twoImports).step (fun _ _ => True)
      (Shared.start none) _ :=
    .single ⟨.read false, trivial, step_of_read (twoImports_read rfl false)⟩
  have hoffice := hhome.tail ⟨.read true, trivial, step_of_read (twoImports_read rfl true)⟩
  have hfirst := hoffice.tail ⟨.write false, trivial, step_of_write rfl home_written⟩
  have hsecond := hfirst.tail ⟨.write true, trivial, step_of_write rfl office_written_unseen⟩
  have hend := hclaim freeSetting twoImports none _ hids List.Pairwise.nil hsecond
  have hshared : Apart (importedAs "home" "Home" 10808 10809)
      (importedAs "office" "Office" 10808 10809) := List.pairwise_pair.mp hend
  exact hshared (a := 10808) (by decide) (by decide)

theorem office_sees_home : PortsSeen freeSetting twoImports true homeOnly (some homeOnly) := by
  intro _ other hother port hport
  have hhome : other ∈ [importedAs "home" "Home" 10808 10809] := hother
  rw [mem_singleton.mp hhome] at hport
  exact hport

/-- One after the other, the second import sees the first. -/
theorem imports_in_turn_apart : PortsApart homeThenOffice.profiles := by
  have hhome : Steps (portCalls freeSetting twoImports).step
      (Writes (portCalls freeSetting twoImports) (PortsSeen freeSetting twoImports))
      (Shared.start none) _ :=
    .single ⟨.read false, trivial, step_of_read (twoImports_read rfl false)⟩
  have hfirst := hhome.tail ⟨.write false, fun _ _ _ _ _ _ hother => (nomatch hother),
    step_of_write rfl home_written⟩
  have hoffice := hfirst.tail ⟨.read true, trivial, step_of_read (twoImports_read rfl true)⟩
  have hseen : ∀ seen document, some homeOnly = some seen →
      (portCalls freeSetting twoImports).write true seen (some homeOnly) = some document →
        PortsSeen freeSetting twoImports true seen (some homeOnly) := by
    intro seen document hseen _
    rw [← Option.some.inj hseen]
    exact office_sees_home
  have hsecond := hoffice.tail ⟨.write true, hseen, step_of_write rfl office_written_seen⟩
  have hstart : PortsApart (storedProfiles none) := List.Pairwise.nil
  exact listener_ports_apart freeSetting twoImports hstart hsecond

end

end NetOrchestrator.Core.Profiles
