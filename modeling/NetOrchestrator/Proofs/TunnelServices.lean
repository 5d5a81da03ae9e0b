import NetOrchestrator.Core.TunnelServices

/-!
# `Proofs.TunnelServices`: when the services follow the `TunnelManager`

The service that `connect` installs is called `<vault name>.table-off`, and everything else asks for
the name of the profile's own config. `services_follow_iff` says for which profiles that is one
name.

For those, `Booked` is kept by every call: the profiles in `wireguard_services` and the installed
names belong to each other.
-/

namespace NetOrchestrator.Core.TunnelServices

open Lib Lib.Call List
open Core.Errors Core.Profiles
open Lib.Checks (bind_eq_ok)

/-! ### What is promised -/

/-- The name that all questions and the uninstallation use for the profile. -/
structure UsesName (profile : Profiles.Profile) (name : List Char) : Prop where
  uninstalled : wireguardDisconnectSpec profile = .ok (.uninstallTunnelService name)
  queried : wireguardServiceName profile = .ok (serviceOf name)
  dumped : wgDumpArgs profile = .ok ["show".toList, name, "dump".toList]

/-- The installed services are those of the connected profiles, and can be taken away one by one. -/
structure Follows (profiles : List Profiles.Profile) (s : Services) : Prop where
  installed : ∀ id ∈ s.wireguardServices, ∃ p ∈ profiles, p.id = id ∧
    ∃ name ∈ s.installed, UsesName p name
  connected : ∀ name ∈ s.installed, ∃ p ∈ profiles, p.id ∈ s.wireguardServices ∧ UsesName p name
  distinct : ∀ p ∈ profiles, ∀ q ∈ profiles, p.id ∈ s.wireguardServices →
    q.id ∈ s.wireguardServices → ∀ name, UsesName p name → UsesName q name → p = q
  disconnects : ∀ p ∈ profiles, p.id ∈ s.wireguardServices → ∃ name, UsesName p name ∧
    Succeeds (disconnect p) (fun _ s' =>
      s'.wireguardServices = s.wireguardServices.filter (· != p.id) ∧
        s'.installed = s.installed.filter (· != name)) s

/-- The states that calls on the profiles lead to. -/
inductive Reached (profiles : List Profiles.Profile) : Services → Prop
  | start : Reached profiles {}
  | connect {s : Services} {p : Profiles.Profile} {vs : List (Lib.Verdict IoError)}
      (h : Reached profiles s)
      (hp : p ∈ profiles) (hvs : ∀ v ∈ vs, Lib.Verdict.Survives v) :
      Reached profiles (connect p s vs).2.1
  | disconnect {s : Services} {p : Profiles.Profile} {vs : List (Lib.Verdict IoError)}
      (h : Reached profiles s)
      (hp : p ∈ profiles) (hvs : ∀ v ∈ vs, Lib.Verdict.Survives v) :
      Reached profiles (disconnect p s vs).2.1

/-- The name of the service that `connect` installs for a vault name. -/
def transientName (safe : List Char) : List Char := safe ++ ".table-off".toList

/-- A profile that can be connected has its config under the name of the copy, and no other profile
has a config of that name. -/
def Agreeing (profiles : List Profiles.Profile) : Prop :=
  ∀ p ∈ profiles, ∀ safe name, vaultName p.id = .ok safe → tunnelName p = .ok name →
    name = transientName safe ∧ ∀ q ∈ profiles, tunnelName q = .ok name → q = p

variable {profiles : List Profiles.Profile} {p q : Profiles.Profile} {s : Services}
  {name safe : List Char}

/-! ### Names -/

theorem withoutEnding_transient (safe : List Char) :
    withoutEnding (safe ++ ".table-off.conf".toList) = some (transientName safe) := by
  have hlower : (safe ++ ".table-off.conf".toList).map Char.toLower =
      safe.map Char.toLower ++ ".table-off.conf".toList := by
    rw [map_append]
    rfl
  have hplain : ".conf.dpapi".toList.isSuffixOf (safe.map Char.toLower ++ ".table-off.conf".toList) =
      false := by
    rw [Bool.eq_false_iff, ne_eq, isSuffixOf_iff_suffix]
    intro hsuffix
    -- The last letters differ.
    have hlast := hsuffix.getLast (by simp)
    simp at hlast
  have hconf : ".conf".toList.isSuffixOf (safe.map Char.toLower ++ ".table-off.conf".toList) =
      true := by
    rw [isSuffixOf_iff_suffix]
    exact ⟨safe.map Char.toLower ++ ".table-off".toList, by simp⟩
  have hwhole : safe ++ ".table-off.conf".toList = transientName safe ++ ".conf".toList := by
    simp [transientName]
  rw [withoutEnding, hlower]
  simp only [hplain, hconf]
  rw [hwhole]
  simp

theorem transientConfig_eq_ok {place : Place} (h : transientConfig p = .ok place) :
    ∃ safe, vaultName p.id = .ok safe ∧
      place.getLast?.bind withoutEnding = some (transientName safe) := by
  by_cases hplace : windowsPlace p.configPath = []
  · simp [transientConfig, hplace] at h
  · simp only [transientConfig, hplace, if_false] at h
    obtain ⟨safe, hsafe, h⟩ := bind_eq_ok.mp h
    cases h
    refine ⟨safe, hsafe, ?_⟩
    rw [getLast?_concat]
    exact withoutEnding_transient safe

theorem usesName_iff : UsesName p name ↔ tunnelName p = .ok name := by
  constructor
  · intro h
    have huninstalled := h.uninstalled
    unfold wireguardDisconnectSpec at huninstalled
    cases hname : tunnelName p with
    | error e =>
      rw [hname] at huninstalled
      cases huninstalled
    | ok other =>
      rw [hname] at huninstalled
      cases huninstalled
      rfl
  · intro h
    exact
      { uninstalled := by rw [wireguardDisconnectSpec, h]; rfl
        queried := by rw [wireguardServiceName, h]; rfl
        dumped := by rw [wgDumpArgs, h]; rfl }

/-! ### What the calls do -/

section
variable {V : Lib.Verdict IoError → Prop} {α : Type} {Q : α → Services → Prop}
  {E : IoError → Services → Prop}

section
variable {Q : Unit → Services → Prop} (hV : ¬V .crash)
include hV

theorem wp_fileStep (hok : Q () s) (hrefused : ∀ e, V (.fail e) → E e s) :
    wp V fileStep Q E (fun _ => False) s := by
  unfold fileStep systemStep
  apply wp_step
  · exact hV
  · exact hrefused
  · rintro _ _ ⟨⟩
    exact hok
  · rintro _ _ ⟨⟩

theorem wp_install {place : Place} (hinstalls : place.getLast?.bind withoutEnding = some name)
    (hok : name ∉ s.installed → Q () { s with installed := name :: s.installed })
    (herr : ∀ e, E e s) :
    wp V (runServiceCommand (.installTunnelService place)) Q E (fun _ => False) s := by
  have hrun : (ServiceCommand.installTunnelService place).run s =
      if name ∈ s.installed then (.error (failure "Tunnel already installed and running"), s)
      else (.ok (), { s with installed := name :: s.installed }) := by
    simp [ServiceCommand.run, hinstalls]
  unfold runServiceCommand systemStep
  apply wp_step
  · exact hV
  · exact fun e _ => herr e
  · intro _ s' h
    rw [hrun] at h
    split at h
    · cases h
    · cases h
      exact hok ‹_›
  · intro e s' h
    rw [hrun] at h
    split at h
    · cases h
      exact herr _
    · cases h

theorem wp_uninstall
    (hok : name ∈ s.installed → Q () { s with installed := s.installed.filter (· != name) })
    (hrefused : ∀ e, V (.fail e) → E e s) (habsent : name ∉ s.installed → ∀ e, E e s) :
    wp V (runServiceCommand (.uninstallTunnelService name)) Q E (fun _ => False) s := by
  have hrun : (ServiceCommand.uninstallTunnelService name).run s = if name ∈ s.installed then
        (.ok (), { s with installed := s.installed.filter (· != name) })
      else (.error (failure "The specified service does not exist as an installed service."), s) := by
    simp [ServiceCommand.run]
  unfold runServiceCommand systemStep
  apply wp_step
  · exact hV
  · exact hrefused
  · intro _ s' h
    rw [hrun] at h
    split at h
    · cases h
      exact hok ‹_›
    · cases h
  · intro e s' h
    rw [hrun] at h
    split at h
    · cases h
    · cases h
      exact habsent ‹_› _

end

/-- `connect` either installs the service of the copy, under a name that was free, or does
nothing. -/
theorem wp_connect : wp Lib.Verdict.Survives (connect p)
      (fun _ s' => ∃ safe name, vaultName p.id = .ok safe ∧ tunnelName p = .ok name ∧
        s'.installed = transientName safe :: s.installed ∧
        s'.wireguardServices = p.id :: s.wireguardServices)
      (fun _ s' => s' = s) (fun _ => False) s := by
  have hsurvives : ¬Lib.Verdict.Survives (.crash : Lib.Verdict IoError) := fun h => h rfl
  refine wp_read ?_
  split
  · exact wp_throw rfl
  refine wp_bind (wp_fileStep hsurvives ?_ fun _ _ => rfl)
  refine wp_bind (wp_fileStep hsurvives ?_ fun _ _ => rfl)
  refine wp_bind (wp_bind (wp_ofExcept ?_ fun _ _ => rfl))
  intro service hservice
  obtain ⟨name, hname⟩ : ∃ name, tunnelName p = .ok name := by
    cases hname : tunnelName p with
    | error e => simp [wireguardServiceName, hname] at hservice
    | ok name => exact ⟨name, rfl⟩
  apply wp_step
  · exact hsurvives
  · exact fun _ _ => rfl
  · rintro present _ ⟨⟩
    split
    · exact wp_throw rfl
    refine wp_bind (wp_bind (wp_fileStep hsurvives ?_ fun _ _ => rfl))
    refine wp_bind (wp_ofExcept ?_ fun _ _ => rfl)
    intro transient htransient
    refine wp_bind (wp_fileStep hsurvives ?_ fun _ _ => rfl)
    refine wp_bind (wp_fileStep hsurvives (wp_pure ?_) fun _ _ => rfl)
    obtain ⟨safe, hsafe, hinstalls⟩ := transientConfig_eq_ok htransient
    refine wp_bind (wp_install hsurvives hinstalls (fun _ => wp_modify ?_) fun _ => rfl)
    exact ⟨safe, name, hsafe, hname, rfl, rfl⟩
  · rintro _ _ ⟨⟩

/-- `disconnect` takes away the service of the profile's own config. -/
theorem wp_disconnect (hV : ¬V .crash) :
    wp V (disconnect p) (fun _ s' => ∃ name, tunnelName p = .ok name ∧ name ∈ s.installed ∧
        s'.installed = s.installed.filter (· != name) ∧
        s'.wireguardServices = s.wireguardServices.filter (· != p.id))
      (fun _ s' => s' = s ∧ ((∃ e, V (.fail e)) ∨
        ∀ name, tunnelName p = .ok name → name ∉ s.installed)) (fun _ => False) s := by
  refine wp_bind (wp_fileStep hV ?_ fun e he => ⟨rfl, .inl ⟨e, he⟩⟩)
  refine wp_bind (wp_ofExcept ?_ ?_)
  · intro command hcommand
    obtain ⟨name, hname⟩ : ∃ name, tunnelName p = .ok name := by
      cases hname : tunnelName p with
      | error e => simp [wireguardDisconnectSpec, hname] at hcommand
      | ok name => exact ⟨name, rfl⟩
    rw [(usesName_iff.mpr hname).uninstalled] at hcommand
    cases hcommand
    refine wp_bind (wp_uninstall hV ?_ (fun e he => ⟨rfl, .inl ⟨e, he⟩⟩) ?_)
    · exact fun hmem => wp_modify ⟨name, hname, hmem, rfl, rfl⟩
    · intro habsent e
      refine ⟨rfl, .inr fun other hother => ?_⟩
      rw [hname] at hother
      cases hother
      exact habsent
  · intro e he
    refine ⟨rfl, .inr fun name hname => ?_⟩
    rw [(usesName_iff.mpr hname).uninstalled] at he
    cases he

end

/-! ### Runs -/

/-- The connected profiles and the installed names belong to each other. -/
structure Booked (profiles : List Profiles.Profile) (s : Services) : Prop where
  installed : ∀ id ∈ s.wireguardServices, ∃ p ∈ profiles, p.id = id ∧
    ∃ safe name, vaultName id = .ok safe ∧ tunnelName p = .ok name ∧ name ∈ s.installed
  connected : ∀ name ∈ s.installed, ∃ p ∈ profiles, p.id ∈ s.wireguardServices ∧
    tunnelName p = .ok name

theorem eq_of_id (hids : (profiles.map Profiles.Profile.id).Nodup) (hp : p ∈ profiles)
    (hq : q ∈ profiles) (hid : p.id = q.id) : p = q :=
  inj_on_of_nodup_map hids hp hq hid

theorem Booked.connect (h : Booked profiles s) (hagree : Agreeing profiles) (hp : p ∈ profiles)
    (hsafe : vaultName p.id = .ok safe) (hname : tunnelName p = .ok name) {s' : Services}
    (hinstalled : s'.installed = transientName safe :: s.installed)
    (hservices : s'.wireguardServices = p.id :: s.wireguardServices) : Booked profiles s' := by
  obtain ⟨rfl, -⟩ := hagree p hp safe name hsafe hname
  constructor
  · intro id hid
    rw [hservices] at hid
    rw [hinstalled]
    rcases mem_cons.mp hid with rfl | hid
    · exact ⟨p, hp, rfl, safe, _, hsafe, hname, mem_cons_self⟩
    · obtain ⟨q, hq, hqid, other, name, hother, hqname, hmem⟩ := h.installed id hid
      exact ⟨q, hq, hqid, other, name, hother, hqname, mem_cons_of_mem _ hmem⟩
  · intro other hother
    rw [hinstalled] at hother
    rw [hservices]
    rcases mem_cons.mp hother with rfl | hother
    · exact ⟨p, hp, mem_cons_self, hname⟩
    · obtain ⟨q, hq, hqid, hqname⟩ := h.connected other hother
      exact ⟨q, hq, mem_cons_of_mem _ hqid, hqname⟩

theorem Booked.disconnect (h : Booked profiles s) (hids : (profiles.map Profiles.Profile.id).Nodup)
    (hagree : Agreeing profiles) (hp : p ∈ profiles) (hname : tunnelName p = .ok name)
    {s' : Services} (hinstalled : s'.installed = s.installed.filter (· != name))
    (hservices : s'.wireguardServices = s.wireguardServices.filter (· != p.id)) :
    Booked profiles s' := by
  constructor
  · intro id hid
    rw [hservices, mem_filter, bne_iff_ne] at hid
    obtain ⟨q, hq, rfl, safe, other, hsafe, hqname, hmem⟩ := h.installed id hid.1
    refine ⟨q, hq, rfl, safe, other, hsafe, hqname, ?_⟩
    rw [hinstalled, mem_filter, bne_iff_ne]
    refine ⟨hmem, fun heq => hid.2 ?_⟩
    -- Nobody else has a config under the name of a connected profile.
    subst heq
    rw [(hagree q hq safe other hsafe hqname).2 p hp hname]
  · intro other hother
    rw [hinstalled, mem_filter, bne_iff_ne] at hother
    obtain ⟨q, hq, hqid, hqname⟩ := h.connected other hother.1
    refine ⟨q, hq, ?_, hqname⟩
    rw [hservices, mem_filter, bne_iff_ne]
    refine ⟨hqid, fun heq => hother.2 ?_⟩
    rw [eq_of_id hids hq hp heq, hname] at hqname
    exact (Except.ok.inj hqname).symm

/-- What a call keeps whether it returns or is refused, it keeps. -/
theorem state_of_wp {m : ServiceCall Unit} {I : Services → Prop} {vs : List (Lib.Verdict IoError)}
    (h : wp Lib.Verdict.Survives m (fun _ => I) (fun _ => I) (fun _ => False) s)
    (hvs : ∀ v ∈ vs, Lib.Verdict.Survives v) : I (m s vs).2.1 := by
  have hend := h vs hvs
  generalize m s vs = r at hend
  obtain ⟨outcome, s', rest⟩ := r
  cases outcome with
  | ok _ => exact hend.2
  | err _ => exact hend.2
  | crash => exact hend.elim

theorem Reached.booked (h : Reached profiles s) (hids : (profiles.map Profiles.Profile.id).Nodup)
    (hagree : Agreeing profiles) : Booked profiles s := by
  have hsurvives : ¬Lib.Verdict.Survives (.crash : Lib.Verdict IoError) := fun h => h rfl
  induction h with
  | start => exact ⟨fun _ h => absurd h not_mem_nil, fun _ h => absurd h not_mem_nil⟩
  | connect _ hp hvs ih =>
    refine state_of_wp (wp_ends wp_connect ?_ ?_) hvs
    · rintro _ s' ⟨safe, name, hsafe, hname, hinstalled, hservices⟩
      exact ih.connect hagree hp hsafe hname hinstalled hservices
    · rintro _ _ rfl
      exact ih
  | disconnect _ hp hvs ih =>
    refine state_of_wp (wp_ends (wp_disconnect hsurvives) ?_ ?_) hvs
    · rintro _ s' ⟨name, hname, -, hinstalled, hservices⟩
      exact ih.disconnect hids hagree hp hname hinstalled hservices
    · rintro _ _ ⟨rfl, -⟩
      exact ih

theorem Booked.follows (h : Booked profiles s) (hids : (profiles.map Profiles.Profile.id).Nodup)
    (hagree : Agreeing profiles) : Follows profiles s where
  installed := by
    intro id hid
    obtain ⟨p, hp, hpid, -, name, -, hname, hmem⟩ := h.installed id hid
    exact ⟨p, hp, hpid, name, hmem, usesName_iff.mpr hname⟩
  connected := by
    intro name hmem
    obtain ⟨p, hp, hpid, hname⟩ := h.connected name hmem
    exact ⟨p, hp, hpid, usesName_iff.mpr hname⟩
  distinct := by
    intro p hp q hq _ hqid name hpname hqname
    obtain ⟨q', hq', hid, safe, other, hsafe, -, -⟩ := h.installed q.id hqid
    exact (hagree q hq safe name hsafe (usesName_iff.mp hqname)).2 p hp (usesName_iff.mp hpname)
  disconnects := by
    intro p hp hpid
    obtain ⟨q, hq, hid, -, name, -, hname, hmem⟩ := h.installed p.id hpid
    rw [eq_of_id hids hq hp hid] at hname
    refine ⟨name, usesName_iff.mpr hname, wp_mono (wp_disconnect fun h => by cases h) ?_ ?_ ?_⟩
    · rintro _ s' ⟨other, hother, -, hinstalled, hservices⟩
      rw [hname] at hother
      cases hother
      exact ⟨hservices, hinstalled⟩
    · rintro _ _ ⟨-, ⟨e, he⟩ | habsent⟩
      · cases he
      · exact habsent name hname hmem
    · exact fun _ h => h

/-! ### Where it goes wrong -/

section
variable (hsafe : vaultName p.id = .ok safe) (hname : tunnelName p = .ok name)
include hsafe hname

theorem transientConfig_of_names : ∃ place, transientConfig p = .ok place ∧
      place.getLast?.bind withoutEnding = some (transientName safe) := by
  have hplace : windowsPlace p.configPath ≠ [] := by
    intro hempty
    rw [tunnelName, hempty] at hname
    cases hname
  refine ⟨(windowsPlace p.configPath).dropLast ++ [safe ++ ".table-off.conf".toList], ?_, ?_⟩
  · simp only [transientConfig, hplace, if_false, hsafe]
    rfl
  · rw [getLast?_concat]
    exact withoutEnding_transient safe

/-- Nothing fails, and nothing has been installed: the profile is connected. -/
theorem connect_first : ((connect p) {} []).2.1.installed = [transientName safe] ∧
      ((connect p) {} []).2.1.wireguardServices = [p.id] := by
  obtain ⟨place, hplace, hinstalls⟩ := transientConfig_of_names hsafe hname
  have hfile : ∀ s : Services, fileStep s [] = (.ok (), s, []) := fun _ => rfl
  have hquery : queryWireguardService p {} [] = (.ok false, {}, []) := by
    rw [queryWireguardService, (usesName_iff.mpr hname).queried]
    rfl
  have hspec : wireguardConnectSpec p {} [] = (.ok place, {}, []) := by
    rw [wireguardConnectSpec, hplace]
    rfl
  have hinstall : runServiceCommand (.installTunnelService place) {} [] =
      (.ok (), { installed := [transientName safe] }, []) := by
    simp [runServiceCommand, systemStep, step, ServiceCommand.run, hinstalls]
  have hrun : connect p {} [] = (.ok (),
      { installed := [transientName safe]
        wireguardServices := [p.id]
        wireguardTransientConfigs := [(p.id, place)] }, []) := by
    have hunknown : ¬([] : List String).contains p.id = true := by simp
    rw [connect, bind_of_ok (gets_apply ..), if_neg hunknown, bind_of_ok (hfile _),
      bind_of_ok (hfile _), bind_of_ok hquery, if_neg Bool.false_ne_true, bind_of_ok hspec,
      bind_of_ok hinstall]
    rfl
  rw [hrun]
  exact ⟨rfl, rfl⟩

end

theorem disconnect_other {s : Services} (hname : tunnelName q = .ok name)
    (hmem : name ∈ s.installed) (hq : q.id ∉ s.wireguardServices) :
    ((disconnect q) s []).2.1.installed = s.installed.filter (· != name) ∧
      ((disconnect q) s []).2.1.wireguardServices = s.wireguardServices := by
  have h := wp_disconnect (p := q) (s := s) (V := Verdict.Quiet) (fun h => by cases h)
  obtain ⟨_, s', rest, hrun, other, hother, -, hinstalled, hservices⟩ :=
    run_of_succeeds (wp_ends h (fun _ _ h => h) (by
      rintro _ _ ⟨-, ⟨e, he⟩ | habsent⟩
      · cases he
      · exact habsent name hname hmem))
  rw [hname] at hother
  cases hother
  rw [hrun]
  refine ⟨hinstalled, ?_⟩
  rw [hservices, filter_eq_self]
  intro id hid
  rw [bne_iff_ne]
  rintro rfl
  exact hq hid

theorem agreeing_of_follows (hids : (profiles.map Profiles.Profile.id).Nodup)
    (h : ∀ s, Reached profiles s → Follows profiles s) : Agreeing profiles := by
  intro p hp safe name hsafe hname
  have hquiet : ∀ v ∈ ([] : List (Lib.Verdict IoError)), Lib.Verdict.Survives v :=
    fun _ h => absurd h not_mem_nil
  have hreached : Reached profiles (connect p {} []).2.1 := .connect .start hp hquiet
  obtain ⟨hinstalled, hservices⟩ := connect_first hsafe hname
  -- What is installed is what the others ask for.
  have heq : name = transientName safe := by
    obtain ⟨q, hq, hid, other, hother, huses⟩ :=
      (h _ hreached).installed p.id (by rw [hservices]; exact mem_singleton_self _)
    rw [eq_of_id hids hq hp hid, usesName_iff, hname] at huses
    cases huses
    rw [hinstalled] at hother
    exact mem_singleton.mp hother
  refine ⟨heq, fun q hq hqname => ?_⟩
  by_contra hne
  -- The other profile's disconnect takes the service away.
  have hqid : q.id ≠ p.id := fun hid => hne (eq_of_id hids hq hp hid)
  obtain ⟨hgone, hkept⟩ := disconnect_other (s := (connect p {} []).2.1) hqname
    (by rw [hinstalled, heq]; exact mem_singleton_self _)
    (by rw [hservices]; simpa using hqid)
  obtain ⟨-, -, -, other, hother, -⟩ :=
    (h _ (.disconnect hreached hq hquiet)).installed p.id
      (by rw [hkept, hservices]; exact mem_singleton_self _)
  rw [hgone, hinstalled, heq] at hother
  simp at hother

/-- The services follow the manager over every run exactly for such profiles. -/
theorem services_follow_iff (hids : (profiles.map Profiles.Profile.id).Nodup) :
    (∀ s, Reached profiles s → Follows profiles s) ↔ Agreeing profiles :=
  ⟨agreeing_of_follows hids, fun hagree _ h => (h.booked hids hagree).follows hids hagree⟩

/-- Two configs, each under the name of its copy. -/
def workProfile : Profiles.Profile :=
  { id := "work", backend := .wireGuard, configPath := "C:\\vpn\\work.table-off.conf" }

def homeProfile : Profiles.Profile :=
  { id := "home", backend := .wireGuard, configPath := "C:\\vpn\\home.table-off.conf" }

theorem namedProfiles_follow : Agreeing [workProfile, homeProfile] ∧
    ∀ s, Reached [workProfile, homeProfile] s → Follows [workProfile, homeProfile] s := by
  have hwork : vaultName workProfile.id = .ok "work".toList := by rfl
  have hhome : vaultName homeProfile.id = .ok "home".toList := by rfl
  have hworkName : tunnelName workProfile = .ok "work.table-off".toList := by rfl
  have hhomeName : tunnelName homeProfile = .ok "home.table-off".toList := by rfl
  have hne : "work.table-off".toList ≠ "home.table-off".toList := by decide
  have hagree : Agreeing [workProfile, homeProfile] := by
    intro p hp safe name hsafe hname
    simp only [List.mem_cons, List.not_mem_nil, or_false] at hp
    rcases hp with rfl | rfl
    · rw [hwork] at hsafe
      rw [hworkName] at hname
      cases hsafe
      cases hname
      refine ⟨rfl, fun q hq hqname => ?_⟩
      simp only [List.mem_cons, List.not_mem_nil, or_false] at hq
      rcases hq with rfl | rfl
      · rfl
      · rw [hhomeName] at hqname
        exact absurd (Except.ok.inj hqname).symm hne
    · rw [hhome] at hsafe
      rw [hhomeName] at hname
      cases hsafe
      cases hname
      refine ⟨rfl, fun q hq hqname => ?_⟩
      simp only [List.mem_cons, List.not_mem_nil, or_false] at hq
      rcases hq with rfl | rfl
      · rw [hworkName] at hqname
        exact absurd (Except.ok.inj hqname) hne
      · rfl
  exact ⟨hagree, (services_follow_iff (by decide)).mpr hagree⟩

/-- A config where the vault puts it. -/
def storedProfile : Profiles.Profile :=
  { id := "work", backend := .wireGuard, configPath := "C:\\vault\\work\\rev-1\\work.conf" }

/-- Its service is `work.table-off`, and `disconnect` asks for `work`. -/
theorem storedProfile_not_followed :
    ([storedProfile].map Profiles.Profile.id).Nodup ∧
      ¬∀ s, Reached [storedProfile] s → Follows [storedProfile] s := by
  refine ⟨by simp, fun h => ?_⟩
  have hagree := agreeing_of_follows (by simp) h storedProfile (by simp) "work".toList
    "work".toList (by rfl) (by rfl)
  have hne : "work".toList ≠ transientName "work".toList := by decide
  exact hne hagree.1

end NetOrchestrator.Core.TunnelServices
