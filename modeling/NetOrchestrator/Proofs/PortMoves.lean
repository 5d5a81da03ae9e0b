import NetOrchestrator.Core.ConnectPorts

/-!
# `Proofs.PortMoves`: a move of listener ports happens or it does not

A call that writes no config changes nothing. One that does changes the caller's profile right away,
so an error of the store comes too late for it, and one of the last removal too late for the store.
`port_move_all_or_nothing_iff` says what a call needs: once it writes a config, nothing else may
fail. What is moved then is right if the config has one inbound for each of the stored ports.
-/

namespace NetOrchestrator.Core.Profiles

open Lib Core.Errors List Option
open Lib.Checks (bind_eq_ok map_eq_ok)

/-! ### Unmoved and moved callers -/

/-- The inbounds with a tag. -/
def taggedInbounds (tag : String) (config : Json) : List Json :=
  ((config.index "inbounds").asArray.getD []).filter fun inbound => inbound.text? "tag" = some tag

/-- The ports of the inbounds with a tag. -/
def portsOf (tag : String) (config : Json) : List Json :=
  (taggedInbounds tag config).map fun inbound => inbound.index "port"

/-- Nothing that the profile is about is different after the call. -/
structure Unmoved (before after : Caller) : Prop where
  profile : after.profile = before.profile
  profiles : after.profiles = before.profiles
  stored : after.state.profile before.profile.id = before.state.profile before.profile.id
  config : configAt before.profile.configPath after.state =
    configAt before.profile.configPath before.state
  storedConfig : ∀ stored, before.state.profile before.profile.id = some stored →
    configAt stored.configPath after.state = configAt stored.configPath before.state

/-- The caller's profile is the stored one, and its config listens on its ports. They are ports
that were available, or the ones it had. -/
structure MovedTo (available : Nat → Bool) (before after : Caller) : Prop where
  stored : after.state.profile before.profile.id = some after.profile
  config : ∃ socks config, after.profile.xraySocksPort = some socks ∧
    configAt after.profile.configPath after.state = some config ∧
    portsOf "socks-in" config = [.nat socks] ∧
    portsOf "http-in" config = after.profile.xrayHttpPort.toList.map .nat
  distinct : after.profile.listenerPorts.Nodup
  nonzero : 0 ∉ after.profile.listenerPorts
  socks : ∀ port, after.profile.xraySocksPort = some port →
    available port = true ∨ before.profile.xraySocksPort = some port
  http : ∀ port, after.profile.xrayHttpPort = some port →
    available port = true ∨ before.profile.xrayHttpPort = some port

/-- An error leaves everything as it was, and a move is complete. -/
def MovedOrNot (move : PortMove) (caller : Caller) : Prop :=
  match prepareConnectPorts move caller with
  | (.error _, after) => Unmoved caller after
  | (.ok none, _) => True
  | (.ok (some _), after) => MovedTo move.available caller after

/-! ### Its condition -/

/-- The call gets as far as writing a config for the profile `moved`. -/
def WritesConfig (move : PortMove) (caller : Caller) (moved : Profile) : Prop :=
  ∃ socks http, selectConnectPorts (move.configs caller.state) caller.profiles caller.profile
      move.available = .ok (some (socks, http)) ∧
    rewriteGeneratedProxyPorts (move.configs caller.state) caller.profile socks http = .ok moved

/-- The store would take the new path and ports. -/
def StoreAccepts (move : PortMove) (caller : Caller) (moved : Profile) : Prop :=
  ∃ document, updateProfile move.checks caller.profile.id (movePorts caller.profile moved)
    caller.state.store = .ok document

/-- The config has one inbound for each port of the profile. -/
def OneInboundEach (caller : Caller) : Prop :=
  ∃ config, configAt caller.profile.configPath caller.state = some config ∧
    (taggedInbounds "socks-in" config).length = 1 ∧
    (taggedInbounds "http-in" config).length = caller.profile.xrayHttpPort.toList.length

/-! ### Inbounds -/

section
variable {tag other : String} {port : Nat} {inbounds changed : List Json}

/-- The first inbound with the tag is on the port, and the rest is as it was. -/
theorem ports_withInboundPort (h : withInboundPort tag port inbounds = .ok changed) :
    ∃ first rest, inbounds.filter (fun inbound => inbound.text? "tag" = some tag) = first :: rest ∧
      (changed.filter fun inbound => inbound.text? "tag" = some tag).map (Json.index · "port") =
        .nat port :: rest.map (Json.index · "port") := by
  induction inbounds generalizing changed with
  | nil => cases h
  | cons inbound inbounds ih =>
    rw [withInboundPort] at h
    split at h
    · rename_i htag
      cases hput : inbound.put "port" (.nat port) with
      | none =>
        rw [hput] at h
        cases h
      | some moved =>
        rw [hput] at h
        cases h
        have hmoved : moved.text? "tag" = some tag := by
          rw [Json.text?, Json.index_put_of_ne hput (by decide)]
          exact htag
        refine ⟨inbound, inbounds.filter fun i => i.text? "tag" = some tag, ?_, ?_⟩
        · rw [filter_cons_of_pos (by simp [htag])]
        · rw [filter_cons_of_pos (by simp [hmoved]), map_cons, Json.index_put hput, if_pos rfl]
    · rename_i htag
      obtain ⟨rest', hrest', hchanged⟩ := bind_eq_ok.mp h
      cases hchanged
      obtain ⟨first, rest, hfilter, hports⟩ := ih hrest'
      refine ⟨first, rest, ?_, ?_⟩
      · rw [filter_cons_of_neg (by simp [htag])]
        exact hfilter
      · rw [filter_cons_of_neg (by simp [htag])]
        exact hports

theorem filter_withInboundPort (h : withInboundPort tag port inbounds = .ok changed)
    (hother : other ≠ tag) : changed.filter (fun inbound => inbound.text? "tag" = some other) =
      inbounds.filter fun inbound => inbound.text? "tag" = some other := by
  induction inbounds generalizing changed with
  | nil => cases h
  | cons inbound inbounds ih =>
    rw [withInboundPort] at h
    split at h
    · rename_i htag
      cases hput : inbound.put "port" (.nat port) with
      | none =>
        rw [hput] at h
        cases h
      | some moved =>
        rw [hput] at h
        cases h
        have hmoved : moved.text? "tag" = some tag := by
          rw [Json.text?, Json.index_put_of_ne hput (by decide)]
          exact htag
        rw [filter_cons_of_neg (by simp [hmoved, Ne.symm hother]),
          filter_cons_of_neg (by simp [htag, Ne.symm hother])]
    · obtain ⟨rest', hrest', hchanged⟩ := bind_eq_ok.mp h
      cases hchanged
      rw [filter_cons, filter_cons, ih hrest']

variable {doc config : Json} {newSocks : Nat} {newHttp : Option Nat}

variable (h : rewrittenConfig doc newSocks newHttp = .ok config)
include h

/-- A config that is rewritten has its inbounds moved one after the other. -/
theorem rewrittenConfig_eq_ok :
    ∃ inbounds withSocks withHttp, (doc.index "inbounds").asArray = some inbounds ∧
      withInboundPort "socks-in" newSocks inbounds = .ok withSocks ∧
      (match newHttp with
        | none => withHttp = withSocks
        | some port => withInboundPort "http-in" port withSocks = .ok withHttp) ∧
      doc.put "inbounds" (.arr withHttp) = some config := by
  unfold rewrittenConfig at h
  split at h
  · cases h
  · rename_i inbounds hinbounds
    obtain ⟨withSocks, hsocks, h⟩ := bind_eq_ok.mp h
    cases newHttp with
    | none =>
      dsimp only [bind, Except.bind] at h
      split at h
      · rename_i hdoc
        cases h
        exact ⟨inbounds, withSocks, withSocks, hinbounds, hsocks, rfl, hdoc⟩
      · cases h
    | some port =>
      obtain ⟨withHttp, hhttp, h⟩ := bind_eq_ok.mp h
      dsimp only at h
      split at h
      · rename_i hdoc
        cases h
        exact ⟨inbounds, withSocks, withHttp, hinbounds, hsocks, hhttp, hdoc⟩
      · cases h

/-- The rewritten config, tag by tag. -/
theorem ports_rewrittenConfig : (∃ first rest, taggedInbounds "socks-in" doc = first :: rest ∧
      portsOf "socks-in" config = .nat newSocks :: rest.map (Json.index · "port")) ∧
    match newHttp with
    | none => portsOf "http-in" config = portsOf "http-in" doc
    | some port => ∃ first rest, taggedInbounds "http-in" doc = first :: rest ∧
        portsOf "http-in" config = .nat port :: rest.map (Json.index · "port") := by
  obtain ⟨inbounds, withSocks, withHttp, hinbounds, hsocks, hhttp, hput⟩ := rewrittenConfig_eq_ok h
  have hdoc : (doc.index "inbounds").asArray.getD [] = inbounds := by rw [hinbounds]; rfl
  have hconfig : (config.index "inbounds").asArray.getD [] = withHttp := by
    rw [Json.index_put hput, if_pos rfl]
    rfl
  obtain ⟨first, rest, hfirst, hports⟩ := ports_withInboundPort hsocks
  have hhttpIn := filter_withInboundPort hsocks (show "http-in" ≠ "socks-in" by decide)
  simp only [taggedInbounds, portsOf, hdoc, hconfig]
  cases newHttp with
  | none =>
    cases hhttp
    exact ⟨⟨first, rest, hfirst, hports⟩, by rw [hhttpIn]⟩
  | some port =>
    have hsocksIn := filter_withInboundPort hhttp (show "socks-in" ≠ "http-in" by decide)
    obtain ⟨first', rest', hfirst', hports'⟩ := ports_withInboundPort hhttp
    rw [hhttpIn] at hfirst'
    exact ⟨⟨first, rest, hfirst, by rw [hsocksIn]; exact hports⟩, first', rest', hfirst', hports'⟩

end

/-! ### Writing the config -/

section
variable {move : PortMove} {profile moved : Profile} {newSocks : Nat} {newHttp : Option Nat}
  {state stored : VaultState} {e : IoError}

/-- What has been written for the moved profile, at a place where nothing was. -/
structure Rewritten (move : PortMove) (profile : Profile) (newSocks : Nat) (newHttp : Option Nat)
    (state : VaultState) (moved : Profile) (stored : VaultState) (name : List Char)
    (doc config : Json) : Prop where
  managed : isManagedProfilePath move.root profile.id profile.configPath = true
  socks_ne : newSocks ≠ 0
  http_ne : newHttp ≠ some 0
  apart : newHttp ≠ some newSocks
  same : profile.xrayHttpPort.isSome = newHttp.isSome
  doc_eq : configAt profile.configPath state = some doc
  config_eq : rewrittenConfig doc newSocks newHttp = .ok config
  name_eq : vaultName profile.id = .ok name
  fresh : NewRevision move.root name move.nanos state
  moved_eq : moved = { profile with
    configPath := pathAt (configPlace move.root name move.nanos)
    xraySocksPort := some newSocks
    xrayHttpPort := newHttp }
  stored_eq : stored = { state with
    configs := (configPlace move.root name move.nanos, config) :: state.configs }

theorem readConfig_eq_ok {path : String} {doc : Json} (h : move.readConfig state path = .ok doc) :
    configAt path state = some doc := by
  unfold PortMove.readConfig at h
  split at h
  · cases h
  · rename_i config hconfig
    split at h
    · cases h
    · cases h
      exact hconfig

/-- The profile that is written is the one of the config files' own account. -/
theorem fst_rewriteProxyPorts : (move.rewriteProxyPorts profile newSocks newHttp state).1 =
      rewriteGeneratedProxyPorts (move.configs state) profile newSocks newHttp := by
  unfold PortMove.rewriteProxyPorts rewriteGeneratedProxyPorts PortMove.configs
  dsimp only
  split
  · rfl
  split
  · rfl
  cases move.readConfig state profile.configPath with
  | error e => rfl
  | ok doc =>
    cases hconfig : rewrittenConfig doc newSocks newHttp with
    | error e => simp [hconfig, bind, Except.bind]
    | ok config =>
      simp only [hconfig, bind, Except.bind]
      cases storeGeneratedXray move.root profile.id move.nanos config move.storeFault state with
      | mk result after =>
        cases result with
        | error e => rfl
        | ok configPath => rfl

theorem rewriteProxyPorts_eq_error
    (h : move.rewriteProxyPorts profile newSocks newHttp state = (.error e, stored)) :
    stored = state := by
  unfold PortMove.rewriteProxyPorts at h
  split at h
  · cases h
    rfl
  split at h
  · cases h
    rfl
  split at h
  · cases h
    rfl
  split at h
  · rename_i hstore
    cases h
    exact storeGeneratedXray_eq_error hstore
  · cases h

theorem rewriteProxyPorts_eq_ok
    (h : move.rewriteProxyPorts profile newSocks newHttp state = (.ok moved, stored)) :
    ∃ name doc config,
      Rewritten move profile newSocks newHttp state moved stored name doc config := by
  unfold PortMove.rewriteProxyPorts at h
  split at h
  · cases h
  rename_i hmanaged
  split at h
  · cases h
  rename_i hports
  split at h
  · cases h
  rename_i config hconfig
  split at h
  · cases h
  rename_i configPath after hstore
  cases h
  simp only [not_or, Bool.not_eq_false, Decidable.not_not] at hmanaged hports
  obtain ⟨doc, hread, hrewritten⟩ := bind_eq_ok.mp hconfig
  obtain ⟨name, hname, hfresh, rfl, hafter⟩ := storeGeneratedXray_eq_ok hstore
  exact ⟨name, doc, config,
    { managed := hmanaged.2.2
      socks_ne := hports.1
      http_ne := hports.2.1
      apart := hports.2.2.1
      same := hports.2.2.2
      doc_eq := readConfig_eq_ok hread
      config_eq := hrewritten
      name_eq := hname
      fresh := hfresh
      moved_eq := rfl
      stored_eq := hafter }⟩

end

section
variable {move : PortMove} {profile moved : Profile} {newSocks : Nat} {newHttp : Option Nat}
  {state stored : VaultState} {name : List Char} {doc config : Json}
  (h : Rewritten move profile newSocks newHttp state moved stored name doc config)
include h

/-- The profile that has been moved is another one. -/
theorem Rewritten.moved_ne : moved.configPath ≠ profile.configPath := by
  intro hsame
  rw [h.moved_eq] at hsame
  have hnone := configAt_of_new h.name_eq h.fresh
  change pathAt (configPlace move.root name move.nanos) = profile.configPath at hsame
  rw [hsame, h.doc_eq] at hnone
  cases hnone

theorem Rewritten.store_eq : stored.store = state.store := by rw [h.stored_eq]

/-- The old config is not in the revision of the new one. -/
theorem Rewritten.other_revision :
    managedRevision move.root profile.configPath ≠ some (name, revisionName move.nanos) := by
  intro hmanaged
  have hdoc := h.doc_eq
  obtain ⟨place, hplace, hlookup⟩ := bind_eq_some_iff.mp hdoc
  have hmem : (place, doc) ∈ state.configs := by
    obtain ⟨_, _, hsplit, -⟩ := lookup_eq_some_iff.mp hlookup
    rw [hsplit]
    simp
  apply h.fresh _ hmem
  unfold managedRevision at hmanaged
  split at hmanaged
  · rename_i directory revision file hbelow
    split at hmanaged
    · cases hmanaged
      rw [belowRoot, hplace, bind_some] at hbelow
      rw [← isPrefixOf?_eq_some_iff_append_eq.mp hbelow, revisionPlace, prefix_append_right_inj]
      exact cons_prefix_cons.mpr ⟨rfl, cons_prefix_cons.mpr ⟨rfl, nil_prefix⟩⟩
    · cases hmanaged
  · cases hmanaged

end

/-! ### The ports -/

section
variable {configs : Configs} {used : List Nat} {available : Nat → Bool} {profiles : List Profile}
  {profile : Profile} {socks : Nat} {http : Option Nat}

theorem available_of_selectAvailable {port : Nat}
    (h : selectAvailableSocksPort used available = .ok port) : available port = true := by
  unfold selectAvailableSocksPort at h
  split at h
  · rename_i found hfound
    cases h
    have hfree := find?_some hfound
    rw [Bool.and_eq_true] at hfree
    exact hfree.2
  · cases h

theorem available_of_connectPort {port chosen : Nat}
    (h : connectPort used available port = .ok chosen) : available chosen = true := by
  unfold connectPort at h
  split at h
  · rename_i hkept
    cases h
    exact hkept
  · exact available_of_selectAvailable h

/-- Whatever is chosen is available. -/
theorem available_of_selectConnectPorts
    (h : selectConnectPorts configs profiles profile available = .ok (some (socks, http))) :
    available socks = true ∧ ∀ port, http = some port → available port = true := by
  unfold selectConnectPorts at h
  split at h
  · cases h
  · split at h
    · cases h
    · obtain ⟨socks', hsocks, h⟩ := bind_eq_ok.mp h
      obtain ⟨http', hhttp, h⟩ := bind_eq_ok.mp h
      cases h
      refine ⟨available_of_connectPort hsocks, ?_⟩
      intro port hport
      unfold connectHttpPort at hhttp
      split at hhttp
      · cases hhttp
        cases hport
      · obtain ⟨chosen, hchosen, hsome⟩ := map_eq_ok.mp hhttp
        rw [← hsome] at hport
        cases hport
        exact available_of_connectPort hchosen

end

/-! ### The call -/

section
variable {move : PortMove} {caller after : Caller} {moved updated : Profile} {newSocks : Nat}
  {newHttp : Option Nat} {stored state : VaultState} {name : List Char} {doc config : Json}
  {document : ProfileDocument} {e : IoError} {update : Profile → Except IoError Profile}

theorem unmoved_refl (caller : Caller) : Unmoved caller caller :=
  ⟨rfl, rfl, rfl, rfl, fun _ _ => rfl⟩

theorem updateStored_eq_error {id : String}
    (h : move.updateStored id update state = (.error e, stored)) : stored = state ∧
      ¬(move.updateFails = false ∧
        ∃ document, updateProfile move.checks id update state.store = .ok document) := by
  unfold PortMove.updateStored at h
  split at h
  · rename_i hfails
    cases h
    exact ⟨rfl, fun hgood => by rw [hgood.1] at hfails; cases hfails⟩
  · split at h
    · rename_i herror
      cases h
      refine ⟨rfl, ?_⟩
      rintro ⟨-, document, hdocument⟩
      rw [hdocument] at herror
      cases herror
    · cases h

theorem updateStored_eq_ok {id : String}
    (h : move.updateStored id update state = (.ok document, stored)) :
    move.updateFails = false ∧ updateProfile move.checks id update state.store = .ok document ∧
      stored = { state with store := some document } := by
  unfold PortMove.updateStored at h
  split at h
  · cases h
  · rename_i hfails
    split at h
    · cases h
    · rename_i hdocument
      cases h
      exact ⟨by simpa using hfails, hdocument, rfl⟩

/-- What the store has after the update. -/
theorem updated_of_movePorts {old : Profile}
    (h : updateProfile move.checks old.id (movePorts old moved) state.store = .ok document)
    (hid : moved.id = old.id) :
    ∃ updated, findProfile moved.id document.profiles = some updated ∧ updated.id = old.id ∧
      updated.configPath = moved.configPath ∧ updated.xraySocksPort = moved.xraySocksPort ∧
      updated.xrayHttpPort = moved.xrayHttpPort := by
  obtain ⟨stored, updated, hstored, hupdated, hprofiles⟩ := updateProfile_eq_ok h
  unfold movePorts at hupdated
  split at hupdated
  · cases hupdated
  · cases hupdated
    have hstoredId := id_of_findProfile hstored
    rw [hprofiles, hid]
    exact ⟨_, findProfile_replaceProfile hstoredId hstored, hstoredId, rfl, rfl, rfl⟩

/-- The last removal fails if it is refused, and changes nothing but the configs. -/
theorem dropOldRevision_eq (old moved : Profile) (caller : Caller)
    (hmanaged : isManagedProfilePath move.root caller.profile.id old.configPath = true) :
    (dropOldRevision move old moved caller).2.profile = caller.profile ∧
    (dropOldRevision move old moved caller).2.state =
      (removeRevisionForConfig move.root old.configPath move.removeFault caller.state).2 ∧
    (dropOldRevision move old moved caller).1 =
      if move.removeFails then .error writeFailed else .ok (some (portNotices old moved)) := by
  unfold dropOldRevision
  rw [if_pos hmanaged]
  unfold isManagedProfilePath at hmanaged
  unfold removeRevisionForConfig PortMove.removeFault
  cases hrevision : managedRevision move.root old.configPath with
  | none =>
    rw [hrevision] at hmanaged
    cases hmanaged
  | some found =>
    cases move.removeFails with
    | true => exact ⟨rfl, rfl, rfl⟩
    | false => exact ⟨rfl, rfl, rfl⟩

/-- A move that has gone through is right where the config has one inbound for each port. -/
theorem movedTo_iff
    (h : Rewritten move caller.profile newSocks newHttp caller.state moved stored name doc config)
    (havailable : move.available newSocks = true ∧
      ∀ port, newHttp = some port → move.available port = true)
    (hstored : after.state.profile caller.profile.id = some after.profile)
    (hpath : after.profile.configPath = moved.configPath)
    (hsocks : after.profile.xraySocksPort = some newSocks)
    (hhttp : after.profile.xrayHttpPort = newHttp)
    (hconfig : configAt moved.configPath after.state = some config) :
    MovedTo move.available caller after ↔ OneInboundEach caller := by
  have hcount : (portsOf "socks-in" config = [.nat newSocks] ∧
      portsOf "http-in" config = newHttp.toList.map .nat) ↔ OneInboundEach caller := by
    obtain ⟨⟨first, rest, hfirst, hports⟩, hhttpPorts⟩ := ports_rewrittenConfig h.config_eq
    have heach : OneInboundEach caller ↔ (taggedInbounds "socks-in" doc).length = 1 ∧
        (taggedInbounds "http-in" doc).length = caller.profile.xrayHttpPort.toList.length := by
      constructor
      · rintro ⟨found, hfound, hone⟩
        obtain rfl := Option.some.inj (hfound.symm.trans h.doc_eq)
        exact hone
      · exact fun hone => ⟨doc, h.doc_eq, hone⟩
    rw [heach]
    refine and_congr ?_ ?_
    · rw [hports, hfirst]
      simp
    · have hsame := h.same
      cases newHttp with
      | none =>
        have hnone : caller.profile.xrayHttpPort = none := by simpa using hsame
        rw [hhttpPorts, hnone, portsOf]
        simp
      | some port =>
        obtain ⟨first', rest', hfirst', hports'⟩ := hhttpPorts
        obtain ⟨old, hold⟩ := isSome_iff_exists.mp hsame
        rw [hports', hfirst', hold]
        simp
  rw [← hcount]
  constructor
  · intro hmoved
    obtain ⟨socks, found, hsocks', hfound, hin⟩ := hmoved.config
    rw [hpath, hconfig] at hfound
    obtain rfl := Option.some.inj hfound
    rw [hsocks] at hsocks'
    obtain rfl := Option.some.inj hsocks'
    rw [hhttp] at hin
    exact hin
  · intro hin
    have hlisted : after.profile.listenerPorts = newSocks :: newHttp.toList := by
      rw [Profile.listenerPorts, hsocks, hhttp]
      rfl
    exact
      { stored := hstored
        config := ⟨newSocks, config, hsocks, by rw [hpath]; exact hconfig, by rw [hhttp]; exact hin⟩
        distinct := by
          rw [hlisted]
          have hapart := h.apart
          cases newHttp with
          | none => simp
          | some port => simpa using fun heq : newSocks = port => hapart (by rw [heq])
        nonzero := by
          rw [hlisted]
          have hne := h.http_ne
          have hsocksNe := h.socks_ne
          cases newHttp with
          | none => simpa using hsocksNe.symm
          | some port => simpa using ⟨hsocksNe.symm, fun heq : 0 = port => hne (by rw [heq])⟩
        socks := by
          intro port hport
          rw [hsocks] at hport
          cases hport
          exact .inl havailable.1
        http := by
          intro port hport
          rw [hhttp] at hport
          exact .inl (havailable.2 port hport) }

/-- What the call comes to once the config is written. -/
theorem movedOrNot_of_rewritten
    (hselect : selectConnectPorts (move.configs caller.state) caller.profiles caller.profile
      move.available = .ok (some (newSocks, newHttp)))
    (hrewrite : move.rewriteProxyPorts caller.profile newSocks newHttp caller.state =
      (.ok moved, stored)) :
    MovedOrNot move caller ↔ move.updateFails = false ∧ StoreAccepts move caller moved ∧
      move.removeFails = false ∧ OneInboundEach caller := by
  obtain ⟨name, doc, config, h⟩ := rewriteProxyPorts_eq_ok hrewrite
  have hid : moved.id = caller.profile.id := by rw [h.moved_eq]
  unfold MovedOrNot prepareConnectPorts
  simp only [hselect, hrewrite]
  cases hupdate : move.updateStored moved.id (movePorts caller.profile moved) stored with
  | mk result updatedState =>
    cases result with
    | error e =>
      -- The caller's profile is the moved one by now.
      obtain ⟨-, hrefused⟩ := updateStored_eq_error hupdate
      rw [hid, h.store_eq] at hrefused
      simp only
      constructor
      · intro hunmoved
        exact absurd (congrArg Profile.configPath hunmoved.profile) h.moved_ne
      · rintro ⟨hfails, haccepts, -⟩
        exact absurd ⟨hfails, haccepts⟩ hrefused
    | ok document =>
      obtain ⟨hfails, hdocument, rfl⟩ := updateStored_eq_ok hupdate
      rw [hid, h.store_eq] at hdocument
      obtain ⟨updated, hfound, hupdatedId, hpath, hsocks, hhttp⟩ :=
        updated_of_movePorts hdocument hid
      have haccepts : StoreAccepts move caller moved := ⟨document, hdocument⟩
      simp only [hfound, getD_some]
      have hmanaged : isManagedProfilePath move.root updated.id
          caller.profile.configPath = true := by
        rw [hupdatedId]
        exact h.managed
      let landed : Caller :=
        ⟨{ stored with store := some document }, updated,
          replaceProfile updated.id updated caller.profiles⟩
      obtain ⟨hprofile, hstate, hresult⟩ := dropOldRevision_eq caller.profile moved landed hmanaged
      show (match dropOldRevision move caller.profile moved landed with
        | (.error _, after) => Unmoved caller after
        | (.ok none, _) => True
        | (.ok (some _), after) => MovedTo move.available caller after) ↔ _
      generalize dropOldRevision move caller.profile moved landed = last at *
      obtain ⟨answer, after⟩ := last
      simp only at hprofile hstate hresult
      cases hremove : move.removeFails with
      | true =>
        rw [hremove, if_pos rfl] at hresult
        subst hresult
        simp only [Bool.true_eq_false, false_and, and_false, iff_false]
        intro hunmoved
        have hsame := congrArg Profile.configPath hunmoved.profile
        rw [hprofile, hpath] at hsame
        exact h.moved_ne hsame
      | false =>
        rw [hremove, if_neg (by simp)] at hresult
        subst hresult
        simp only [hfails, haccepts, true_and]
        have hkept : after.state.store = some document := by
          rw [hstate]
          exact (removeRevision_eq rfl).1
        refine movedTo_iff h (available_of_selectConnectPorts hselect) ?_ ?_ ?_ ?_ ?_
        · rw [VaultState.profile, hkept, hprofile, ← hid]
          exact hfound
        · rw [hprofile, hpath]
        · rw [hprofile, hsocks, h.moved_eq]
        · rw [hprofile, hhttp, h.moved_eq]
        · rw [h.moved_eq]
          have hremoved : removeRevisionForConfig move.root caller.profile.configPath
              move.removeFault landed.state = ((removeRevisionForConfig move.root
                caller.profile.configPath move.removeFault landed.state).1, after.state) := by
            rw [hstate]
          have hconfigs : landed.state.configs =
              (configPlace move.root name move.nanos, config) :: caller.state.configs := by
            show stored.configs = _
            rw [h.stored_eq]
          exact configAt_of_removed h.name_eq hconfigs
            (fun hsame => absurd hsame h.other_revision) hremoved

/-- For every call: it happens or it does not, exactly if nothing fails once a config is written and
the config has one inbound for each stored port. -/
theorem port_move_all_or_nothing_iff (move : PortMove) (caller : Caller) :
    MovedOrNot move caller ↔ ∀ moved, WritesConfig move caller moved →
      move.updateFails = false ∧ StoreAccepts move caller moved ∧
        move.removeFails = false ∧ OneInboundEach caller := by
  cases hselect : selectConnectPorts (move.configs caller.state) caller.profiles caller.profile
      move.available with
  | error e =>
    have hunmoved : MovedOrNot move caller := by
      unfold MovedOrNot prepareConnectPorts
      simp only [hselect]
      exact unmoved_refl caller
    refine iff_of_true hunmoved ?_
    rintro moved ⟨socks, http, hports, -⟩
    rw [hselect] at hports
    cases hports
  | ok selected =>
    cases selected with
    | none =>
      have hunmoved : MovedOrNot move caller := by
        unfold MovedOrNot prepareConnectPorts
        simp only [hselect]
      refine iff_of_true hunmoved ?_
      rintro moved ⟨socks, http, hports, -⟩
      rw [hselect] at hports
      cases hports
    | some ports =>
      obtain ⟨socks, http⟩ := ports
      have hwrites : ∀ moved, WritesConfig move caller moved ↔
          (move.rewriteProxyPorts caller.profile socks http caller.state).1 = .ok moved := by
        intro moved
        rw [fst_rewriteProxyPorts]
        constructor
        · rintro ⟨socks', http', hports, hmoved⟩
          rw [hselect] at hports
          cases hports
          exact hmoved
        · exact fun hmoved => ⟨socks, http, hselect, hmoved⟩
      simp only [hwrites]
      cases hrewrite : move.rewriteProxyPorts caller.profile socks http caller.state with
      | mk result stored =>
        cases result with
        | error e =>
          -- Nothing has been written.
          obtain rfl := rewriteProxyPorts_eq_error hrewrite
          have hunmoved : MovedOrNot move caller := by
            unfold MovedOrNot prepareConnectPorts
            simp only [hselect, hrewrite]
            exact unmoved_refl caller
          refine iff_of_true hunmoved ?_
          rintro moved hmoved
          cases hmoved
        | ok moved =>
          rw [movedOrNot_of_rewritten hselect hrewrite]
          constructor
          · rintro hgood moved' hmoved'
            cases hmoved'
            exact hgood
          · exact fun hall => hall moved rfl

end

/-! ### A store that cannot be written -/

section
/-- The vault is in `/vault`, and the store cannot be written. -/
def readOnlyStore : PortMove where
  root := ⟨["vault".toList], by
    intro part hpart
    rw [List.mem_singleton] at hpart
    subst hpart
    exact ⟨by decide, by decide, by decide⟩⟩
  checks := ⟨fun _ => .ok (), fun _ => .ok ()⟩
  available port := port != 10808
  listeners _ := .ok []
  unreadable := none
  nanos := 2
  storeFails := false
  updateFails := true
  removeFails := false

def homeProfile : Profile :=
  { id := "home", name := "Home", backend := .xray, configPath := "/vault/home/rev-1/config.json",
    xraySocksPort := some 10808, xrayHttpPort := some 10809 }

def inboundOn (tag : String) (port : Nat) : Json := .object [("tag", .str tag), ("port", .nat port)]

/-- One profile on occupied ports. -/
def occupiedCaller : Caller where
  state :=
    { store := some ⟨1, [homeProfile]⟩
      sidecar := none
      configs := [(["vault", "home", "rev-1", "config.json"].map String.toList,
        .object [("inbounds", .arr [inboundOn "socks-in" 10808, inboundOn "http-in" 10809])])] }
  profile := homeProfile
  profiles := [homeProfile]

/-- The call fails, and the profile that is connected then has no config. -/
theorem profile_without_config :
    ¬MovedOrNot readOnlyStore occupiedCaller ∧
      (let (state, profile) := freeListenerPorts readOnlyStore occupiedCaller.state homeProfile
      profile.configPath = "/vault/home/rev-2/config.json" ∧
        configAt profile.configPath state = none) := by
  have hpath : (prepareConnectPorts readOnlyStore occupiedCaller).2.profile.configPath =
      "/vault/home/rev-2/config.json" := by decide
  have hfails : (prepareConnectPorts readOnlyStore occupiedCaller).1.isOk = false := by
    decide
  constructor
  · unfold MovedOrNot
    generalize prepareConnectPorts readOnlyStore occupiedCaller = run at hpath hfails
    obtain ⟨result, after⟩ := run
    cases result with
    | ok notice => cases hfails
    | error e =>
      intro hunmoved
      have hsame := congrArg Profile.configPath hunmoved.profile
      rw [hpath] at hsame
      revert hsame
      decide
  · have hboth : (freeListenerPorts readOnlyStore occupiedCaller.state homeProfile).2.configPath =
        "/vault/home/rev-2/config.json" ∧
        configAt (freeListenerPorts readOnlyStore occupiedCaller.state homeProfile).2.configPath
          (freeListenerPorts readOnlyStore occupiedCaller.state homeProfile).1 = none := by
      decide
    exact hboth

end

end NetOrchestrator.Core.Profiles
