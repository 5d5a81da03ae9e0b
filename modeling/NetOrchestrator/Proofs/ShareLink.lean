import NetOrchestrator.Proofs.XrayRules
import NetOrchestrator.Core.XrayMatch

/-!
# `Proofs.ShareLink`: a profile's routing on a share link

The config of a share link has two outbounds, `proxy` and `direct`, and no rules. On it every
destination's tag is known (`shareLink_routed`): the two keep their tags, the block and the DNS
outbound are added under their usual names, and each interface gets a numbered one.
-/

namespace NetOrchestrator.Core

open Net Lib List Checks

/-- An outbound that the routing adds. -/
def addedOutbound (protocol tag : String) : Json :=
  .obj [("protocol", .str protocol), ("tag", .str tag)]

section
variable {proxy : Json} {rest : List Json} {used : List String}

theorem ShareLink.countedTag (h : ShareLink proxy) : countedTag proxy = some "proxy" :=
  countedTag_of_rawTag h.tag (by decide) (by decide)

theorem countedTag_directOutbound : countedTag directOutbound = some "direct" := by decide

section
variable (h : ShareLink proxy)
include h

theorem ShareLink.countedTags : countedTags [proxy, directOutbound] = ["proxy", "direct"] := by
  simp [Core.countedTags, h.countedTag, countedTag_directOutbound]

theorem ShareLink.not_hasProtocol :
    hasProtocol "freedom" proxy = false ∧ hasProtocol "blackhole" proxy = false ∧
      hasProtocol "dns" proxy = false :=
  ⟨Destination.disjoint (d := .proxy) (e := .direct) (by decide) h.eligible,
    Destination.disjoint (d := .proxy) (e := .block) (by decide) h.eligible,
    Destination.disjoint (d := .proxy) (e := .dns) (by decide) h.eligible⟩

theorem resolveProxy_shareLink : resolveProxy ["proxy", "direct"] ⟨proxy :: rest, used⟩ =
      .ok (⟨proxy :: rest, used⟩, "proxy") := by
  simp [resolveProxy, findIdx?_cons, h.eligible, resolveAt, resolveOutboundTag, h.countedTag,
    bind, Except.bind]

theorem resolveDirect_shareLink :
    resolveShared ["proxy", "direct"] "freedom" "network-orchestrator-direct"
        ⟨[proxy, directOutbound], used⟩ = .ok (⟨[proxy, directOutbound], used⟩, "direct") := by
  have hdirect : hasProtocol "freedom" directOutbound = true := by decide
  simp [resolveShared, findIdx?_cons, h.not_hasProtocol, hdirect, resolveAt,
    resolveOutboundTag, countedTag_directOutbound, bind, Except.bind]

end

/-- A destination without an outbound, whose usual tag is free. -/
theorem resolveShared_added {counts : List String} {protocol base : String} {st : OutboundState}
    (hnone : ∀ o ∈ st.outbounds, hasProtocol protocol o = false) (hfree : base ∉ st.used) :
    resolveShared counts protocol base st =
      .ok (⟨st.outbounds ++ [addedOutbound protocol base], base :: st.used⟩, base) := by
  have hfind : st.outbounds.findIdx? (hasProtocol protocol) = none := by
    rw [findIdx?_eq_none_iff]
    exact hnone
  have hcounted : Core.countedTag (.object [("protocol", .str protocol)]) = none := rfl
  have hput : (Json.object [("protocol", .str protocol)]).put "tag" (.str base) =
      some (addedOutbound protocol base) := by
    simp only [Json.object, foldl_cons, foldl_nil, insertField_nil, Json.put]
    rw [insertField_behind (by decide), insertField_nil]
    rfl
  have hcandidate : firstFree (tagCandidate base) st.used 0 st.used.length = base :=
    firstFree_of_not_mem (show tagCandidate base 0 ∉ st.used from hfree) _
  simp [resolveShared, hfind, resolveAt, resolveOutboundTag, hcounted, newTag, hcandidate, hput,
    bind, Except.bind]

/-- The DNS outbound goes behind the block outbound, where there is one. -/
theorem resolveDns_shareLink (h : ShareLink proxy) (blocked : Bool) : let st : OutboundState :=
      if blocked then
        ⟨[proxy, directOutbound] ++ [addedOutbound "blackhole" "network-orchestrator-block"],
          ["network-orchestrator-block", "proxy", "direct"]⟩
      else ⟨[proxy, directOutbound], ["proxy", "direct"]⟩
    resolveShared ["proxy", "direct"] "dns" "dns-out" st =
      .ok (⟨st.outbounds ++ [addedOutbound "dns" "dns-out"], "dns-out" :: st.used⟩, "dns-out") := by
  obtain ⟨-, -, hproxy⟩ := h.not_hasProtocol
  have hdirect : hasProtocol "dns" directOutbound = false := by decide
  have hblock : hasProtocol "dns" (addedOutbound "blackhole" "network-orchestrator-block") =
      false := by decide
  refine resolveShared_added ?_ ?_
  · cases blocked <;> simp [hproxy, hdirect, hblock]
  · cases blocked <;> simp

end

variable {t : String} {identity : InterfaceIdentity}

theorem resolveIf_ok {needed : Bool} {st st₁ st' : OutboundState}
    {found : Option String} {resolve : OutboundState → Except XrayError (OutboundState × String)}
    (hresolve : resolve st = .ok (st₁, t)) (h : resolveIf needed resolve st = .ok (st', found)) :
    st' = (if needed then st₁ else st) ∧ found = if needed then some t else none := by
  unfold resolveIf at h
  cases needed with
  | true =>
    rw [if_pos rfl, hresolve] at h
    cases h
    exact ⟨rfl, rfl⟩
  | false =>
    cases h
    exact ⟨rfl, rfl⟩

/-- A tag that only interfaces get. -/
def InterfaceTag (tag : String) : Prop := ∃ k, tag = tagCandidate "network-orchestrator-interface" k

/-- An outbound with such a tag. -/
def InterfaceTagged (o : Json) : Prop := ∃ tag, rawTag o = some tag ∧ InterfaceTag tag

theorem resolveInterface_ok {counts used used' : List String} {o : Json}
    (h : resolveOutboundTag (interfaceOutbound identity) "network-orchestrator-interface" counts
      used = .ok (o, used', t)) : rawTag o = some t ∧ InterfaceTag t := by
  rw [resolveOutboundTag, countedTag_interfaceOutbound] at h
  unfold newTag at h
  simp only at h
  split at h
  · rename_i outbound hput
    cases h
    obtain ⟨k, -, hk⟩ := exists_firstFree_eq (tagCandidate "network-orchestrator-interface")
      used 0 used.length
    exact ⟨rawTag_put hput, k, hk⟩
  · cases h

/-- What is added for interfaces has tags that only they get. -/
theorem addInterfaces_shape {counts : List String} {routes : List XrayInterfaceRoute}
    {st st' : OutboundState} {tags tags' : List (InterfaceIdentity × String)}
    (htags : ∀ e ∈ tags, InterfaceTag e.2)
    (h : addInterfaces counts routes st tags = .ok (st', tags')) : (∀ e ∈ tags', InterfaceTag e.2) ∧
      ∃ extra, st'.outbounds = st.outbounds ++ extra ∧ ∀ o ∈ extra, InterfaceTagged o := by
  induction routes generalizing st tags with
  | nil =>
    cases h
    exact ⟨htags, [], by simp, by simp⟩
  | cons route rest ih =>
    unfold addInterfaces at h
    split at h
    · exact ih htags h
    · obtain ⟨⟨o, used, t⟩, hresolve, h⟩ := bind_eq_ok.mp h
      obtain ⟨htag, hinterface⟩ := resolveInterface_ok hresolve
      have hmore : ∀ e ∈ tags ++ [(route.identity, t)], InterfaceTag e.2 := by
        intro e he
        rcases mem_append.mp he with he | he
        · exact htags e he
        · rw [mem_singleton.mp he]
          exact hinterface
      obtain ⟨htags', extra, hextra, htagged⟩ := ih hmore h
      refine ⟨htags', o :: extra, by simp [hextra], ?_⟩
      intro x hx
      rcases mem_cons.mp hx with rfl | hx
      · exact ⟨t, htag, hinterface⟩
      · exact htagged x hx

theorem lookup_mem {β : Type} {l : List (InterfaceIdentity × β)}
    {b : β} (h : l.lookup identity = some b) : (identity, b) ∈ l := by
  obtain ⟨before, after, hl, -⟩ := lookup_eq_some_iff.mp h
  rw [hl]
  simp

/-- The tags and the outbounds of a share link's routing. -/
structure ShareLinkRouted (policies : List DomainPolicy) (options : ProfileRoutingOptions)
    (proxy : Json) (outbounds : List Json) (tags : RouteTags) : Prop where
  proxy_tag : tags.proxy = if needsProxy policies options then some "proxy" else none
  direct_tag : tags.direct = if needsDirect policies options then some "direct" else none
  block_tag :
    tags.block = if rulesActive policies options then some "network-orchestrator-block" else none
  dns_tag : tags.dns = if dnsActive options then some "dns-out" else none
  interface_tag : ∀ identity tag, tags.interfaces.lookup identity = some tag → InterfaceTag tag
  faces : ∃ interfaces, (∀ o ∈ interfaces, InterfaceTagged o) ∧
    List.Forall₂ SameFace
      ([proxy, directOutbound] ++
        (if rulesActive policies options then
          [addedOutbound "blackhole" "network-orchestrator-block"]
        else []) ++
        (if dnsActive options then [addedOutbound "dns" "dns-out"] else []) ++ interfaces)
      outbounds

theorem shareLink_routed {policies : List DomainPolicy} {options : ProfileRoutingOptions}
    {proxy : Json} {outbounds : List Json} {tags : RouteTags} (hproxy : ShareLink proxy)
    (h : routedOutbounds policies options [proxy, directOutbound] = .ok (outbounds, tags)) :
    ShareLinkRouted policies options proxy outbounds tags := by
  unfold routedOutbounds at h
  rw [hproxy.countedTags] at h
  obtain ⟨⟨st₁, proxyTag⟩, h₁, h⟩ := bind_eq_ok.mp h
  obtain ⟨⟨st₂, directTag⟩, h₂, h⟩ := bind_eq_ok.mp h
  obtain ⟨⟨st₃, blockTag⟩, h₃, h⟩ := bind_eq_ok.mp h
  obtain ⟨⟨st₄, dnsTag⟩, h₄, h⟩ := bind_eq_ok.mp h
  obtain ⟨settings, hsettings, h⟩ := bind_eq_ok.mp h
  obtain ⟨⟨st₅, interfaces⟩, hinterfaces, h⟩ := bind_eq_ok.mp h
  obtain ⟨final, hfinal, h⟩ := bind_eq_ok.mp h
  cases h
  obtain ⟨-, hblackhole, -⟩ := hproxy.not_hasProtocol
  obtain ⟨rfl, rfl⟩ := resolveIf_ok (resolveProxy_shareLink hproxy) h₁
  simp only [ite_self] at h₂
  obtain ⟨rfl, rfl⟩ := resolveIf_ok (resolveDirect_shareLink hproxy) h₂
  simp only [ite_self] at h₃
  -- the block outbound, and then the DNS outbound behind it
  have hblocked : resolveShared ["proxy", "direct"] "blackhole" "network-orchestrator-block"
      ⟨[proxy, directOutbound], ["proxy", "direct"]⟩ = .ok (_, "network-orchestrator-block") :=
    resolveShared_added
      (by simpa [hblackhole] using (by decide : hasProtocol "blackhole" directOutbound = false))
      (by simp)
  obtain ⟨rfl, rfl⟩ := resolveIf_ok hblocked h₃
  have hresolved := resolveDns_shareLink hproxy (rulesActive policies options)
  obtain ⟨rfl, rfl⟩ := resolveIf_ok hresolved h₄
  obtain ⟨htags, extra, hextra, htagged⟩ := addInterfaces_shape (by simp) hinterfaces
  refine ⟨rfl, rfl, rfl, rfl, fun identity tag hlookup => htags _ (lookup_mem hlookup), ?_⟩
  have hface := outboundSettings_ok hsettings
  have hsockopts := (allSockopts_ok hfinal).imp fun _ _ h => h.toSameFace
  have htrans : ∀ a b c, SameFace a b → SameFace b c → SameFace a c := fun _ _ _ => .trans
  refine ⟨extra, htagged, forall₂_trans htrans ?_ hsockopts⟩
  rw [hextra]
  refine rel_append ?_ (forall₂_same.mpr fun o _ => .refl o)
  convert hface using 1
  cases rulesActive policies options <;> cases dnsActive options <;> simp

end NetOrchestrator.Core
