import NetOrchestrator.Macos.WgEngine

/-!
# `Proofs.CryptokeyRouting`: which peer a packet belongs to

An address belongs to the peer with the longest `AllowedIPs` entry that contains it, and of
several such peers to the last one (`Runner.Owns`). `outgoing` follows this. `incoming` asks
only whether the source is in some entry of the peer it came from, so a peer can speak for
an address that belongs to another one. And a peer that already has an endpoint gets the
answer to its initiation there, not at the address the initiation came from: the endpoint
moves after the answers are out.

`routed_iff` says exactly which turns of the engine are right.
-/

namespace NetOrchestrator.Macos

open Net Lib List Option

section
variable {bt : Boringtun}
variable {peer : PeerState bt} {len i index : Nat} {result : TunnResult} {sender : SocketAddr}

/-! ### The property -/

/-- Some `AllowedIPs` entry of length `len` of peer `i` contains the address. -/
def Runner.Claims (r : Runner bt) (ip : IpAddr) (i len : Nat) : Prop :=
  ∃ peer, r.peers[i]? = some peer ∧ ∃ net ∈ peer.allowed, net.containsAddr ip = true ∧ net.len = len

/-- Peer `i` has the longest entry for the address, and the last one of that length. -/
def Runner.Owns (r : Runner bt) (ip : IpAddr) (i : Nat) : Prop :=
  ∃ len, r.Claims ip i len ∧ ∀ j len', r.Claims ip j len' → len' < len ∨ len' = len ∧ j ≤ i

/-- The datagram is read from a socket and is for this peer. -/
structure Runner.Receives (r : Runner bt) (sender : SocketAddr) (bytes : Bytes) (index : Nat)
    (peer : PeerState bt) : Prop where
  socket : r.socketFor sender = true
  found : r.peerForDatagram bytes = some index
  peer : r.peers[index]? = some peer

def Effect.isHanded : Effect → Bool
  | .handed _ _ => true
  | _ => false

/-- The packet that an answer of the state machine carries, with its source. -/
def TunnResult.decrypted : TunnResult → Option (IpAddr × Bytes)
  | .writeToTunnelV4 packet source => some (.v4 source, packet)
  | .writeToTunnelV6 packet source => some (.v6 source, packet)
  | _ => none

/-- A turn that keeps to the table of `AllowedIPs`, and answers an initiation where it came
from. -/
structure Turn.Routed (t : Turn bt) : Prop where
  outgoing : ∀ packet, t.input = .tun packet →
    (t.effects.filter Effect.isHanded).length ≤ 1 ∧
      ∀ i p, .handed i p ∈ t.effects ↔
        p = packet ∧ ∃ dst, bt.dstAddress packet = some dst ∧ t.runner.Owns dst i
  incoming : ∀ i source packet, .wrote i source packet ∈ t.effects → t.runner.Owns source i
  answered : ∀ sender bytes init index peer response, t.input = .datagram sender bytes →
    bt.parseIncomingPacket bytes = some (.handshakeInit init) →
    t.runner.Receives sender bytes index peer →
    (peer.answers sender bytes).1.head? = some (.writeToNetwork response) →
    .sent sender response ∈ t.effects

/-- The peer may speak for what it sends, and has not moved while it asks for a new session. -/
structure Turn.Plain (t : Turn bt) : Prop where
  unrivalled : ∀ sender bytes index peer result source packet len,
    t.input = .datagram sender bytes → t.runner.Receives sender bytes index peer →
    result ∈ (peer.answers sender bytes).1 → result.decrypted = some (source, packet) →
    t.runner.Claims source index len →
    ∀ rival len', t.runner.Claims source rival len' → rival ≠ index →
      ∃ own, t.runner.Claims source index own ∧ (len' < own ∨ len' = own ∧ rival < index)
  settled : ∀ sender bytes init index peer response, t.input = .datagram sender bytes →
    bt.parseIncomingPacket bytes = some (.handshakeInit init) →
    t.runner.Receives sender bytes index peer →
    (peer.answers sender bytes).1.head? = some (.writeToNetwork response) →
    peer.endpoint = none ∨ peer.endpoint = some sender

/-! ### Fetching the answers -/

/-- More rounds than the backlog change nothing: the loop of `incoming` has come to its end. -/
theorem answers_fuel {sender : IpAddr} {fuel fuel' : Nat} {tunn : bt.Tunn} {input : Bytes}
    (h : bt.backlog tunn input < fuel) (h' : bt.backlog tunn input < fuel') :
    answers bt sender fuel tunn input = answers bt sender fuel' tunn input := by
  induction fuel generalizing fuel' tunn input with
  | zero => omega
  | succ fuel ih =>
    obtain ⟨fuel', rfl⟩ : ∃ n, fuel' = n + 1 := ⟨fuel' - 1, by omega⟩
    rw [answers, answers]
    have hless := bt.drains tunn sender input
    generalize bt.decapsulate tunn sender input = answer at hless ⊢
    obtain ⟨result, next⟩ := answer
    dsimp only at hless ⊢
    split
    · rename_i hgoes
      have hbacklog := hless hgoes
      have hrest : answers bt sender fuel next [] = answers bt sender fuel' next [] :=
        ih (by omega) (by omega)
      rw [hrest]
    · rfl

/-! ### The lookup -/

variable {r : Runner bt} {ip : IpAddr}

theorem bestMatch_eq_some : peer.bestMatch ip = some len ↔
      (∃ net ∈ peer.allowed, net.containsAddr ip = true ∧ net.len = len) ∧
        ∀ net ∈ peer.allowed, net.containsAddr ip = true → net.len ≤ len := by
  unfold PeerState.bestMatch
  rw [max?_eq_some_iff]
  simp only [List.mem_map, mem_filter, and_assoc]
  refine and_congr_right fun _ => ⟨fun h net hnet hin => ?_, ?_⟩
  · exact h net.len ⟨net, hnet, hin, rfl⟩
  · rintro h _ ⟨net, hnet, hin, rfl⟩
    exact h net hnet hin

theorem bestMatch_eq_none :
    peer.bestMatch ip = none ↔ ∀ net ∈ peer.allowed, net.containsAddr ip = false := by
  unfold PeerState.bestMatch
  rw [max?_eq_none_iff, map_eq_nil_iff, filter_eq_nil_iff]
  simp

/-- The peers with an entry for the address, in order, with the length of their best one. -/
def Runner.candidates (r : Runner bt) (ip : IpAddr) : List (Nat × Nat) :=
  r.peers.zipIdx.filterMap fun (peer, index) => (peer.bestMatch ip).map fun len => (index, len)

theorem mem_candidates :
    (i, len) ∈ r.candidates ip ↔ r.Claims ip i len ∧ ∀ len', r.Claims ip i len' → len' ≤ len := by
  unfold Runner.candidates
  rw [mem_filterMap]
  constructor
  · rintro ⟨⟨peer, index⟩, hpeer, hbest⟩
    obtain ⟨best, hmatch, heq⟩ := map_eq_some_iff.mp hbest
    cases heq
    have hat : r.peers[i]? = some peer := by simpa using mem_zipIdx_iff_getElem?.mp hpeer
    obtain ⟨⟨net, hnet, hin, hlen⟩, hall⟩ := bestMatch_eq_some.mp hmatch
    refine ⟨⟨peer, hat, net, hnet, hin, hlen⟩, ?_⟩
    rintro len' ⟨other, hother, net', hnet', hin', rfl⟩
    obtain rfl := Option.some.inj (hat.symm.trans hother)
    exact hall net' hnet' hin'
  · rintro ⟨⟨peer, hat, net, hnet, hin, hlen⟩, hall⟩
    refine ⟨(peer, i), by simpa using mem_zipIdx_iff_getElem?.mpr hat, ?_⟩
    have hbest : peer.bestMatch ip = some len := bestMatch_eq_some.mpr
      ⟨⟨net, hnet, hin, hlen⟩, fun net' hnet' hin' => hall _ ⟨peer, hat, net', hnet', hin', rfl⟩⟩
    simp [hbest]

/-- Among the lengths that a peer claims there is a largest one. -/
theorem exists_candidate (h : r.Claims ip i len) :
    ∃ best, (i, best) ∈ r.candidates ip ∧ len ≤ best := by
  obtain ⟨peer, hat, net, hnet, hin, rfl⟩ := h
  cases hbest : peer.bestMatch ip with
  | none => simp [bestMatch_eq_none.mp hbest net hnet] at hin
  | some best =>
    obtain ⟨⟨net', hnet', hin', hlen'⟩, hall⟩ := bestMatch_eq_some.mp hbest
    refine ⟨best, mem_candidates.mpr ⟨⟨peer, hat, net', hnet', hin', hlen'⟩, ?_⟩, hall net hnet hin⟩
    rintro len' ⟨other, hother, net'', hnet'', hin'', rfl⟩
    obtain rfl := Option.some.inj (hat.symm.trans hother)
    exact hall net'' hnet'' hin''

/-- Candidates come in the order of the peers. -/
theorem candidates_sorted (r : Runner bt) (ip : IpAddr) :
    (r.candidates ip).Pairwise fun a b => a.1 < b.1 := by
  have hindices : r.peers.zipIdx.Pairwise fun a b => a.2 < b.2 := by
    rw [← pairwise_map, zipIdx_map_snd]
    exact pairwise_lt_range'
  unfold Runner.candidates
  refine List.Pairwise.filterMap _ (fun a b hlt x hx y hy => ?_) hindices
  obtain ⟨_, -, rfl⟩ := map_eq_some_iff.mp hx
  obtain ⟨_, -, rfl⟩ := map_eq_some_iff.mp hy
  exact hlt

/-- The lookup finds the owner of an address. -/
theorem peerFor_eq_some : r.peerFor ip = some i ↔ r.Owns ip i := by
  have hlookup : r.peerFor ip = (lastMax Prod.snd (r.candidates ip)).map Prod.fst := rfl
  rw [hlookup, map_eq_some_iff]
  constructor
  · rintro ⟨⟨index, len⟩, hmax, rfl⟩
    obtain ⟨before, after, hsplit, hbefore, hafter⟩ := lastMax_eq_some.mp hmax
    have hmem : ∀ c, c ∈ r.candidates ip ↔ c ∈ before ∨ c = (index, len) ∨ c ∈ after := by
      simp [hsplit]
    refine ⟨len, (mem_candidates.mp ((hmem _).mpr (.inr (.inl rfl)))).1, fun j len' hclaim => ?_⟩
    obtain ⟨best, hcandidate, hle⟩ := exists_candidate hclaim
    rcases (hmem _).mp hcandidate with hin | heq | hin
    · -- In front of the chosen one, and so a peer with a smaller index.
      have hlen := hbefore _ hin
      have hsorted := candidates_sorted r ip
      rw [hsplit, pairwise_append] at hsorted
      have hlt := hsorted.2.2 _ hin (index, len) (by simp)
      dsimp only at hlen hlt ⊢
      omega
    · cases heq
      dsimp only
      omega
    · have hlen := hafter _ hin
      dsimp only at hlen
      omega
  · rintro ⟨len, hclaim, howner⟩
    have hcandidate : (i, len) ∈ r.candidates ip := by
      refine mem_candidates.mpr ⟨hclaim, fun len' hclaim' => ?_⟩
      have := howner i len' hclaim'
      omega
    obtain ⟨before, after, hsplit⟩ := append_of_mem hcandidate
    refine ⟨(i, len), lastMax_eq_some.mpr ⟨before, after, hsplit, ?_, ?_⟩, rfl⟩
    · rintro ⟨j, len'⟩ hin
      have hclaim' := (mem_candidates.mp (show (j, len') ∈ r.candidates ip by simp [hsplit, hin])).1
      have := howner j len' hclaim'
      dsimp only
      omega
    · rintro ⟨j, len'⟩ hin
      have hclaim' := (mem_candidates.mp (show (j, len') ∈ r.candidates ip by simp [hsplit, hin])).1
      have hsorted := candidates_sorted r ip
      rw [hsplit, pairwise_append, pairwise_cons] at hsorted
      have hlt := hsorted.2.1.1 _ hin
      have := howner j len' hclaim'
      dsimp only at hlt ⊢
      omega

variable {j : Nat} {bytes : Bytes} {source : IpAddr} {packet : Bytes}

theorem owns_unique (hi : r.Owns ip i) (hj : r.Owns ip j) : i = j :=
  Option.some.inj ((peerFor_eq_some.mpr hi).symm.trans (peerFor_eq_some.mpr hj))

/-! ### The effects of a turn -/

theorem not_handed_sendTo {endpoint : Option SocketAddr} {e : Effect}
    (h : e ∈ r.sendTo endpoint result) : ∃ dest datagram, e = .sent dest datagram := by
  unfold Runner.sendTo Runner.send at h
  split at h
  · split at h
    · split at h
      · exact ⟨_, _, mem_singleton.mp h⟩
      · cases h
    · cases h
  · cases h

/-- A packet from the tun goes to its owner, or nowhere. -/
theorem outgoing_cases (r : Runner bt) (packet : Bytes) :
    (∃ dst index peer result, bt.dstAddress packet = some dst ∧ r.Owns dst index ∧
        r.peers[index]? = some peer ∧
        (r.outgoing packet).1 = .handed index packet :: r.sendTo peer.endpoint result) ∨
      (r.outgoing packet).1 = [] ∧
        ∀ dst i, bt.dstAddress packet = some dst → ¬ r.Owns dst i := by
  unfold Runner.outgoing
  cases hdst : bt.dstAddress packet with
  | none => exact .inr ⟨rfl, by simp⟩
  | some dst =>
    dsimp only
    cases hpeer : r.peerFor dst with
    | none =>
      refine .inr ⟨rfl, fun dst' i hdst' howns => ?_⟩
      cases hdst'
      rw [peerFor_eq_some.mpr howns] at hpeer
      cases hpeer
    | some index =>
      have howns := peerFor_eq_some.mp hpeer
      obtain ⟨len, ⟨peer, hat, hclaim⟩, howner⟩ := howns
      dsimp only
      rw [hat]
      exact .inl ⟨dst, index, peer, _, rfl, ⟨len, ⟨peer, hat, hclaim⟩, howner⟩, hat, rfl⟩

/-- A datagram that is read from a socket is for one peer, or for nobody. -/
theorem step_datagram_cases (r : Runner bt) (sender : SocketAddr) (bytes : Bytes) :
    (∃ index peer, r.Receives sender bytes index peer ∧
        (r.step (.datagram sender bytes)).1 =
          (peer.answers sender bytes).1.flatMap (r.answer index peer sender)) ∨
      (r.step (.datagram sender bytes)).1 = [] ∧
        ∀ index peer, ¬ r.Receives sender bytes index peer := by
  unfold Runner.step
  dsimp only
  cases hsocket : r.socketFor sender with
  | false =>
    refine .inr ⟨rfl, fun index peer h => ?_⟩
    rw [h.socket] at hsocket
    cases hsocket
  | true =>
    rw [if_pos rfl]
    unfold Runner.incoming
    cases hfound : r.peerForDatagram bytes with
    | none =>
      refine .inr ⟨rfl, fun index peer h => ?_⟩
      rw [h.found] at hfound
      cases hfound
    | some index =>
      dsimp only
      cases hpeer : r.peers[index]? with
      | none =>
        refine .inr ⟨rfl, fun index' peer h => ?_⟩
        obtain rfl := Option.some.inj (hfound.symm.trans h.found)
        rw [h.peer] at hpeer
        cases hpeer
      | some peer => exact .inl ⟨index, peer, ⟨hsocket, hfound, hpeer⟩, rfl⟩

theorem Runner.Receives.unique {other : PeerState bt}
    (h : r.Receives sender bytes i peer) (h' : r.Receives sender bytes j other) :
    i = j ∧ peer = other := by
  obtain rfl := Option.some.inj (h.found.symm.trans h'.found)
  exact ⟨rfl, Option.some.inj (h.peer.symm.trans h'.peer)⟩

/-- What one answer writes to the tun. -/
theorem wrote_mem_answer : .wrote i source packet ∈ r.answer index peer sender result ↔
      i = index ∧ result.decrypted = some (source, packet) ∧
        ∃ net ∈ peer.allowed, net.containsAddr source = true := by
  have hdeliver : ∀ s p, .wrote i source packet ∈ peer.deliver index s p ↔
      i = index ∧ (s, p) = (source, packet) ∧
        ∃ net ∈ peer.allowed, net.containsAddr source = true := by
    intro s p
    unfold PeerState.deliver
    split
    · rename_i hany
      rw [List.any_eq_true] at hany
      rw [mem_singleton]
      constructor
      · intro h
        cases h
        exact ⟨rfl, rfl, hany⟩
      · rintro ⟨rfl, heq, -⟩
        cases heq
        rfl
    · rename_i hnone
      rw [List.any_eq_true] at hnone
      constructor
      · intro h
        cases h
      · rintro ⟨-, heq, hany⟩
        cases heq
        exact absurd hany hnone
  cases result with
  | writeToNetwork reply =>
    rw [Runner.answer, Runner.send]
    split <;> simp [TunnResult.decrypted]
  | writeToTunnelV4 p s => simpa [Runner.answer, TunnResult.decrypted] using hdeliver (.v4 s) p
  | writeToTunnelV6 p s => simpa [Runner.answer, TunnResult.decrypted] using hdeliver (.v6 s) p
  | _ => simp [Runner.answer, TunnResult.decrypted]

/-- All datagrams of a turn go where the peer was, or to the sender of the first one. -/
theorem sent_mem_answer {sender dest : SocketAddr} {datagram : Bytes} :
    .sent dest datagram ∈ r.answer index peer sender result ↔
      result = .writeToNetwork datagram ∧ dest = peer.endpoint.getD sender ∧
        r.socketFor dest = true := by
  cases result with
  | writeToNetwork reply =>
    rw [Runner.answer, Runner.send]
    split
    · rename_i hsocket
      rw [mem_singleton]
      constructor
      · intro h
        cases h
        exact ⟨rfl, rfl, hsocket⟩
      · rintro ⟨heq, rfl, -⟩
        cases heq
        rfl
    · rename_i hsocket
      constructor
      · intro h
        cases h
      · rintro ⟨-, rfl, h⟩
        exact absurd h hsocket
  | writeToTunnelV4 p s =>
    rw [Runner.answer, PeerState.deliver]
    split <;> simp
  | writeToTunnelV6 p s =>
    rw [Runner.answer, PeerState.deliver]
    split <;> simp
  | _ => simp [Runner.answer]

/-! ### The turns that are right -/

/-- A turn of the engine, with the effects that the code has. -/
def Runner.turn (r : Runner bt) (input : EngineInput) : Turn bt :=
  { runner := r, input, effects := (r.step input).1 }

theorem outgoing_routed (r : Runner bt) (packet : Bytes) :
    ((r.outgoing packet).1.filter Effect.isHanded).length ≤ 1 ∧
      ∀ i p, .handed i p ∈ (r.outgoing packet).1 ↔
        p = packet ∧ ∃ dst, bt.dstAddress packet = some dst ∧ r.Owns dst i := by
  rcases outgoing_cases r packet with ⟨dst, index, peer, result, hdst, howns, -, heffects⟩ |
    ⟨heffects, hnobody⟩
  · have hsends : (r.sendTo peer.endpoint result).filter Effect.isHanded = [] := by
      rw [filter_eq_nil_iff]
      intro e he
      obtain ⟨dest, datagram, rfl⟩ := not_handed_sendTo he
      simp [Effect.isHanded]
    rw [heffects]
    refine ⟨?_, fun i p => ?_⟩
    · rw [filter_cons_of_pos rfl, hsends]
      exact Nat.le_refl 1
    constructor
    · intro h
      rcases mem_cons.mp h with h | h
      · cases h
        exact ⟨rfl, dst, hdst, howns⟩
      · obtain ⟨dest, datagram, heq⟩ := not_handed_sendTo h
        cases heq
    · rintro ⟨rfl, dst', hdst', howns'⟩
      obtain rfl := Option.some.inj (hdst.symm.trans hdst')
      rw [owns_unique howns' howns]
      simp
  · rw [heffects]
    refine ⟨by simp, fun i p => ?_⟩
    constructor
    · intro h
      cases h
    · rintro ⟨-, dst, hdst, howns⟩
      exact absurd howns (hnobody dst i hdst)

theorem not_wrote_step {input : EngineInput} (h : .wrote i source packet ∈ (r.step input).1) :
    ∃ sender bytes index peer, input = .datagram sender bytes ∧
      r.Receives sender bytes index peer ∧
      (r.step input).1 = (peer.answers sender bytes).1.flatMap (r.answer index peer sender) := by
  cases input with
  | tun tunPacket =>
    rcases outgoing_cases r tunPacket with ⟨dst, index, peer, result, -, -, -, heffects⟩ |
      ⟨heffects, -⟩
    · rw [Runner.step, heffects] at h
      rcases mem_cons.mp h with h | h
      · cases h
      · obtain ⟨dest, datagram, heq⟩ := not_handed_sendTo h
        cases heq
    · rw [Runner.step, heffects] at h
      cases h
  | datagram sender bytes =>
    rcases step_datagram_cases r sender bytes with ⟨index, peer, hreceives, heffects⟩ |
      ⟨heffects, -⟩
    · exact ⟨sender, bytes, index, peer, rfl, hreceives, heffects⟩
    · rw [heffects] at h
      cases h
  | tick =>
    obtain ⟨⟨peer, result, tunn⟩, -, hin⟩ := mem_flatMap.mp h
    obtain ⟨dest, datagram, heq⟩ := not_handed_sendTo hin
    cases heq

/-- A packet reaches the tun when the peer may speak for its source, exactly. -/
theorem incoming_iff (r : Runner bt) (input : EngineInput) :
    (∀ i source packet, .wrote i source packet ∈ (r.step input).1 → r.Owns source i) ↔
      ∀ sender bytes index peer result source packet len,
        input = .datagram sender bytes → r.Receives sender bytes index peer →
        result ∈ (peer.answers sender bytes).1 → result.decrypted = some (source, packet) →
        r.Claims source index len →
        ∀ rival len', r.Claims source rival len' → rival ≠ index →
          ∃ own, r.Claims source index own ∧ (len' < own ∨ len' = own ∧ rival < index) := by
  constructor
  · rintro h sender bytes index peer result source packet len rfl hreceives hresult hdecrypted
      ⟨peer', hat, net, hnet, hin, -⟩ rival len' hrival hne
    obtain rfl := Option.some.inj (hreceives.peer.symm.trans hat)
    rcases step_datagram_cases r sender bytes with ⟨index', peer', hreceives', heffects⟩ |
      ⟨-, hnobody⟩
    · obtain ⟨rfl, rfl⟩ := hreceives.unique hreceives'
      have hwrote : .wrote index source packet ∈ (r.step (.datagram sender bytes)).1 := by
        rw [heffects, mem_flatMap]
        exact ⟨result, hresult, wrote_mem_answer.mpr ⟨rfl, hdecrypted, net, hnet, hin⟩⟩
      obtain ⟨own, hclaim, howner⟩ := h index source packet hwrote
      refine ⟨own, hclaim, ?_⟩
      have := howner rival len' hrival
      omega
    · exact absurd hreceives (hnobody index peer)
  · intro h i source packet hwrote
    obtain ⟨sender, bytes, index, peer, rfl, hreceives, heffects⟩ := not_wrote_step hwrote
    rw [heffects, mem_flatMap] at hwrote
    obtain ⟨result, hresult, hin⟩ := hwrote
    obtain ⟨rfl, hdecrypted, net, hnet, hcontains⟩ := wrote_mem_answer.mp hin
    have hclaim : r.Claims source i net.len := ⟨peer, hreceives.peer, net, hnet, hcontains, rfl⟩
    -- The owner exists because somebody claims the address; it can only be this peer.
    obtain ⟨best, hbest, -⟩ := exists_candidate hclaim
    cases howner : r.peerFor source with
    | none =>
      have hnone : (lastMax Prod.snd (r.candidates source)).map Prod.fst = none := howner
      rw [map_eq_none_iff, lastMax_eq_none] at hnone
      rw [hnone] at hbest
      cases hbest
    | some j =>
      have howns := peerFor_eq_some.mp howner
      by_cases hsame : j = i
      · exact hsame ▸ howns
      · obtain ⟨len, hj, hbeats⟩ := howns
        obtain ⟨own, hown, hless⟩ := h sender bytes i peer result source packet net.len rfl
          hreceives hresult hdecrypted hclaim j len hj hsame
        have := hbeats i own hown
        omega

/-- An initiation is answered where it came from when the peer has not moved, exactly. -/
theorem answered_iff (r : Runner bt) {response : Bytes}
    (hreceives : r.Receives sender bytes index peer)
    (hresponse : (peer.answers sender bytes).1.head? = some (.writeToNetwork response)) :
    .sent sender response ∈ (r.step (.datagram sender bytes)).1 ↔
      peer.endpoint = none ∨ peer.endpoint = some sender := by
  have hfirst : .writeToNetwork response ∈ (peer.answers sender bytes).1 :=
    mem_of_mem_head? hresponse
  rcases step_datagram_cases r sender bytes with ⟨index', peer', hreceives', heffects⟩ |
    ⟨-, hnobody⟩
  · obtain ⟨rfl, rfl⟩ := hreceives.unique hreceives'
    rw [heffects, mem_flatMap]
    constructor
    · rintro ⟨result, -, hsent⟩
      obtain ⟨-, hdest, -⟩ := sent_mem_answer.mp hsent
      cases hendpoint : peer.endpoint with
      | none => exact .inl rfl
      | some endpoint =>
        rw [hendpoint] at hdest
        exact .inr (congrArg some hdest.symm)
    · intro hsettled
      refine ⟨_, hfirst, sent_mem_answer.mpr ⟨rfl, ?_, hreceives.socket⟩⟩
      rcases hsettled with hnone | hsome
      · rw [hnone]
        rfl
      · rw [hsome]
        rfl
  · exact absurd hreceives (hnobody index peer)

theorem turn_routed_iff (r : Runner bt) (input : EngineInput) :
    (r.turn input).Routed ↔ (r.turn input).Plain := by
  constructor
  · rintro ⟨-, hincoming, hanswered⟩
    refine ⟨(incoming_iff r input).mp hincoming, ?_⟩
    rintro sender bytes init index peer response hinput hinit hreceives hresponse
    have hsent := hanswered sender bytes init index peer response hinput hinit hreceives hresponse
    obtain rfl : input = .datagram sender bytes := hinput
    exact (answered_iff r hreceives hresponse).mp hsent
  · rintro ⟨hunrivalled, hsettled⟩
    refine ⟨?_, (incoming_iff r input).mpr hunrivalled, ?_⟩
    · rintro packet hinput
      obtain rfl : input = .tun packet := hinput
      exact outgoing_routed r packet
    · rintro sender bytes init index peer response hinput hinit hreceives hresponse
      have hstays := hsettled sender bytes init index peer response hinput hinit hreceives hresponse
      obtain rfl : input = .datagram sender bytes := hinput
      exact (answered_iff r hreceives hresponse).mpr hstays

theorem mem_run {inputs : List EngineInput} {t : Turn bt} (h : t ∈ r.run inputs) :
    ∃ r' input, t = Runner.turn r' input := by
  induction inputs generalizing r with
  | nil => cases h
  | cons input rest ih =>
    rcases mem_cons.mp h with rfl | h
    · exact ⟨r, input, rfl⟩
    · exact ih h

/-- On every sequence of packets, datagrams and ticks, the engine keeps to the table of
`AllowedIPs` and answers initiations where they came from in exactly the runs all of whose
turns are plain. -/
theorem routed_iff (bt : Boringtun) (r : Runner bt) (inputs : List EngineInput) :
    (∀ t ∈ r.run inputs, t.Routed) ↔ ∀ t ∈ r.run inputs, t.Plain := by
  refine forall_congr' fun t => imp_congr_right fun ht => ?_
  obtain ⟨r', input, rfl⟩ := mem_run ht
  exact turn_routed_iff r' input

end

/-! ### Two peers -/

/-- A stand-in for the crate that seals with the identity. The message types and the place of
the receiver index are those of the protocol; an initiation carries the sender's key in its
first byte after the header. -/
def openTunn : Boringtun where
  Tunn := Unit
  newTunn _ _ := some ()
  dstAddress packet := (ipv4At 16 packet).map .v4
  parseIncomingPacket bytes :=
    match bytes with
    | 1 :: _ => some (.handshakeInit bytes)
    | 4 :: _ :: _ :: _ :: low :: high :: _ => some (.packetData (low.toNat + 256 * high.toNat))
    | _ => none
  parseHandshakeAnon init := (init[8]?).map fun b => BitVec.ofNat 256 b.toNat
  encapsulate _ packet := (.writeToNetwork ([4, 0, 0, 0] ++ packet), ())
  decapsulate _ _ input :=
    match input with
    | 1 :: _ => (.writeToNetwork [2, 0, 0, 0], ())
    | 4 :: _ =>
      match ipv4At 12 (input.drop 16) with
      | some source => (.writeToTunnelV4 (input.drop 16) source, ())
      | none => (.err, ())
    | _ => (.done, ())
  updateTimers _ := (.done, ())
  backlog _ input := input.length
  drains _ _ input h := by
    cases input with
    | nil => cases h
    | cons b rest => simp
where
  /-- Four bytes of a packet as an address. -/
  ipv4At (offset : Nat) (packet : Bytes) : Option (BitVec 32) :=
    match packet.drop offset with
    | a :: b :: c :: d :: _ =>
      some (BitVec.ofNat 32 (((a.toNat * 256 + b.toNat) * 256 + c.toNat) * 256 + d.toNat))
    | _ => none

/-- A road warrior for `10.0.0.0/8`, and a site with `10.1.0.0/16` of it. -/
def overlapping : Runner openTunn :=
  { udp4 := true
    udp6 := false
    peers :=
      [{ tunn := ()
         publicKey := 7
         endpoint := some { ip := .v4 0xcb007107, port := 51820 }
         allowed := [.v4 0x0a000000 8] },
       { tunn := (), publicKey := 9, endpoint := none, allowed := [.v4 0x0a010000 16] }] }

/-- A data message for the first peer: an IPv4 packet from `10.1.0.5`. -/
def fromSite : Bytes :=
  [4, 0, 0, 0] ++ List.replicate 12 0 ++
    ([0x45] ++ List.replicate 11 0 ++ [10, 1, 0, 5] ++ [10, 9, 0, 1])

/-- An initiation of the first peer. -/
def newSession : Bytes := [1, 0, 0, 0, 0, 0, 0, 0, 7]

/-- Where the first peer is now. -/
def roamed : SocketAddr := { ip := .v4 0xc6336409, port := 40000 }

/-- The first peer speaks for an address of the second one, and a new session of it is
answered at its old address. -/
theorem overlapping_not_routed :
    (overlapping.turn (.datagram roamed fromSite)).effects =
        [.wrote 0 (.v4 0x0a010005) (fromSite.drop 16)] ∧
      overlapping.peerFor (.v4 0x0a010005) = some 1 ∧
      (overlapping.turn (.datagram roamed newSession)).effects =
        [.sent { ip := .v4 0xcb007107, port := 51820 } [2, 0, 0, 0]] ∧
      ¬ (∀ t ∈ overlapping.run [.datagram roamed fromSite, .datagram roamed newSession],
        t.Routed) := by
  have hwrote : (overlapping.turn (.datagram roamed fromSite)).effects =
      [.wrote 0 (.v4 0x0a010005) (fromSite.drop 16)] := by decide
  have howner : overlapping.peerFor (.v4 0x0a010005) = some 1 := by decide
  refine ⟨hwrote, howner, by decide, fun h => ?_⟩
  have hrouted := (h (overlapping.turn (.datagram roamed fromSite)) (by
    exact List.mem_cons_self)).incoming 0 (.v4 0x0a010005) (fromSite.drop 16) (by simp [hwrote])
  have := peerFor_eq_some.mpr hrouted
  rw [show (overlapping.turn (.datagram roamed fromSite)).runner = overlapping from rfl, howner]
    at this
  cases this

end NetOrchestrator.Macos
