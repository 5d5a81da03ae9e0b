import NetOrchestrator.Daemon.Text
import NetOrchestrator.Daemon.WireGuardText
import NetOrchestrator.Net.Cover
import NetOrchestrator.Proofs.AlwaysOnPlans

/-!
# `Proofs.WireGuardSetconf`: what the kernel gets of a configuration

The parser writes the `setconf` text while it reads the source. `Tracks` relates its state to the
sections of the source read so far: the text is what `ConfigBlocks.setconf` leaves of them, line by
line, and reading it back gives these sections again (`read_lines`).

The prefixes of different peers are disjoint, and every route is in those of exactly one peer.
Nothing compares the public keys, so that two sections may be one peer to the kernel
(`consistent_iff`).
-/

namespace NetOrchestrator.Daemon

open Net Lib List Option
open Checks (bind_eq_ok passed)
open String (toList_append toList_ofList ofList_toList toList_inj)

/-! ### Lines of a text -/

/-- The names of the fields in a `setconf` text. -/
def fieldNames : List (String × String) :=
  [("privatekey", "PrivateKey"), ("listenport", "ListenPort"), ("publickey", "PublicKey"),
    ("presharedkey", "PresharedKey"), ("endpoint", "Endpoint"), ("allowedips", "AllowedIPs"),
    ("persistentkeepalive", "PersistentKeepalive")]

def fieldName (key : String) : String := (fieldNames.lookup key).getD key

def fieldLine (field : ConfigField) : List Char := (fieldName field.1 ++ " = " ++ field.2).toList

/-- The lines of a peer. -/
def peerLines (fields : List ConfigField) : List (List Char) :=
  [] :: "[Peer]".toList :: fields.map fieldLine

def ConfigBlocks.lines (blocks : ConfigBlocks) : List (List Char) :=
  match blocks.interface with
  | none => []
  | some fields =>
    "[Interface]".toList :: fields.map fieldLine ++ blocks.peers.flatMap peerLines

/-- A value as it is read from a line. -/
structure CleanValue (value : String) : Prop where
  nonempty : value ≠ ""
  trimmed : trim value = value
  noComment : '#' ∉ value.toList
  noNewline : '\n' ∉ value.toList

/-- A field that is written to a `setconf` text. -/
def CleanField (field : ConfigField) : Prop :=
  field.1 ∈ fieldNames.map Prod.fst ∧ CleanValue field.2

/-- All fields of a text are clean, and there are none before the interface. -/
structure ConfigBlocks.Clean (blocks : ConfigBlocks) : Prop where
  interface : ∀ fields, blocks.interface = some fields → ∀ field ∈ fields, CleanField field
  peers : ∀ fields ∈ blocks.peers, ∀ field ∈ fields, CleanField field
  order : blocks.interface = none → blocks.peers = []

section
variable {blocks : ConfigBlocks} {field : ConfigField} {value : String}
  {interface : List ConfigField} {peers : List (List ConfigField)}

theorem CleanValue.noEdgeBlank (h : CleanValue value) : NoEdgeBlank value.toList := by
  rw [← h.trimmed]
  exact noEdgeBlank_trim value

/-- What a written name looks like. -/
theorem fieldName_spec {key : String} (h : key ∈ fieldNames.map Prod.fst) :
    asciiLower (fieldName key) = key ∧ NoEdgeBlank (fieldName key).toList ∧
      fieldName key ≠ "" ∧ (fieldName key).toList.head? ≠ some '[' ∧
      '#' ∉ (fieldName key).toList ∧ '\n' ∉ (fieldName key).toList ∧
      '=' ∉ (fieldName key).toList := by
  have hall : ∀ key ∈ fieldNames.map Prod.fst, asciiLower (fieldName key) = key ∧
      NoEdgeBlank (fieldName key).toList ∧ fieldName key ≠ "" ∧
      (fieldName key).toList.head? ≠ some '[' ∧ '#' ∉ (fieldName key).toList ∧
      '\n' ∉ (fieldName key).toList ∧ '=' ∉ (fieldName key).toList := by
    decide
  exact hall key h

theorem not_mem_fieldLine {c : Char} (hname : c ∉ (fieldName field.1).toList) (hsep : c ≠ ' ')
    (heq : c ≠ '=') (hvalue : c ∉ field.2.toList) : c ∉ fieldLine field := by
  simp [fieldLine, hname, hsep, heq, hvalue]

/-- A written line is one line, and no blanks are around it. -/
theorem fieldLine_edges (h : CleanField field) : NoEdgeBlank (fieldLine field) := by
  obtain ⟨-, hname, hne, -⟩ := fieldName_spec h.1
  have hvalue := h.2.noEdgeBlank
  have hfirst : (fieldName field.1).toList ≠ [] := by simpa using hne
  have hlast : field.2.toList ≠ [] := by simpa using h.2.nonempty
  constructor
  · intro c hc
    refine hname.1 c ?_
    rw [fieldLine, toList_append, toList_append, append_assoc,
      head?_append_of_ne_nil _ hfirst] at hc
    exact hc
  · intro c hc
    refine hvalue.2 c ?_
    rw [fieldLine, toList_append, getLast?_append_of_ne_nil _ hlast] at hc
    exact hc

/-- A written field is read as it was. -/
theorem readLine_fieldLine (h : CleanField field) :
    blocks.readLine (fieldLine field) = blocks.addField field := by
  obtain ⟨hlower, hname, hne, hhead, hcomment, -, hequals⟩ := fieldName_spec h.1
  have hfirst : (fieldName field.1).toList ≠ [] := by simpa using hne
  have hwhole : (fieldLine field).takeWhile (· != '#') = fieldLine field := by
    have hno : '#' ∉ fieldLine field :=
      not_mem_fieldLine hcomment (by decide) (by decide) h.2.noComment
    rw [takeWhile_eq_self_iff]
    intro c hc
    rw [bne_iff_ne]
    rintro rfl
    exact hno hc
  have htrim : trim (String.ofList (fieldLine field)) = String.ofList (fieldLine field) :=
    trim_eq_self (by rw [toList_ofList]; exact fieldLine_edges h)
  have hnonempty : String.ofList (fieldLine field) ≠ "" := by
    intro hempty
    have hlist : fieldLine field = [] := by
      rw [← toList_ofList (l := fieldLine field), hempty]
      rfl
    rw [fieldLine, toList_append, toList_append] at hlist
    simp at hlist
  have hopen : (fieldLine field).head? ≠ some '[' := by
    rw [fieldLine, toList_append, toList_append, append_assoc, head?_append_of_ne_nil _ hfirst]
    exact hhead
  have hsplit : splitOnce '=' (fieldLine field) =
      some ((fieldName field.1).toList ++ [' '], ' ' :: field.2.toList) := by
    have hno : '=' ∉ (fieldName field.1).toList ++ [' '] := by simp [hequals]
    rw [← splitOnce_append hno]
    simp [fieldLine]
  rw [ConfigBlocks.readLine, hwhole, htrim]
  simp only [hnonempty, if_false, toList_ofList, hopen, hsplit]
  rw [trim_concat_blank (by decide), trim_cons_blank (by decide), ofList_toList,
    ofList_toList, trim_eq_self hname, hlower, h.2.trimmed]

theorem foldlM_fieldLines {fields : List ConfigField} (h : ∀ field ∈ fields, CleanField field) :
    (fields.map fieldLine).foldlM ConfigBlocks.readLine blocks =
      fields.foldlM ConfigBlocks.addField blocks := by
  induction fields generalizing blocks with
  | nil => rfl
  | cons field fields ih =>
    rw [map_cons, foldlM_cons, foldlM_cons, readLine_fieldLine (h field (by simp))]
    congr 1
    funext next
    exact ih fun f hf => h f (by simp [hf])

/-- Fields of the interface, one after another. -/
theorem addFields_interface (fields before : List ConfigField) :
    fields.foldlM ConfigBlocks.addField { interface := some before, peers := [] } =
      some { interface := some (before ++ fields), peers := [] } := by
  induction fields generalizing before with
  | nil => simp
  | cons field fields ih =>
    rw [foldlM_cons]
    show fields.foldlM ConfigBlocks.addField
      { interface := some (before ++ [field]), peers := [] } = _
    rw [ih, append_assoc, singleton_append]

/-- Fields of the last peer, one after another. -/
theorem addFields_peer (interface : List ConfigField) (peers : List (List ConfigField))
    (fields before : List ConfigField) : fields.foldlM ConfigBlocks.addField
        { interface := some interface, peers := peers ++ [before] } =
      some { interface := some interface, peers := peers ++ [before ++ fields] } := by
  induction fields generalizing before with
  | nil => simp
  | cons field fields ih =>
    have hadd : ConfigBlocks.addField { interface := some interface, peers := peers ++ [before] }
        field = some { interface := some interface, peers := peers ++ [before ++ [field]] } := by
      simp [ConfigBlocks.addField]
    rw [foldlM_cons, hadd]
    show fields.foldlM ConfigBlocks.addField
      { interface := some interface, peers := peers ++ [before ++ [field]] } = _
    rw [ih, append_assoc, singleton_append]

theorem readLine_blank : blocks.readLine [] = some blocks := by
  simp [ConfigBlocks.readLine, trim]

theorem readLine_peer :
    ConfigBlocks.readLine { interface := some interface, peers } "[Peer]".toList =
      some { interface := some interface, peers := peers ++ [[]] } := by
  have hline : trim (String.ofList ("[Peer]".toList.takeWhile (· != '#'))) = "[Peer]" := by decide
  rw [ConfigBlocks.readLine, hline]
  simp [ConfigBlocks.openSection, show asciiLower "[Peer]" = "[peer]" by decide]

theorem readLine_interface : ConfigBlocks.blank.readLine "[Interface]".toList =
      some { interface := some [], peers := [] } := by
  decide

theorem foldlM_peerLines (more : List (List ConfigField))
    (h : ∀ fields ∈ more, ∀ field ∈ fields, CleanField field) :
    (more.flatMap peerLines).foldlM ConfigBlocks.readLine
        { interface := some interface, peers } =
      some { interface := some interface, peers := peers ++ more } := by
  induction more generalizing peers with
  | nil => simp
  | cons fields more ih =>
    have hfields := addFields_peer interface peers fields []
    rw [flatMap_cons, foldlM_append, peerLines, foldlM_cons, readLine_blank]
    show ((("[Peer]".toList :: fields.map fieldLine).foldlM ConfigBlocks.readLine
      { interface := some interface, peers }) >>= _) = _
    rw [foldlM_cons, readLine_peer]
    show (((fields.map fieldLine).foldlM ConfigBlocks.readLine
      { interface := some interface, peers := peers ++ [[]] }) >>= _) = _
    rw [foldlM_fieldLines (h fields (by simp)), hfields]
    show (more.flatMap peerLines).foldlM ConfigBlocks.readLine
      { interface := some interface, peers := peers ++ [[] ++ fields] } = _
    rw [ih fun f hf => h f (by simp [hf])]
    simp

/-- The lines of a text are single lines. -/
theorem clean_lines (h : blocks.Clean) :
    ∀ line ∈ blocks.lines, '\n' ∉ line ∧ line.getLast? ≠ some '\r' := by
  have hfield : ∀ field : ConfigField, CleanField field →
      '\n' ∉ fieldLine field ∧ (fieldLine field).getLast? ≠ some '\r' := by
    intro field hclean
    obtain ⟨-, -, -, -, -, hnewline, -⟩ := fieldName_spec hclean.1
    refine ⟨not_mem_fieldLine hnewline (by decide) (by decide) hclean.2.noNewline, fun hlast => ?_⟩
    exact absurd ((fieldLine_edges hclean).2 _ hlast) (by decide)
  intro line hline
  rw [ConfigBlocks.lines] at hline
  cases hinterface : blocks.interface with
  | none => simp [hinterface] at hline
  | some fields =>
    rw [hinterface] at hline
    simp only [cons_append, mem_cons, mem_append, List.mem_map, mem_flatMap] at hline
    rcases hline with rfl | ⟨field, hmem, rfl⟩ | ⟨fields', hmem, hline⟩
    · decide
    · exact hfield field (h.interface fields hinterface field hmem)
    · rw [peerLines] at hline
      simp only [mem_cons, List.mem_map] at hline
      rcases hline with rfl | rfl | ⟨field, hfieldMem, rfl⟩
      · decide
      · decide
      · exact hfield field (h.peers fields' hmem field hfieldMem)

/-- A written text is read as it was. -/
theorem read_lines (h : blocks.Clean) :
    ConfigBlocks.read (String.ofList (unlines blocks.lines)) = some blocks := by
  rw [ConfigBlocks.read, textLines_unlines (clean_lines h), ConfigBlocks.lines]
  obtain ⟨interface, peers⟩ := blocks
  cases interface with
  | none =>
    have hpeers : peers = [] := h.order rfl
    rw [hpeers]
    rfl
  | some fields =>
    show ((("[Interface]".toList :: fields.map fieldLine) ++
      peers.flatMap peerLines).foldlM ConfigBlocks.readLine .blank) = _
    rw [cons_append, foldlM_cons, readLine_interface]
    show ((fields.map fieldLine ++ peers.flatMap peerLines).foldlM ConfigBlocks.readLine
      { interface := some [], peers := [] }) = _
    rw [foldlM_append, foldlM_fieldLines (h.interface fields rfl), addFields_interface]
    exact foldlM_peerLines peers h.peers

end

/-! ### Prefixes in a value -/

section
variable {lib : WireGuardCrates} {nets : List IpNet} {value : String}

theorem not_mem_showNet (hshow : ∀ net, lib.showNet net = renderNet net) {c : Char}
    (hc : Foreign c) (hslash : c ≠ '/') (net : IpNet) : c ∉ (lib.showNet net).toList := by
  rw [hshow]
  exact not_mem_renderNet hc hslash net

theorem showNet_edges (hshow : ∀ net, lib.showNet net = renderNet net) (net : IpNet) :
    NoEdgeBlank (lib.showNet net).toList := by
  rw [hshow]
  exact noEdgeBlank_renderNet net

theorem toList_allowedText_cons (net next : IpNet) (rest : List IpNet) :
    (ConfigState.allowedText lib (net :: next :: rest)).toList = (lib.showNet net).toList ++
      ',' :: ' ' :: (ConfigState.allowedText lib (next :: rest)).toList := by
  show (", ".intercalate (lib.showNet net :: lib.showNet next :: rest.map lib.showNet)).toList = _
  rw [String.intercalate_cons_cons, toList_append, toList_append]
  simp [ConfigState.allowedText]

variable (hshow : ∀ net, lib.showNet net = renderNet net)
include hshow

/-- The items of a written list are its prefixes. -/
theorem commaItems_allowedText (hne : nets ≠ []) :
    commaItems (ConfigState.allowedText lib nets) = nets.map lib.showNet := by
  have hcomma : Foreign ',' := ⟨by decide, by decide, by decide, by decide⟩
  induction nets with
  | nil => exact absurd rfl hne
  | cons net nets ih =>
    have hno : ',' ∉ (lib.showNet net).toList := not_mem_showNet hshow hcomma (by decide) net
    have hedges := trim_eq_self (showNet_edges hshow net)
    cases nets with
    | nil =>
      show pieces ',' (", ".intercalate [lib.showNet net]).toList = _
      rw [String.intercalate_singleton, pieces_of_not_mem hno, ofList_toList, hedges]
      rfl
    | cons next rest =>
      show pieces ',' (ConfigState.allowedText lib (net :: next :: rest)).toList = _
      rw [toList_allowedText_cons, pieces_append, pieces_of_not_mem hno, ofList_toList, hedges,
        pieces_cons_blank (by decide) (by decide)]
      show [lib.showNet net] ++ commaItems (ConfigState.allowedText lib (next :: rest)) = _
      rw [ih (by simp)]
      rfl

/-- A written list of prefixes is read as it was. -/
theorem allowedNets_allowedText (hparse : ∀ net, lib.parseNet (renderNet net) = some net)
    (hne : nets ≠ []) (htrunc : ∀ net ∈ nets, net.trunc = net) :
    allowedNets lib (ConfigState.allowedText lib nets) = nets := by
  rw [allowedNets, commaItems_allowedText hshow hne, filterMap_map]
  have hsame : ∀ net ∈ nets, ((fun item => (lib.parseNet item).map IpNet.trunc) ∘ lib.showNet) net =
      some net := by
    intro net hnet
    rw [Function.comp_apply, hshow, hparse, map_some, htrunc net hnet]
  rw [filterMap_congr hsame, filterMap_some]

/-- A written list of prefixes is a value of a line. -/
theorem cleanValue_allowedText (hne : nets ≠ []) :
    CleanValue (ConfigState.allowedText lib nets) := by
  have hcomment : Foreign '#' := ⟨by decide, by decide, by decide, by decide⟩
  have hnewline : Foreign '\n' := ⟨by decide, by decide, by decide, by decide⟩
  have hedges : (ConfigState.allowedText lib nets).toList ≠ [] ∧
      NoEdgeBlank (ConfigState.allowedText lib nets).toList ∧
      '#' ∉ (ConfigState.allowedText lib nets).toList ∧
      '\n' ∉ (ConfigState.allowedText lib nets).toList := by
    induction nets with
    | nil => exact absurd rfl hne
    | cons net nets ih =>
      have hnet := showNet_edges hshow net
      have hfirst : (lib.showNet net).toList ≠ [] := by
        rw [hshow]
        simp [renderNet]
      have hno := not_mem_showNet hshow hcomment (by decide) net
      have hno' := not_mem_showNet hshow hnewline (by decide) net
      cases nets with
      | nil =>
        show (", ".intercalate [lib.showNet net]).toList ≠ [] ∧ _
        rw [ConfigState.allowedText, map_singleton, String.intercalate_singleton]
        exact ⟨hfirst, hnet, hno, hno'⟩
      | cons next rest =>
        obtain ⟨hrest, hedges, hclean, hclean'⟩ := ih (by simp)
        rw [toList_allowedText_cons]
        refine ⟨by simp, ⟨fun c hc => ?_, fun c hc => ?_⟩, by simp [hno, hclean],
          by simp [hno', hclean']⟩
        · rw [head?_append_of_ne_nil _ hfirst] at hc
          exact hnet.1 c hc
        · rw [getLast?_append_of_ne_nil _ (by simp), getLast?_cons_of_ne_nil (by simp),
            getLast?_cons_of_ne_nil hrest] at hc
          exact hedges.2 c hc
  exact ⟨by simpa using hedges.1, trim_eq_self hedges.2.1, hedges.2.2.1, hedges.2.2.2⟩

end

/-! ### The loop -/

variable (lib : WireGuardCrates)

/-- The `AllowedIPs` of a peer so far: none, or one field with these prefixes. -/
def AllowedTracks (peer : ConfigPeer) (fields : List ConfigField) : Prop :=
  (peer.allowedIps = [] ∧ ∀ field ∈ fields, field.1 ≠ "allowedips") ∨
    ∃ front value back, fields = front ++ ("allowedips", value) :: back ∧
      (∀ field ∈ front ++ back, field.1 ≠ "allowedips") ∧
      peer.allowedIps = allowedNets lib value ∧ peer.allowedIps ≠ []

/-- Where the `AllowedIPs` line of the only peer stands in the text. -/
def RangeTracks (interface : Option (List ConfigField))
    (peer : ConfigPeer) (fields : List ConfigField) : Prop :=
  ∀ front value back, fields = front ++ ("allowedips", value) :: back →
    ∃ start, peer.allowedLine =
        some (start, start + (fieldLine ("allowedips",
          ConfigState.allowedText lib (allowedNets lib value))).length + 1) ∧
      start = (unlines (ConfigBlocks.setconf lib [] { interface, peers := [front] }).lines).length

/-- The state of the loop, by the sections of the lines read so far. -/
structure Tracks (lib : WireGuardCrates) (st : ConfigState) (blocks : ConfigBlocks) : Prop where
  opened : st.seenInterface = blocks.interface.isSome
  order : blocks.interface = none → blocks.peers = []
  block : st.block = if blocks.interface.isNone then .none
    else if blocks.peers.isEmpty then .interface else .peer
  setconf : st.setconf = String.ofList (unlines (blocks.setconf lib []).lines)
  peers : List.Forall₂ (AllowedTracks lib) st.peers blocks.peers
  range : ∀ peer fields, st.peers = [peer] → blocks.peers = [fields] →
    RangeTracks lib blocks.interface peer fields
  clean : (∀ fields, blocks.interface = some fields → ∀ field ∈ fields, CleanValue field.2) ∧
    ∀ fields ∈ blocks.peers, ∀ field ∈ fields, CleanValue field.2

section
variable {lib : WireGuardCrates} {st st' : ConfigState} {blocks : ConfigBlocks} {key value : String}
variable {peers : List (List ConfigField)} {peer : ConfigPeer} {fields : List ConfigField}
  {interface : List ConfigField}

theorem tracks_blank : Tracks lib .blank .blank where
  opened := rfl
  order := fun _ => rfl
  block := rfl
  setconf := rfl
  peers := .nil
  range := by simp [ConfigState.blank]
  clean := by simp [ConfigBlocks.blank]

/-- The value of a line. -/
theorem cleanValue_of_line {raw key value : List Char} (hraw : '\n' ∉ raw)
    (hsplit : splitOnce '=' (trim (String.ofList (raw.takeWhile (· != '#')))).toList =
      some (key, value)) (hne : trim (String.ofList value) ≠ "") :
    CleanValue (trim (String.ofList value)) := by
  obtain ⟨-, hline⟩ := splitOnce_eq_some hsplit
  have hmem : ∀ c ∈ (trim (String.ofList value)).toList, c ∈ raw.takeWhile (· != '#') := by
    intro c hc
    have hvalue : c ∈ value := by simpa using mem_of_mem_trim hc
    have hall : c ∈ (trim (String.ofList (raw.takeWhile (· != '#')))).toList := by
      rw [hline]
      simp [hvalue]
    simpa using mem_of_mem_trim hall
  constructor
  case nonempty => exact hne
  case trimmed => exact trim_trim _
  case noComment =>
    intro hc
    have hnot := mem_takeWhile_imp (hmem _ hc)
    simp at hnot
  case noNewline => exact fun hc => hraw (takeWhile_subset _ (hmem _ hc))

/-! Text that is appended to the `setconf` text. -/

variable (lines : List (List Char)) (line : List Char) {s s' : ConfigState} {item : String}
  {peer' : ConfigPeer}

theorem unlines_concat : unlines (lines ++ [line]) = unlines lines ++ line ++ ['\n'] := by
  rw [unlines_append]
  simp [unlines]

theorem ofList_unlines_concat : String.ofList (unlines (lines ++ [line])) =
      String.ofList (unlines lines) ++ String.ofList line ++ "\n" := by
  rw [← toList_inj, unlines_concat]
  simp

theorem lines_openPeer (peers : List (List ConfigField)) :
    (ConfigBlocks.setconf lib [] { interface := some interface, peers := peers ++ [[]] }).lines =
      (ConfigBlocks.setconf lib [] { interface := some interface, peers }).lines ++
        [[], "[Peer]".toList] := by
  simp [ConfigBlocks.setconf, ConfigBlocks.lines, peerLines]

section
variable (fields : List ConfigField) (field : ConfigField)

theorem lines_addField_interface : (ConfigBlocks.setconf lib []
        { interface := some (fields ++ [field]), peers := [] }).lines =
      (ConfigBlocks.setconf lib [] { interface := some fields, peers := [] }).lines ++
        if isInterfaceKey field then [fieldLine field] else [] := by
  cases hkey : isInterfaceKey field <;>
    simp [ConfigBlocks.setconf, ConfigBlocks.lines, filter_append, hkey]

theorem lines_addField_peer {interface : List ConfigField} : (ConfigBlocks.setconf lib []
        { interface := some interface, peers := peers ++ [fields ++ [field]] }).lines =
      (ConfigBlocks.setconf lib []
          { interface := some interface, peers := peers ++ [fields] }).lines ++
        ((setconfField lib [] field).map fieldLine).toList := by
  cases hfield : setconfField lib [] field <;>
    simp [ConfigBlocks.setconf, ConfigBlocks.lines, peerLines, filterMap_append, hfield]

end

/-- A written field, as the parser writes it. -/
theorem pushSetconf_eq (name : String) (st : ConfigState) (hname : fieldName key = name) :
    (st.pushSetconf name value).setconf =
      st.setconf ++ String.ofList (fieldLine (key, value)) ++ "\n" := by
  rw [← toList_inj, ConfigState.pushSetconf, fieldLine, hname]
  simp

/-! What one field does. -/

/-- The items of an `Address` and of a `DNS` field change only what the plan holds besides the
text. -/
theorem addAddress_keeps (hstep : ConfigState.addAddress lib s item = .ok s') :
    (s'.seenInterface, s'.block, s'.peers, s'.setconf) =
      (s.seenInterface, s.block, s.peers, s.setconf) := by
  rw [ConfigState.addAddress] at hstep
  split at hstep
  · cases hstep
  · split at hstep
    · cases hstep
    · split at hstep
      · cases hstep
        rfl
      · split at hstep <;> cases hstep
        rfl

theorem addDns_keeps (hstep : ConfigState.addDns s item = .ok s') :
    (s'.seenInterface, s'.block, s'.peers, s'.setconf) =
      (s.seenInterface, s.block, s.peers, s.setconf) := by
  rw [ConfigState.addDns] at hstep
  split at hstep
  · split at hstep
    · cases hstep
    · split at hstep <;> cases hstep
      rfl
  · split at hstep
    · cases hstep
    · split at hstep <;> cases hstep
      rfl

theorem warn_keeps (warning : WireGuardWarning) (s : ConfigState) :
    ((s.warn warning).seenInterface, (s.warn warning).block, (s.warn warning).peers,
        (s.warn warning).setconf) = (s.seenInterface, s.block, s.peers, s.setconf) := by
  rw [ConfigState.warn]
  split <;> rfl

/-- A field of the interface that is no cryptokey field leaves no trace in the text. -/
theorem interfaceField_other (hprivate : key ≠ "privatekey") (hlisten : key ≠ "listenport")
    (h : st.interfaceField lib key value = .ok st') :
    (st'.seenInterface, st'.block, st'.peers, st'.setconf) =
      (st.seenInterface, st.block, st.peers, st.setconf) := by
  rw [ConfigState.interfaceField, if_neg hprivate, if_neg hlisten] at h
  split at h
  · exact Checks.foldlM_keeps (fun _ _ _ => addAddress_keeps) h
  split at h
  · exact Checks.foldlM_keeps (fun _ _ _ => addDns_keeps) h
  split at h
  · obtain ⟨-, h⟩ := passed h
    split at h
    · cases h
    · split at h <;> cases h
      rfl
  split at h
  · obtain ⟨-, h⟩ := passed h
    split at h
    · cases h
      rfl
    · split at h <;> cases h
      rfl
  split at h
  · cases h
    exact warn_keeps _ st
  split at h
  · cases h
    exact warn_keeps _ st
  split at h <;> cases h

/-- A field of the interface is written if it is a cryptokey field, and no peer changes. -/
theorem interfaceField_spec (h : st.interfaceField lib key value = .ok st') :
    (st'.seenInterface, st'.block, st'.peers) = (st.seenInterface, st.block, st.peers) ∧
      st'.setconf = if isInterfaceKey (key, value) then
        st.setconf ++ String.ofList (fieldLine (key, value)) ++ "\n" else st.setconf := by
  by_cases hprivate : key = "privatekey"
  · subst hprivate
    rw [ConfigState.interfaceField, if_pos rfl] at h
    split at h
    · cases h
    · obtain ⟨_, -, h⟩ := bind_eq_ok.mp h
      cases h
      exact ⟨rfl, pushSetconf_eq "PrivateKey" _ (by decide)⟩
  · by_cases hlisten : key = "listenport"
    · subst hlisten
      rw [ConfigState.interfaceField, if_neg hprivate, if_pos rfl] at h
      obtain ⟨-, h⟩ := passed h
      obtain ⟨_, -, h⟩ := bind_eq_ok.mp h
      cases h
      exact ⟨rfl, pushSetconf_eq "ListenPort" _ (by decide)⟩
    · have hkeeps := interfaceField_other hprivate hlisten h
      simp only [Prod.mk.injEq] at hkeeps
      have hother : isInterfaceKey (key, value) = false := by
        simp [isInterfaceKey, hprivate, hlisten]
      rw [hother]
      exact ⟨by simp [hkeeps], by simp [hkeeps]⟩

/-- The prefixes of an accepted `AllowedIPs` value. There is one for each item. -/
theorem addAllowed_run {items : List String} {before nets : List IpNet}
    (h : items.foldlM (ConfigState.addAllowed lib) before = .ok nets) :
    nets = before ++ items.filterMap (fun item => (lib.parseNet item).map IpNet.trunc) ∧
      nets.length = before.length + items.length := by
  induction items generalizing before with
  | nil =>
    cases h
    simp
  | cons item items ih =>
    rw [foldlM_cons] at h
    obtain ⟨next, hfirst, hrest⟩ := bind_eq_ok.mp h
    rw [ConfigState.addAllowed] at hfirst
    split at hfirst
    · cases hfirst
    · rename_i network hnet
      split at hfirst
      · cases hfirst
      · cases hfirst
        obtain ⟨hnets, hlen⟩ := ih hrest
        constructor
        · rw [hnets, filterMap_cons]
          simp [hnet]
        · rw [hlen]
          simp only [length_append, length_cons, length_nil]
          omega

theorem commaItems_ne_nil (value : String) : commaItems value ≠ [] := by
  simp [commaItems, splitChars_ne_nil]

/-- A field of the last peer. -/
structure PeerFieldSpec (lib : WireGuardCrates) (st : ConfigState) (peer : ConfigPeer)
    (before : List ConfigPeer) (field : ConfigField) (st' : ConfigState) : Prop where
  opened : st'.seenInterface = st.seenInterface
  block : st'.block = st.block
  setconf : st'.setconf = match setconfField lib [] field with
    | some written => st.setconf ++ String.ofList (fieldLine written) ++ "\n"
    | none => st.setconf
  peer : ∃ peer', st'.peers = before ++ [peer'] ∧
    (∀ fields, AllowedTracks lib peer fields → AllowedTracks lib peer' (fields ++ [field])) ∧
    if field.1 = "allowedips" then
      peer.allowedIps = [] ∧ peer'.allowedLine = some (st.setconf.length, st'.setconf.length)
    else peer'.allowedLine = peer.allowedLine

/-- A field that says nothing about prefixes. -/
theorem AllowedTracks.other
    (h : AllowedTracks lib peer fields) (hips : peer'.allowedIps = peer.allowedIps)
    {field : ConfigField} (hfield : field.1 ≠ "allowedips") :
    AllowedTracks lib peer' (fields ++ [field]) := by
  rcases h with ⟨hnone, hall⟩ | ⟨front, value, back, rfl, hall, hnets, hne⟩
  · refine .inl ⟨hips.trans hnone, fun f hf => ?_⟩
    rcases mem_append.mp hf with hf | hf
    · exact hall f hf
    · rw [mem_singleton.mp hf]
      exact hfield
  · refine .inr ⟨front, value, back ++ [field], by simp, fun f hf => ?_, hips.trans hnets,
      by rwa [hips]⟩
    rw [← append_assoc] at hf
    rcases mem_append.mp hf with hf | hf
    · exact hall f hf
    · rw [mem_singleton.mp hf]
      exact hfield

section
variable {before : List ConfigPeer} (hpeers : st.peers = before ++ [peer])
include hpeers

theorem setLastPeer_peers (peer' : ConfigPeer) :
    (st.setLastPeer peer').peers = before ++ [peer'] := by
  simp [ConfigState.setLastPeer, hpeers]

/-- A field that is written as it is read. -/
theorem PeerFieldSpec.written {peer' : ConfigPeer} {name : String}
    (hips : peer'.allowedIps = peer.allowedIps) (hline : peer'.allowedLine = peer.allowedLine)
    (hkey : key ≠ "allowedips") (hwritten : setconfField lib [] (key, value) = some (key, value))
    (hname : fieldName key = name) : PeerFieldSpec lib st peer before (key, value)
      ((st.setLastPeer peer').pushSetconf name value) := by
  constructor
  case opened => rfl
  case block => rfl
  case setconf =>
    rw [hwritten]
    exact pushSetconf_eq name _ hname
  case peer =>
    refine ⟨peer', setLastPeer_peers hpeers peer', fun fields h => h.other hips hkey, ?_⟩
    rw [if_neg hkey]
    exact hline

/-- The `AllowedIPs` field of a peer that has none yet. -/
theorem PeerFieldSpec.allowed {nets : List IpNet} (hnone : peer.allowedIps = [])
    (hnets : (commaItems value).foldlM (ConfigState.addAllowed lib) [] = .ok nets) :
    PeerFieldSpec lib st peer before ("allowedips", value)
      ((st.pushSetconf "AllowedIPs" (ConfigState.allowedText lib nets)).setLastPeer
        { peer with
          allowedIps := nets
          allowedLine := some (st.setconf.length,
            (st.pushSetconf "AllowedIPs" (ConfigState.allowedText lib nets)).setconf.length) }) := by
  obtain ⟨hall, hlen⟩ := addAllowed_run hnets
  have hne : nets ≠ [] := by
    intro hempty
    have hitems := length_pos_of_ne_nil (commaItems_ne_nil value)
    rw [hempty] at hlen
    simp only [length_nil] at hlen
    omega
  have hread : nets = allowedNets lib value := hall
  constructor
  case opened => rfl
  case block => rfl
  case setconf =>
    have hwritten : setconfField lib [] ("allowedips", value) =
        some ("allowedips", ConfigState.allowedText lib nets) := by
      rw [setconfField, if_pos rfl, append_nil, hread]
    rw [hwritten]
    exact pushSetconf_eq "AllowedIPs" _ (by decide)
  case peer =>
    have hpushed : (st.pushSetconf "AllowedIPs" (ConfigState.allowedText lib nets)).peers =
        before ++ [peer] := hpeers
    refine ⟨_, setLastPeer_peers hpushed _, fun fields h => .inr ?_, ?_⟩
    · rcases h with ⟨-, hfields⟩ | ⟨_, _, _, -, -, -, hsome⟩
      · exact ⟨fields, value, [], rfl, by simpa using hfields, hread, hne⟩
      · exact absurd hnone hsome
    · rw [if_pos rfl]
      exact ⟨hnone, rfl⟩

theorem peerField_spec (h : st.peerField lib key value = .ok st') :
    PeerFieldSpec lib st peer before (key, value) st' := by
  have hlast : st.lastPeer = peer := by simp [ConfigState.lastPeer, hpeers]
  rw [ConfigState.peerField] at h
  simp only [hlast] at h
  -- the two keys and the endpoint
  iterate 3
    split at h
    · rename_i hkey
      subst hkey
      split at h
      · cases h
      · obtain ⟨_, -, h⟩ := bind_eq_ok.mp h
        cases h
        exact .written hpeers rfl rfl (by decide) (by simp [setconfField]) (by decide)
  split at h
  · rename_i hkey
    subst hkey
    obtain ⟨hnone, h⟩ := passed h
    obtain ⟨nets, hnets, h⟩ := bind_eq_ok.mp h
    cases h
    exact .allowed hpeers (by simpa using hnone) hnets
  split at h
  · rename_i hkey
    subst hkey
    split at h
    · cases h
    · split at h
      · cases h
      · rename_i keepalive hvalue
        have hkey : ("persistentkeepalive" : String) ≠ "allowedips" := by decide
        cases h
        by_cases hzero : 0 < keepalive
        · rw [if_pos hzero]
          have hwritten : setconfField lib [] ("persistentkeepalive", value) =
              some ("persistentkeepalive", value) := by
            rw [setconfField, if_neg hkey, if_pos rfl]
            show (if parseUnsigned (2 ^ 16) value = some 0 then none else _) = _
            rw [hvalue, if_neg (by simpa using hzero.ne')]
          exact .written hpeers rfl rfl hkey hwritten (by decide)
        · rw [if_neg hzero]
          constructor
          case opened => rfl
          case block => rfl
          case setconf =>
            have hwritten : setconfField lib [] ("persistentkeepalive", value) = none := by
              rw [setconfField, if_neg hkey, if_pos rfl]
              show (if parseUnsigned (2 ^ 16) value = some 0 then none else _) = _
              rw [hvalue, if_pos (by simpa using hzero)]
            rw [hwritten]
            rfl
          case peer =>
            exact ⟨_, setLastPeer_peers hpeers _, fun fields h => h.other rfl hkey,
              by rw [if_neg hkey]⟩
  · cases h

end

/-! The sections after one line. -/

theorem Tracks.openInterface (h : Tracks lib st blocks) (hseen : st.seenInterface = false) :
    Tracks lib { st with
        seenInterface := true, block := .interface, setconf := st.setconf ++ "[Interface]\n" }
      { blocks with interface := some [] } := by
  obtain ⟨interface, peers⟩ := blocks
  have hopened := h.opened
  rw [hseen] at hopened
  have hnone : interface = none := by simpa using hopened.symm
  subst hnone
  have hpeers : peers = [] := h.order rfl
  subst hpeers
  have hempty : st.peers = [] := by simpa using h.peers
  have hsetconf : st.setconf = "" := h.setconf
  constructor
  case opened => rfl
  case order => simp
  case block => rfl
  case setconf =>
    rw [hsetconf]
    show "" ++ "[Interface]\n" = String.ofList (unlines ["[Interface]".toList])
    decide
  case peers =>
    rw [hempty]
    exact .nil
  case range => simp
  case clean => simp

theorem Tracks.openPeer (h : Tracks lib st blocks) (hseen : st.seenInterface = true) :
    Tracks lib { st with
        peers := st.peers ++ [.blank], block := .peer, setconf := st.setconf ++ "\n[Peer]\n" }
      { blocks with peers := blocks.peers ++ [[]] } := by
  obtain ⟨interface, peers⟩ := blocks
  have hopened := h.opened
  rw [hseen] at hopened
  obtain ⟨fields, rfl⟩ := isSome_iff_exists.mp hopened.symm
  constructor
  case opened => exact h.opened
  case order => simp
  case block => simp
  case setconf =>
    show st.setconf ++ "\n[Peer]\n" = _
    rw [h.setconf, lines_openPeer, unlines_append, ← toList_inj]
    simp [unlines]
  case peers => exact rel_append h.peers (.cons (.inl ⟨rfl, by simp⟩) .nil)
  case range =>
    intro peer fields' _ hblocks front value back hfields
    have hempty : fields' = [] := by
      have hlast := congrArg List.getLast? hblocks
      simp only [getLast?_append, getLast?_singleton, some_or] at hlast
      exact (Option.some.inj hlast).symm
    rw [hempty] at hfields
    simp at hfields
  case clean =>
    refine ⟨h.clean.1, fun fields' hmem => ?_⟩
    rcases mem_append.mp hmem with hmem | hmem
    · exact h.clean.2 fields' hmem
    · rw [mem_singleton.mp hmem]
      simp

theorem Tracks.interfaceField
    (h : Tracks lib st { interface := some fields, peers := [] }) (hvalue : CleanValue value)
    (hstep : st.interfaceField lib key value = .ok st') :
    Tracks lib st' { interface := some (fields ++ [(key, value)]), peers := [] } := by
  obtain ⟨hsame, hsetconf⟩ := interfaceField_spec hstep
  simp only [Prod.mk.injEq] at hsame
  obtain ⟨hopened, hblock, hpeers⟩ := hsame
  constructor
  case opened => exact hopened.trans h.opened
  case order => simp
  case block => exact hblock.trans h.block
  case setconf =>
    rw [hsetconf, h.setconf, lines_addField_interface]
    cases isInterfaceKey (key, value) with
    | false => simp
    | true =>
      rw [if_pos rfl, if_pos rfl]
      exact (ofList_unlines_concat _ _).symm
  case peers =>
    rw [hpeers]
    exact h.peers
  case range => simp
  case clean =>
    refine ⟨fun fields' hfields' field hfield => ?_, by simp⟩
    cases hfields'
    rcases mem_append.mp hfield with hfield | hfield
    · exact h.clean.1 fields rfl field hfield
    · rw [mem_singleton.mp hfield]
      exact hvalue

/-- The last peer and its section. -/
theorem Tracks.lastPeer {interface : Option (List ConfigField)}
    (h : Tracks lib st { interface, peers := peers ++ [fields] }) :
    ∃ before peer, st.peers = before ++ [peer] ∧
      List.Forall₂ (AllowedTracks lib) before peers ∧ AllowedTracks lib peer fields := by
  have hbefore := forall₂_take_append _ _ _ h.peers
  have hlast := forall₂_drop_append _ _ _ h.peers
  obtain ⟨peer, hpeer, hdrop⟩ : ∃ peer, AllowedTracks lib peer fields ∧
      st.peers.drop peers.length = [peer] := by
    cases hdrop : st.peers.drop peers.length with
    | nil =>
      rw [hdrop] at hlast
      cases hlast
    | cons peer rest =>
      rw [hdrop] at hlast
      cases hlast with
      | cons hpeer hrest =>
        cases hrest
        exact ⟨peer, hpeer, rfl⟩
  refine ⟨st.peers.take peers.length, peer, ?_, hbefore, hpeer⟩
  rw [← hdrop, take_append_drop]

/-- The line of the prefixes stays where it is. -/
theorem rangeTracks_concat (hpeers : st.peers = [peer])
    (h : Tracks lib st { interface := some interface, peers := [fields] })
    (hspec : PeerFieldSpec lib st peer [] (key, value) st') (hpeers' : st'.peers = [peer']) :
    RangeTracks lib (some interface) peer' (fields ++ [(key, value)]) := by
  obtain ⟨peer₁, hpeer₁, -, hline⟩ := hspec.peer
  rw [hpeers', nil_append] at hpeer₁
  cases hpeer₁
  intro front value' back hfields
  have hallowed : AllowedTracks lib peer fields := by
    have hall := h.peers
    rw [hpeers] at hall
    cases hall with
    | cons hpeer _ => exact hpeer
  induction back using List.reverseRecOn with
  | nil =>
    -- the field is the one just read
    have hlast := append_inj' hfields rfl
    obtain ⟨rfl, hfield⟩ := hlast
    simp only [List.cons.injEq, Prod.mk.injEq, and_true] at hfield
    obtain ⟨rfl, rfl⟩ := hfield
    rw [if_pos rfl] at hline
    refine ⟨st.setconf.length, ?_, ?_⟩
    · have hsetconf := hspec.setconf
      have hwritten : setconfField lib [] ("allowedips", value) =
          some ("allowedips", ConfigState.allowedText lib (allowedNets lib value)) := by
        rw [setconfField, if_pos rfl, append_nil]
      rw [hwritten] at hsetconf
      have hend : "\n".length = 1 := by decide
      rw [hline.2, hsetconf]
      simp [String.length_append, Nat.add_assoc, hend]
    · rw [h.setconf]
      simp
  | append_singleton back last _ =>
    rw [← cons_append, ← append_assoc] at hfields
    obtain ⟨hfields, hlast⟩ := append_inj' hfields rfl
    by_cases hkey : key = "allowedips"
    · rw [if_pos hkey] at hline
      rcases hallowed with ⟨-, hnone⟩ | ⟨_, _, _, -, -, -, hsome⟩
      · exact absurd rfl (hnone ("allowedips", value') (by rw [hfields]; simp))
      · exact absurd hline.1 hsome
    · rw [if_neg hkey] at hline
      rw [hline]
      exact h.range peer fields hpeers rfl front value' back hfields

theorem Tracks.peerField
    (h : Tracks lib st { interface := some interface, peers := peers ++ [fields] })
    (hvalue : CleanValue value) (hstep : st.peerField lib key value = .ok st') :
    Tracks lib st'
      { interface := some interface, peers := peers ++ [fields ++ [(key, value)]] } := by
  obtain ⟨before, peer, hpeers, hbefore, hpeer⟩ := h.lastPeer
  have hspec := peerField_spec hpeers hstep
  obtain ⟨peer', hpeers', hallowed, -⟩ := hspec.peer
  constructor
  case opened => exact hspec.opened.trans h.opened
  case order => simp
  case block =>
    rw [hspec.block, h.block]
    simp
  case setconf =>
    rw [hspec.setconf, h.setconf, lines_addField_peer]
    cases setconfField lib [] (key, value) with
    | none => simp
    | some written => exact (ofList_unlines_concat _ _).symm
  case peers =>
    rw [hpeers']
    exact rel_append hbefore (.cons (hallowed fields hpeer) .nil)
  case range =>
    intro only fields' honly hblocks
    have hnone : before = [] := by
      rw [hpeers'] at honly
      exact (append_eq_singleton_iff.mp honly).elim (·.1) (fun hcase => by simp at hcase)
    subst hnone
    have hpeersNil : peers = [] := by simpa using hbefore
    subst hpeersNil
    simp only [nil_append, List.cons.injEq, and_true] at hblocks
    rw [← hblocks]
    exact rangeTracks_concat hpeers h hspec honly
  case clean =>
    refine ⟨h.clean.1, fun fields' hmem field hfield => ?_⟩
    rcases mem_append.mp hmem with hmem | hmem
    · exact h.clean.2 fields' (by simp [hmem]) field hfield
    · rw [mem_singleton.mp hmem] at hfield
      rcases mem_append.mp hfield with hfield | hfield
      · exact h.clean.2 fields (by simp) field hfield
      · rw [mem_singleton.mp hfield]
        exact hvalue

/-- One accepted line. -/
theorem Tracks.readLine {raw : List Char} (h : Tracks lib st blocks) (hraw : '\n' ∉ raw)
    (hstep : ConfigState.readLine lib st raw = .ok st') :
    ∃ blocks', blocks.readLine raw = some blocks' ∧ Tracks lib st' blocks' := by
  rw [ConfigState.readLine] at hstep
  rw [ConfigBlocks.readLine]
  simp only at hstep ⊢
  split at hstep
  · rename_i hblank
    cases hstep
    rw [if_pos hblank]
    exact ⟨blocks, rfl, h⟩
  rename_i hblank
  rw [if_neg hblank]
  split at hstep
  · rename_i hopen
    rw [if_pos hopen]
    rw [ConfigState.openSection] at hstep
    rw [ConfigBlocks.openSection]
    split at hstep
    · rename_i hheader
      split at hstep
      · rename_i hfirst
        cases hstep
        have hseen : st.seenInterface = false := by
          rw [Bool.and_eq_true, Bool.not_eq_true'] at hfirst
          exact hfirst.1
        have hnone : blocks.interface.isNone = true := by
          rw [← Option.not_isSome, ← h.opened, hseen]
          rfl
        rw [if_pos hheader, if_pos hnone]
        exact ⟨_, rfl, h.openInterface hseen⟩
      · cases hstep
    · rename_i hheader
      split at hstep
      · rename_i hpeer
        split at hstep
        · rename_i hseen
          cases hstep
          rw [Bool.and_eq_true] at hseen
          have hsome : blocks.interface.isSome = true := h.opened ▸ hseen.1
          rw [if_neg hheader, if_pos hpeer, if_pos hsome]
          exact ⟨_, rfl, h.openPeer hseen.1⟩
        · cases hstep
      · cases hstep
  rename_i hopen
  rw [if_neg hopen]
  obtain hsplit | ⟨⟨key, value⟩, hsplit⟩ :=
    Option.eq_none_or_eq_some (splitOnce '=' (trim (String.ofList (raw.takeWhile (· != '#')))).toList)
  · rw [hsplit] at hstep
    cases hstep
  rw [hsplit] at hstep ⊢
  simp only at hstep ⊢
  obtain ⟨hvalue, hstep⟩ := passed hstep
  have hclean := cleanValue_of_line hraw hsplit hvalue
  obtain ⟨interface, peers⟩ := blocks
  have hblock := h.block
  cases interface with
  | none =>
    rw [hblock] at hstep
    cases hstep
  | some interface =>
    cases peers using List.reverseRecOn with
    | nil =>
      rw [hblock] at hstep
      exact ⟨_, rfl, h.interfaceField hclean hstep⟩
    | append_singleton peers fields =>
      rw [hblock] at hstep
      simp only [Option.isNone_some, Bool.false_eq_true, if_false, List.isEmpty_iff,
        List.append_eq_nil_iff, List.cons_ne_self, and_false] at hstep
      refine ⟨_, ?_, h.peerField hclean hstep⟩
      simp [ConfigBlocks.addField]

/-- The whole loop. -/
theorem Tracks.run {lines : List (List Char)} (h : Tracks lib st blocks)
    (hlines : ∀ raw ∈ lines, '\n' ∉ raw)
    (hrun : lines.foldlM (ConfigState.readLine lib) st = .ok st') :
    ∃ blocks', lines.foldlM ConfigBlocks.readLine blocks = some blocks' ∧
      Tracks lib st' blocks' := by
  induction lines generalizing st blocks with
  | nil =>
    cases hrun
    exact ⟨blocks, rfl, h⟩
  | cons raw lines ih =>
    rw [foldlM_cons] at hrun
    obtain ⟨next, hfirst, hrest⟩ := bind_eq_ok.mp hrun
    obtain ⟨blocks₁, hread, hnext⟩ := h.readLine (hlines raw (by simp)) hfirst
    obtain ⟨blocks', hreads, hlast⟩ := ih hnext (fun r hr => hlines r (by simp [hr])) hrest
    refine ⟨blocks', ?_, hlast⟩
    rw [foldlM_cons, hread]
    exact hreads

end

/-! ### Declared routes -/

section
variable {lib : WireGuardCrates} {st : ConfigState} {blocks : ConfigBlocks}
  {extra : List IpNet} {declared : List PolicyRoute}

def ConfigPeer.widen (extra : List IpNet) (peer : ConfigPeer) : ConfigPeer :=
  { peer with allowedIps := peer.allowedIps ++ extra }

/-- What the declared routes add to the peers, and that they cover the routes then. -/
structure RoutesCovered (peers : List ConfigPeer) (expanded : Bool) (declared : List PolicyRoute)
    (peers' : List ConfigPeer) (expanded' : Bool) (extra : List IpNet) : Prop where
  same : extra = [] → expanded' = expanded
  widened : extra ≠ [] → expanded' = true ∧ peers.length = 1
  peers : peers' = peers.map (ConfigPeer.widen extra)
  extra : ∀ net ∈ extra, net.trunc = net ∧ ∃ route ∈ declared, route.destination = net
  covered : ∀ route ∈ declared, ∃ peer ∈ peers', ∃ net ∈ peer.allowedIps,
    net.containsNet route.destination = true

theorem widen_nil (peers : List ConfigPeer) : peers.map (ConfigPeer.widen []) = peers := by
  have hsame : ∀ peer : ConfigPeer, ConfigPeer.widen [] peer = peer := by
    intro peer
    simp [ConfigPeer.widen]
  rw [List.map_congr_left fun peer _ => hsame peer, List.map_id']

theorem coverRoutes_spec {seen : List IpNet} {peers peers' : List ConfigPeer}
    {expanded expanded' : Bool}
    (h : coverRoutes seen peers expanded declared = .ok (peers', expanded')) :
    ∃ extra, RoutesCovered peers expanded declared peers' expanded' extra := by
  induction declared generalizing seen peers expanded with
  | nil =>
    cases h
    exact ⟨[], fun _ => rfl, fun hne => absurd rfl hne, (widen_nil _).symm, by simp, by simp⟩
  | cons route declared ih =>
    unfold coverRoutes at h
    split at h
    · cases h
    · rename_i hvalid
      have htrunc : route.destination.trunc = route.destination := by
        simp only [Bool.or_eq_true, not_or, bne_iff_ne, ne_eq, not_not] at hvalid
        exact hvalid.2.symm
      split at h
      · rename_i hcovered
        split at h
        · cases h
        · obtain ⟨extra, hrest⟩ := ih h
          refine ⟨extra, hrest.same, hrest.widened, hrest.peers, fun net hnet => ?_, fun r hr => ?_⟩
          · obtain ⟨hnetTrunc, r, hr, hdest⟩ := hrest.extra net hnet
            exact ⟨hnetTrunc, r, by simp [hr], hdest⟩
          · rcases mem_cons.mp hr with rfl | hr
            · obtain ⟨peer, hpeer, hnets⟩ := any_eq_true.mp hcovered
              obtain ⟨net, hnet, hin⟩ := any_eq_true.mp hnets
              refine ⟨peer.widen extra, ?_, net, by simp [ConfigPeer.widen, hnet], hin⟩
              rw [hrest.peers]
              exact mem_map_of_mem hpeer
            · exact hrest.covered r hr
      · split at h
        · rename_i peer _
          split at h
          · cases h
          · obtain ⟨extra, hrest⟩ := ih h
            have hexpanded : expanded' = true := by
              by_cases hnone : extra = []
              · exact hrest.same hnone
              · exact (hrest.widened hnone).1
            have hpeers : peers' = [peer.widen (route.destination :: extra)] := by
              rw [hrest.peers]
              simp [ConfigPeer.widen]
            refine ⟨route.destination :: extra, by simp, fun _ => ⟨hexpanded, rfl⟩, hpeers,
              fun net hnet => ?_, fun r hr => ?_⟩
            · rcases mem_cons.mp hnet with rfl | hnet
              · exact ⟨htrunc, route, by simp, rfl⟩
              · obtain ⟨hnetTrunc, r, hr, hdest⟩ := hrest.extra net hnet
                exact ⟨hnetTrunc, r, by simp [hr], hdest⟩
            · rcases mem_cons.mp hr with rfl | hr
              · refine ⟨_, by rw [hpeers]; exact mem_singleton_self _, r.destination, ?_,
                  IpNet.containsNet_self _⟩
                simp [ConfigPeer.widen]
              · exact hrest.covered r hr
        · cases h

theorem setconfField_of_ne {field : ConfigField} (h : field.1 ≠ "allowedips") (extra : List IpNet) :
    setconfField lib extra field = setconfField lib [] field := by
  rw [setconfField, setconfField, if_neg h, if_neg h]

theorem filterMap_setconfField {fields : List ConfigField}
    (h : ∀ field ∈ fields, field.1 ≠ "allowedips") (extra : List IpNet) :
    fields.filterMap (setconfField lib extra) = fields.filterMap (setconfField lib []) :=
  filterMap_congr fun field hfield => setconfField_of_ne (h field hfield) extra

section
variable (interface front back : List ConfigField) (value : String)
  (hother : ∀ field ∈ front ++ back, field.1 ≠ "allowedips") (extra : List IpNet)
include hother

/-- The text of a single peer around its prefixes. -/
theorem lines_single : (ConfigBlocks.setconf lib extra
        { interface := some interface, peers := [front ++ ("allowedips", value) :: back] }).lines =
      (ConfigBlocks.setconf lib [] { interface := some interface, peers := [front] }).lines ++
        fieldLine ("allowedips",
          ConfigState.allowedText lib (allowedNets lib value ++ extra)) ::
        (back.filterMap (setconfField lib [])).map fieldLine := by
  have hfront : front.filterMap (setconfField lib extra) = front.filterMap (setconfField lib []) :=
    filterMap_setconfField (fun f hf => hother f (by simp [hf])) extra
  have hback : back.filterMap (setconfField lib extra) = back.filterMap (setconfField lib []) :=
    filterMap_setconfField (fun f hf => hother f (by simp [hf])) extra
  have hwritten : setconfField lib extra ("allowedips", value) =
      some ("allowedips", ConfigState.allowedText lib (allowedNets lib value ++ extra)) := by
    rw [setconfField, if_pos rfl]
  simp [ConfigBlocks.setconf, ConfigBlocks.lines, peerLines, hfront, hback,
    filterMap_append, hwritten]

/-- The text with the widened line of the only peer. -/
theorem replaceRange_single {start : Nat} (hstart : start = (unlines (ConfigBlocks.setconf lib []
      { interface := some interface, peers := [front] }).lines).length) :
    replaceRange
        (String.ofList (unlines (ConfigBlocks.setconf lib []
          { interface := some interface, peers := [front ++ ("allowedips", value) :: back] }).lines))
        (start, start + (fieldLine ("allowedips",
          ConfigState.allowedText lib (allowedNets lib value))).length + 1)
        ("AllowedIPs = " ++ ConfigState.allowedText lib (allowedNets lib value ++ extra) ++ "\n") =
      String.ofList (unlines (ConfigBlocks.setconf lib extra
        { interface := some interface, peers := [front ++ ("allowedips", value) :: back] }).lines) := by
  have hcons : ∀ (line : List Char) (lines : List (List Char)),
      unlines (line :: lines) = line ++ '\n' :: unlines lines := by
    intro line lines
    simp [unlines]
  have hname : fieldName "allowedips" = "AllowedIPs" := by decide
  rw [lines_single interface front back value hother, lines_single interface front back value hother,
    append_nil, unlines_append, unlines_append, hcons, hcons, replaceRange, hstart]
  generalize unlines (ConfigBlocks.setconf lib []
    { interface := some interface, peers := [front] }).lines = before
  generalize unlines ((back.filterMap (setconfField lib [])).map fieldLine) = behind
  rw [← toList_inj]
  simp only [toList_ofList, toList_append]
  rw [take_left, Nat.add_assoc, drop_length_add_append, drop_length_add_append]
  simp [fieldLine, hname]

end

/-- The planned routes and the text that goes with them. -/
structure Planned (lib : WireGuardCrates) (st : ConfigState) (blocks : ConfigBlocks)
    (declared routes : List PolicyRoute) (setconf : String) (extra : List IpNet) : Prop where
  text : setconf = String.ofList (unlines (blocks.setconf lib extra).lines)
  added : ∀ net ∈ extra, net.trunc = net ∧ ∃ route ∈ declared, route.destination = net
  single : extra ≠ [] → st.peers.length = 1
  covered : ∀ route ∈ routes, ∃ peer ∈ st.peers, ∃ net ∈ peer.allowedIps ++ extra,
    net.containsNet route.destination = true

variable (h : Tracks lib st blocks) (hall : ∀ peer ∈ st.peers, peer.allowedIps ≠ [])
include h hall

/-- Widening rewrites the line of the prefixes and nothing else. -/
theorem widenSetconf_eq (hsingle : st.peers.length = 1) (extra : List IpNet) :
    widenSetconf lib st.setconf (st.peers.map (ConfigPeer.widen extra)) =
      String.ofList (unlines (blocks.setconf lib extra).lines) := by
  obtain ⟨peer, hpeers⟩ := length_eq_one_iff.mp hsingle
  obtain ⟨interface, peers⟩ := blocks
  have htracks := h.peers
  rw [hpeers] at htracks
  cases htracks with
  | cons hpeer hrest =>
    rename_i fields rest
    cases hrest
    cases interface with
    | none => cases h.order rfl
    | some interface =>
      rcases hpeer with ⟨hnone, -⟩ | ⟨front, value, back, rfl, hother, hnets, -⟩
      · exact absurd hnone (hall peer (by rw [hpeers]; exact mem_singleton_self _))
      · obtain ⟨start, hline, hstart⟩ := h.range peer _ hpeers rfl front value back rfl
        rw [hpeers, map_singleton, widenSetconf, ConfigPeer.widen]
        simp only [hline, hnets]
        rw [h.setconf]
        exact replaceRange_single interface front back value hother extra hstart

theorem planConfigRoutes_spec {routes : List PolicyRoute} {setconf : String}
    (hplan : planConfigRoutes lib st declared = .ok (routes, setconf)) :
    ∃ extra, Planned lib st blocks declared routes setconf extra := by
  rw [planConfigRoutes] at hplan
  split at hplan
  · obtain ⟨⟨peers', expanded'⟩, hcover, hplan⟩ := bind_eq_ok.mp hplan
    cases hplan
    obtain ⟨extra, hspec⟩ := coverRoutes_spec hcover
    refine ⟨extra, ?_, hspec.extra, fun hne => (hspec.widened hne).2, fun route hroute => ?_⟩
    · by_cases hnone : extra = []
      · rw [if_neg (by simp [hspec.same hnone]), hnone]
        exact h.setconf
      · obtain ⟨hexpanded, hsingle⟩ := hspec.widened hnone
        rw [if_pos hexpanded, hspec.peers]
        exact widenSetconf_eq h hall hsingle extra
    · obtain ⟨peer', hpeer', net, hnet, hin⟩ := hspec.covered route hroute
      rw [hspec.peers] at hpeer'
      obtain ⟨peer, hpeer, rfl⟩ := mem_map.mp hpeer'
      exact ⟨peer, hpeer, net, hnet, hin⟩
  · split at hplan
    · cases hplan
      exact ⟨[], h.setconf, by simp, by simp, by simp⟩
    · dsimp only at hplan
      obtain ⟨-, hplan⟩ := passed hplan
      cases hplan
      refine ⟨[], h.setconf, by simp, by simp, fun route hroute => ?_⟩
      obtain ⟨net, hnet, rfl⟩ := mem_map.mp hroute
      obtain ⟨peer, hpeer, hin⟩ := mem_flatMap.mp hnet
      exact ⟨peer, hpeer, net, by simpa using hin, IpNet.containsNet_self net⟩

end

/-! ### What the kernel makes of the text -/

section
variable {lib : WireGuardCrates} {st : ConfigState} {blocks : ConfigBlocks} {extra : List IpNet}
  {fields : List ConfigField}

/-- A field is written under its name. -/
theorem setconfField_key {field written : ConfigField}
    (h : setconfField lib extra field = some written) : field.1 = written.1 := by
  rw [setconfField] at h
  split at h
  · cases h
    rfl
  · split at h
    · split at h <;> cases h
      rfl
    · split at h <;> cases h
      rfl

/-- The key of a peer is written as it is. -/
theorem peerKey_written (extra : List IpNet) (fields : List ConfigField) :
    peerKey lib (fields.filterMap (setconfField lib extra)) = peerKey lib fields := by
  have hlookup : (fields.filterMap (setconfField lib extra)).lookup "publickey" =
      fields.lookup "publickey" := by
    induction fields with
    | nil => rfl
    | cons field fields ih =>
      obtain ⟨key, value⟩ := field
      by_cases hkey : key = "publickey"
      · subst hkey
        have hwritten : setconfField lib extra ("publickey", value) =
            some ("publickey", value) := by
          simp [setconfField]
        rw [filterMap_cons, hwritten]
        rfl
      · have hne : ("publickey" == key) = false := by simpa using Ne.symm hkey
        rw [filterMap_cons]
        cases hcase : setconfField lib extra (key, value) with
        | none =>
          rw [lookup_cons, hne]
          exact ih
        | some written =>
          obtain ⟨key', value'⟩ := written
          have hsame : key = key' := setconfField_key hcase
          subst hsame
          rw [lookup_cons, lookup_cons, hne]
          exact ih
  rw [peerKey, peerKey, hlookup]

theorem keys_setconf (blocks : ConfigBlocks) (extra : List IpNet) :
    (blocks.setconf lib extra).peers.map (peerKey lib) = blocks.peers.map (peerKey lib) := by
  rw [ConfigBlocks.setconf, List.map_map]
  exact List.map_congr_left fun fields _ => peerKey_written extra fields

theorem peerNets_append (fields more : List ConfigField) :
    peerNets lib (fields ++ more) = peerNets lib fields ++ peerNets lib more := flatMap_append

theorem peerNets_other (h : ∀ field ∈ fields, field.1 ≠ "allowedips") : peerNets lib fields = [] := by
  rw [peerNets, flatMap_eq_nil_iff]
  exact fun field hfield => if_neg (h field hfield)

/-- The prefixes of a peer, in the source and in the text. -/
theorem AllowedTracks.nets (hshow : ∀ net, lib.showNet net = renderNet net)
    (hparse : ∀ net, lib.parseNet (renderNet net) = some net)
    (hextra : ∀ net ∈ extra, net.trunc = net) {peer : ConfigPeer}
    (h : AllowedTracks lib peer fields) (hne : peer.allowedIps ≠ []) :
    peerNets lib fields = peer.allowedIps ∧
      peerNets lib (fields.filterMap (setconfField lib extra)) = peer.allowedIps ++ extra := by
  rcases h with ⟨hnone, -⟩ | ⟨front, value, back, rfl, hother, hnets, -⟩
  · exact absurd hnone hne
  have hfront : ∀ field ∈ front, field.1 ≠ "allowedips" := fun f hf => hother f (by simp [hf])
  have hback : ∀ field ∈ back, field.1 ≠ "allowedips" := fun f hf => hother f (by simp [hf])
  have hwritten : setconfField lib extra ("allowedips", value) =
      some ("allowedips", ConfigState.allowedText lib (allowedNets lib value ++ extra)) := by
    rw [setconfField, if_pos rfl]
  have htrunc : ∀ net ∈ allowedNets lib value ++ extra, net.trunc = net := by
    intro net hnet
    rcases mem_append.mp hnet with hnet | hnet
    · obtain ⟨item, -, hitem⟩ := mem_filterMap.mp hnet
      obtain ⟨parsed, -, rfl⟩ := map_eq_some_iff.mp hitem
      exact parsed.trunc_trunc
    · exact hextra net hnet
  have hnonempty : allowedNets lib value ++ extra ≠ [] := by
    rw [← hnets]
    simp [hne]
  have hothers : ∀ fields : List ConfigField, (∀ field ∈ fields, field.1 ≠ "allowedips") →
      ∀ field ∈ fields.filterMap (setconfField lib extra), field.1 ≠ "allowedips" := by
    intro fields hfields field hfield
    obtain ⟨source, hsource, hfield⟩ := mem_filterMap.mp hfield
    rw [← setconfField_key hfield]
    exact hfields source hsource
  constructor
  · rw [peerNets_append, peerNets_other hfront]
    show [] ++ (allowedNets lib value ++ peerNets lib back) = _
    rw [peerNets_other hback, hnets, append_nil, nil_append]
  · rw [filterMap_append, filterMap_cons, hwritten, peerNets_append,
      peerNets_other (hothers front hfront)]
    show [] ++ (allowedNets lib (ConfigState.allowedText lib (allowedNets lib value ++ extra)) ++
      peerNets lib (back.filterMap (setconfField lib extra))) = _
    rw [peerNets_other (hothers back hback), allowedNets_allowedText hshow hparse hnonempty htrunc,
      hnets, append_nil, nil_append]

/-- Every section of a peer belongs to one in the state. -/
theorem exists_peer {peers : List ConfigPeer} {sections : List (List ConfigField)}
    (h : List.Forall₂ (AllowedTracks lib) peers sections) :
    ∀ fields ∈ sections, ∃ peer ∈ peers, AllowedTracks lib peer fields := by
  induction h with
  | nil => simp
  | cons hfirst _ ih =>
    intro fields hfields
    rcases mem_cons.mp hfields with rfl | hfields
    · exact ⟨_, mem_cons_self, hfirst⟩
    · obtain ⟨peer, hpeer, htracks⟩ := ih fields hfields
      exact ⟨peer, mem_cons_of_mem _ hpeer, htracks⟩

/-- What is written is clean. -/
theorem Tracks.clean_setconf (hshow : ∀ net, lib.showNet net = renderNet net)
    (h : Tracks lib st blocks) (hall : ∀ peer ∈ st.peers, peer.allowedIps ≠ [])
    (extra : List IpNet) : (blocks.setconf lib extra).Clean := by
  constructor
  case order =>
    intro hnone
    have hinterface : blocks.interface = none := by simpa [ConfigBlocks.setconf] using hnone
    simp [ConfigBlocks.setconf, h.order hinterface]
  case interface =>
    intro written hwritten field hfield
    obtain ⟨fields, hfields, rfl⟩ := map_eq_some_iff.mp hwritten
    obtain ⟨hmem, hkey⟩ := mem_filter.mp hfield
    refine ⟨?_, h.clean.1 fields hfields field hmem⟩
    rw [isInterfaceKey, Bool.or_eq_true, decide_eq_true_eq, decide_eq_true_eq] at hkey
    rcases hkey with hkey | hkey <;> rw [hkey] <;> decide
  case peers =>
    intro written hwritten field hfield
    obtain ⟨fields, hfields, rfl⟩ := mem_map.mp hwritten
    obtain ⟨source, hsource, hfield⟩ := mem_filterMap.mp hfield
    have hvalue := h.clean.2 fields hfields source hsource
    rw [setconfField] at hfield
    split at hfield
    · rename_i hkey
      cases hfield
      constructor
      · rw [hkey]
        decide
      · apply cleanValue_allowedText hshow
        -- the prefixes of an accepted peer are not empty
        obtain ⟨peer, hpeer, htracks⟩ := exists_peer h.peers fields hfields
        rcases htracks with ⟨hnone, -⟩ | ⟨front, value, back, rfl, hother, hnets, hne⟩
        · exact absurd hnone (hall peer hpeer)
        · have hsame : source = ("allowedips", value) := by
            simp only [mem_append, mem_cons] at hsource
            rcases hsource with hsource | hsource | hsource
            · exact absurd hkey (hother source (by simp [hsource]))
            · exact hsource
            · exact absurd hkey (hother source (by simp [hsource]))
          rw [hsame, ← hnets]
          simp [hne]
    · split at hfield
      · rename_i hkey
        split at hfield <;> cases hfield
        exact ⟨by rw [hkey]; decide, hvalue⟩
      · split at hfield
        · rename_i hkey
          cases hfield
          refine ⟨?_, hvalue⟩
          simp only [Bool.or_eq_true, decide_eq_true_eq] at hkey
          rcases hkey with (hkey | hkey) | hkey <;> rw [hkey] <;> decide
        · cases hfield

end

/-! ### Peers that the kernel can tell apart -/

/-- The `setconf` text of a plan against the sections of its source, with the declared routes in
`extra` added to the prefixes. -/
structure WireGuardPlan.ConsistentWith (lib : WireGuardCrates) (blocks : ConfigBlocks)
    (declared : List PolicyRoute) (extra : List IpNet) (plan : WireGuardPlan) : Prop where
  /-- The cryptokey fields of the source, in its order, and no other. -/
  text : ConfigBlocks.read plan.setconf = some (blocks.setconf lib extra)
  nets : (blocks.setconf lib extra).peers.map (peerNets lib) =
    blocks.peers.map fun fields => peerNets lib fields ++ extra
  added : ∀ net ∈ extra, ∃ route ∈ declared, route.destination = net
  single : extra ≠ [] → blocks.peers.length = 1
  keys : ((blocks.setconf lib extra).peers.map (peerKey lib)).Nodup
  disjoint : ((blocks.setconf lib extra).peers.map (peerNets lib)).Pairwise fun nets nets' =>
    ∀ ip, ¬(Covered nets ip ∧ Covered nets' ip)
  routes : ∀ route ∈ plan.routes, ∃! index : Nat, ∃ nets : List IpNet,
    ((blocks.setconf lib extra).peers.map (peerNets lib))[index]? = some nets ∧
      ∃ net ∈ nets, net.containsNet route.destination = true
  dns : ∀ server ∈ plan.dnsServers, ∃ route ∈ plan.routes,
    route.destination.containsAddr server = true

def WireGuardPlan.Consistent (source : String)
    (declared : List PolicyRoute) (plan : WireGuardPlan) : Prop :=
  ∃ blocks extra, ConfigBlocks.read source = some blocks ∧
    plan.ConsistentWith lib blocks declared extra

section
variable {lib : WireGuardCrates} {st : ConfigState} {blocks : ConfigBlocks} {extra : List IpNet}
variable {nets : List IpNet}
  {source : String} {declared routes : List PolicyRoute} {plan : WireGuardPlan}
  {peers : List ConfigPeer}

theorem checkAllowed_apart {prior seen : List IpNet} (h : checkAllowed prior seen nets = .ok ()) :
    ∀ net ∈ nets, ∀ before ∈ prior, before.containsNet net = false ∧
      net.containsNet before = false := by
  induction nets generalizing seen with
  | nil => simp
  | cons first nets ih =>
    rw [checkAllowed] at h
    obtain ⟨-, h⟩ := passed h
    obtain ⟨hapart, h⟩ := passed h
    intro net hnet before hbefore
    rcases mem_cons.mp hnet with rfl | hnet
    · rw [Bool.not_eq_true, List.any_eq_false] at hapart
      simpa [Bool.or_eq_true, not_or] using hapart before hbefore
    · exact ih h net hnet before hbefore

/-- No prefix of a peer is within one of another. -/
theorem checkPeers_apart {prior : List IpNet} (h : checkPeers prior peers = .ok ()) :
    (∀ peer ∈ peers, ∀ net ∈ peer.allowedIps, ∀ before ∈ prior,
        before.containsNet net = false ∧ net.containsNet before = false) ∧
      peers.Pairwise fun peer peer' => ∀ net ∈ peer.allowedIps, ∀ net' ∈ peer'.allowedIps,
        net.containsNet net' = false ∧ net'.containsNet net = false := by
  induction peers generalizing prior with
  | nil => simp
  | cons peer peers ih =>
    rw [checkPeers] at h
    obtain ⟨_, hfirst, hrest⟩ := bind_eq_ok.mp h
    obtain ⟨hprior, hpairs⟩ := ih hrest
    constructor
    · intro peer' hpeer' net hnet before hbefore
      rcases mem_cons.mp hpeer' with rfl | hpeer'
      · exact checkAllowed_apart hfirst net hnet before hbefore
      · exact hprior peer' hpeer' net hnet before (by simp [hbefore])
    · refine pairwise_cons.mpr ⟨fun peer' hpeer' net hnet net' hnet' => ?_, hpairs⟩
      exact hprior peer' hpeer' net' hnet' net (by simp [hnet])

/-- Prefixes that are not within each other have no address in common. -/
theorem not_covered_both {nets' : List IpNet}
    (h : ∀ net ∈ nets, ∀ net' ∈ nets', net.containsNet net' = false ∧ net'.containsNet net = false)
    (ip : IpAddr) : ¬(Covered nets ip ∧ Covered nets' ip) := by
  rintro ⟨⟨net, hnet, hin⟩, net', hnet', hin'⟩
  obtain ⟨hout, hout'⟩ := h net hnet net' hnet'
  rcases IpNet.nested_of_containsAddr hin hin' with hnested | hnested
  · rw [hout] at hnested
    cases hnested
  · rw [hout'] at hnested
    cases hnested

theorem allowed_of_checkConfig (h : checkConfig st = .ok ()) :
    ∀ peer ∈ st.peers, peer.allowedIps ≠ [] := by
  rw [checkConfig] at h
  split at h
  · cases h
  split at h
  · cases h
  obtain ⟨hall, h⟩ := passed h
  simp only [Bool.or_eq_true, not_or, Bool.not_eq_true, List.any_eq_false, List.isEmpty_iff] at hall
  exact hall.2

theorem dns_of_finishPlan {setconf : String} (h : finishPlan lib st routes setconf = .ok plan) :
    plan.setconf = setconf ∧ plan.routes = routes ∧
      ∀ server ∈ plan.dnsServers, ∃ route ∈ plan.routes,
        route.destination.containsAddr server = true := by
  have hplan := finishPlan_eq h
  unfold finishPlan at h
  dsimp only at h
  split at h
  · cases h
  obtain ⟨hdns, h⟩ := passed h
  simp only [Bool.not_eq_true', Bool.not_eq_false, List.all_eq_true, List.any_eq_true] at hdns
  rw [hplan]
  exact ⟨rfl, rfl, hdns⟩

/-- The prefixes of the sections are those of the peers. -/
theorem nets_of_tracks (hshow : ∀ net, lib.showNet net = renderNet net)
    (hparse : ∀ net, lib.parseNet (renderNet net) = some net)
    (hextra : ∀ net ∈ extra, net.trunc = net) {sections : List (List ConfigField)}
    (h : List.Forall₂ (AllowedTracks lib) peers sections)
    (hall : ∀ peer ∈ peers, peer.allowedIps ≠ []) :
    (sections.map fun fields => peerNets lib fields ++ extra) =
        peers.map (fun peer => peer.allowedIps ++ extra) ∧
      (sections.map fun fields => peerNets lib (fields.filterMap (setconfField lib extra))) =
        peers.map (fun peer => peer.allowedIps ++ extra) := by
  induction h with
  | nil => exact ⟨rfl, rfl⟩
  | @cons peer fields peers sections hfirst _ ih =>
    obtain ⟨hsource, hwritten⟩ := hfirst.nets hshow hparse hextra (hall peer (by simp))
    obtain ⟨ihsource, ihwritten⟩ := ih fun p hp => hall p (by simp [hp])
    rw [map_cons, map_cons, map_cons, ihsource, ihwritten, hsource, hwritten]
    exact ⟨rfl, rfl⟩

/-- Disjoint lists of prefixes that both hold a prefix of the same route are one. -/
theorem unique_index {all : List (List IpNet)}
    (hdisjoint : all.Pairwise fun nets nets' => ∀ ip, ¬(Covered nets ip ∧ Covered nets' ip))
    (hmem : nets ∈ all) {destination : IpNet}
    (hin : ∃ net ∈ nets, net.containsNet destination = true) :
    ∃! index : Nat, ∃ nets : List IpNet, all[index]? = some nets ∧
      ∃ net ∈ nets, net.containsNet destination = true := by
  have hcovered : ∀ nets : List IpNet, (∃ net ∈ nets, net.containsNet destination = true) →
      Covered nets destination.addr := by
    rintro nets ⟨net, hnet, hcontains⟩
    exact ⟨net, hnet,
      IpNet.containsAddr_of_containsNet hcontains (IpNet.containsAddr_addr destination)⟩
  obtain ⟨index, hindex⟩ := mem_iff_getElem?.mp hmem
  refine ⟨index, ⟨nets, hindex, hin⟩, ?_⟩
  rintro other ⟨nets', hother, hin'⟩
  obtain ⟨hlt, hget⟩ := List.getElem?_eq_some_iff.mp hindex
  obtain ⟨hlt', hget'⟩ := List.getElem?_eq_some_iff.mp hother
  have hpairs := pairwise_iff_getElem.mp hdisjoint
  rcases Nat.lt_trichotomy other index with hless | hsame | hless
  · have hapart := hpairs other index hlt' hlt hless destination.addr
    rw [hget, hget'] at hapart
    exact absurd ⟨hcovered nets' hin', hcovered nets hin⟩ hapart
  · exact hsame
  · have hapart := hpairs index other hlt hlt' hless destination.addr
    rw [hget, hget'] at hapart
    exact absurd ⟨hcovered nets hin, hcovered nets' hin'⟩ hapart

/-- Everything but the keys is consistent in every accepted plan. -/
theorem consistent_of_parsed (hshow : ∀ net, lib.showNet net = renderNet net)
    (hparse : ∀ net, lib.parseNet (renderNet net) = some net)
    (h : parseWireguardConfig lib source declared = .ok plan) :
    ∃ blocks extra, ConfigBlocks.read source = some blocks ∧
      ((blocks.peers.map (peerKey lib)).Nodup →
        plan.ConsistentWith lib blocks declared extra) := by
  unfold parseWireguardConfig at h
  split at h
  · cases h
  split at h
  · cases h
  obtain ⟨st, hrun, h⟩ := bind_eq_ok.mp h
  obtain ⟨_, hcheck, h⟩ := bind_eq_ok.mp h
  obtain ⟨_, hapart, h⟩ := bind_eq_ok.mp h
  obtain ⟨⟨routes, setconf⟩, hplanned, h⟩ := bind_eq_ok.mp h
  obtain ⟨blocks, hread, htracks⟩ :=
    (@tracks_blank lib).run (fun raw hraw => of_mem_textLines hraw) hrun
  have hall := allowed_of_checkConfig hcheck
  obtain ⟨extra, hspec⟩ := planConfigRoutes_spec htracks hall hplanned
  obtain ⟨hsetconf, hroutes, hdns⟩ := dns_of_finishPlan h
  have htrunc : ∀ net ∈ extra, net.trunc = net := fun net hnet => (hspec.added net hnet).1
  obtain ⟨hsource, hwritten⟩ := nets_of_tracks hshow hparse htrunc htracks.peers hall
  have hnets : (blocks.setconf lib extra).peers.map (peerNets lib) =
      st.peers.map fun peer => peer.allowedIps ++ extra := by
    rw [ConfigBlocks.setconf, List.map_map]
    exact hwritten
  have hdisjoint : ((blocks.setconf lib extra).peers.map (peerNets lib)).Pairwise
      fun nets nets' => ∀ ip, ¬(Covered nets ip ∧ Covered nets' ip) := by
    rw [hnets]
    by_cases hnone : extra = []
    · rw [pairwise_map, hnone]
      refine (checkPeers_apart hapart).2.imp fun hpair ip => ?_
      rw [append_nil, append_nil]
      exact not_covered_both hpair ip
    · obtain ⟨peer, hpeers⟩ := length_eq_one_iff.mp (hspec.single hnone)
      rw [hpeers]
      exact pairwise_singleton _ _
  refine ⟨blocks, extra, hread, fun hkeys => ?_⟩
  constructor
  case text =>
    rw [hsetconf, hspec.text]
    exact read_lines (htracks.clean_setconf hshow hall extra)
  case nets => rw [hnets, hsource]
  case added => exact fun net hnet => (hspec.added net hnet).2
  case single =>
    intro hne
    rw [← htracks.peers.length_eq]
    exact hspec.single hne
  case keys =>
    rw [keys_setconf]
    exact hkeys
  case disjoint => exact hdisjoint
  case routes =>
    intro route hroute
    rw [hroutes] at hroute
    obtain ⟨peer, hpeer, net, hnet, hin⟩ := hspec.covered route hroute
    refine unique_index hdisjoint ?_ ⟨net, hnet, hin⟩
    rw [hnets]
    exact mem_map_of_mem hpeer
  case dns => exact hdns

theorem keys_of_consistent (h : plan.Consistent lib source declared) :
    ∃ blocks, ConfigBlocks.read source = some blocks ∧
      (blocks.peers.map (peerKey lib)).Nodup := by
  obtain ⟨blocks, extra, hread, hconsistent⟩ := h
  have hkeys := hconsistent.keys
  rw [keys_setconf] at hkeys
  exact ⟨blocks, hread, hkeys⟩

/-- An accepted plan is consistent exactly where the source names no peer twice. -/
theorem consistent_iff (hshow : ∀ net, lib.showNet net = renderNet net)
    (hparse : ∀ net, lib.parseNet (renderNet net) = some net)
    (h : parseWireguardConfig lib source declared = .ok plan) :
    plan.Consistent lib source declared ↔
      ∃ blocks, ConfigBlocks.read source = some blocks ∧
        (blocks.peers.map (peerKey lib)).Nodup := by
  constructor
  · exact keys_of_consistent
  · rintro ⟨blocks, hread, hkeys⟩
    obtain ⟨blocks', extra, hread', hconsistent⟩ := consistent_of_parsed hshow hparse h
    have hsame : blocks = blocks' := Option.some.inj (hread.symm.trans hread')
    subst hsame
    exact ⟨blocks, extra, hread, hconsistent hkeys⟩

def branchKey : String := "AAAAAAAAAAAAAAAAAAAAAAAAAAAAAAAAAAAAAAAAAAQ="

/-- The crates, with a decoder for two keys. The prefixes below are aggregated already. -/
def twinCrates : WireGuardCrates where
  parseNet := parseNet
  showNet := renderNet
  aggregate := id
  decodeBase64 text :=
    if text = officeKey then some (List.replicate 32 0)
    else if text = branchKey then some (List.replicate 31 0 ++ [4])
    else none

theorem twinCrates_lawful : (∀ net, twinCrates.showNet net = renderNet net) ∧
    ∀ net, twinCrates.parseNet (renderNet net) = some net := by
  simp only [twinCrates]
  exact ⟨fun _ => trivial, parseNet_renderNet⟩

/-- Two peers with networks of their own. The second one has the given key. -/
def twinLines (key : String) : List (List Char) :=
  ["[Interface]".toList, ("PrivateKey = " ++ officeKey).toList, "Address = 10.77.0.2/32".toList,
    "[Peer]".toList, ("PublicKey = " ++ officeKey).toList, "Endpoint = harbor:51820".toList,
    "AllowedIPs = 10.1.0.0/16".toList, "[Peer]".toList, ("PublicKey = " ++ key).toList,
    "AllowedIPs = 10.2.0.0/16".toList]

def twinSource (key : String) : String := String.ofList (unlines (twinLines key))

def twinBlocks (key : String) : ConfigBlocks :=
  { interface := some [("privatekey", officeKey), ("address", "10.77.0.2/32")]
    peers :=
      [[("publickey", officeKey), ("endpoint", "harbor:51820"), ("allowedips", "10.1.0.0/16")],
        [("publickey", key), ("allowedips", "10.2.0.0/16")]] }

/-- Two sections with keys of their own are two peers. -/
theorem twins_consistent :
    ∃ plan, parseWireguardConfig twinCrates (twinSource branchKey) [] = .ok plan ∧
      plan.Consistent twinCrates (twinSource branchKey) [] := by
  have hlines : textLines (twinSource branchKey) = twinLines branchKey :=
    textLines_unlines_clean (by decide)
  have haccepted : (parseWireguardConfig twinCrates (twinSource branchKey) []).isOk = true := by
    rw [parseWireguardConfig, hlines]
    decide +kernel
  have hread : ConfigBlocks.read (twinSource branchKey) = some (twinBlocks branchKey) := by
    rw [ConfigBlocks.read, hlines]
    decide
  cases hplan : parseWireguardConfig twinCrates (twinSource branchKey) [] with
  | error e =>
    rw [hplan] at haccepted
    cases haccepted
  | ok plan =>
    have hdistinct : ((twinBlocks branchKey).peers.map (peerKey twinCrates)).Nodup := by
      decide
    exact ⟨plan, rfl, (consistent_iff twinCrates_lawful.1 twinCrates_lawful.2 hplan).mpr
      ⟨_, hread, hdistinct⟩⟩

/-- Two sections with one key are accepted, and are one peer to the kernel. -/
theorem same_key_accepted :
    ∃ plan, parseWireguardConfig twinCrates (twinSource officeKey) [] = .ok plan ∧
      ¬plan.Consistent twinCrates (twinSource officeKey) [] := by
  have hlines : textLines (twinSource officeKey) = twinLines officeKey :=
    textLines_unlines_clean (by decide)
  have haccepted : (parseWireguardConfig twinCrates (twinSource officeKey) []).isOk = true := by
    rw [parseWireguardConfig, hlines]
    decide +kernel
  have hread : ConfigBlocks.read (twinSource officeKey) = some (twinBlocks officeKey) := by
    rw [ConfigBlocks.read, hlines]
    decide
  have hsame : ¬((twinBlocks officeKey).peers.map (peerKey twinCrates)).Nodup := by decide
  cases hplan : parseWireguardConfig twinCrates (twinSource officeKey) [] with
  | error e =>
    rw [hplan] at haccepted
    cases haccepted
  | ok plan =>
    refine ⟨plan, rfl, fun hconsistent => hsame ?_⟩
    obtain ⟨blocks, hblocks, hdistinct⟩ := keys_of_consistent hconsistent
    rw [hread] at hblocks
    rw [Option.some.inj hblocks]
    exact hdistinct

end

end NetOrchestrator.Daemon
