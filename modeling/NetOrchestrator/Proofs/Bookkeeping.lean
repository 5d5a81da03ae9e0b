import NetOrchestrator.Lib.Utf8
import NetOrchestrator.Proofs.MachineFrames

/-!
# `Proofs.Bookkeeping`: what an executor has on record and in hand

An executor adds routes and resolver files, puts them on record, and later deletes what the record
says. Two things can go wrong with that: it deletes what is not its own, or it leaves something
that no record has. Both are about the same few steps. `Bookkeeping` says what has to be known
about each of them, and from that follows what every request does, in all its branches
(`BookedRequests`).

`idle` holds between two requests and `cut` wherever the helper dies. A component at work has
something in hand. `own` are the routes that it may delete, `cover` are the ones that it must not
forget, and it must not forget the resolver files of `domains` either. `filed` are the domains that
its journal has.
-/

namespace NetOrchestrator.Macos

open Net Lib Lib.Call List Bool Verdict
open Daemon (validDnsSuffix)

/-- Nothing that bookkeeping is about is different, but for routes that went with a device. -/
structure BooksSame (w w' : Machine) : Prop where
  table : ∃ gone, w'.table = w.table.drop gone
  resolvers : w'.resolvers = w.resolvers
  journal : w'.journal = w.journal
  record : w'.sessionRecord = w.sessionRecord
  guarded : w'.guarded = w.guarded
  deleted : w'.deleted = w.deleted
  behind : w'.behind = w.behind
  undone : w'.undone = true → w.undone = true
  supervised : w'.supervised = true → w.supervised = true
  routesClean : w'.routesClean = w.routesClean
  filesClean : w'.filesClean = w.filesClean

/-- The session of one component is another, and everything else is the same. -/
structure Handed (who : Component) (w w' : Machine) : Prop where
  table : w'.table = w.table
  resolvers : w'.resolvers = w.resolvers
  journal : w'.journal = w.journal
  record : ∀ other, other ≠ who → w'.sessionRecord other = w.sessionRecord other
  guarded : w'.guarded = w.guarded
  deleted : w'.deleted = w.deleted
  behind : w'.behind = w.behind
  undone : w'.undone = w.undone
  supervised : w'.supervised = w.supervised
  routesClean : w'.routesClean = w.routesClean
  filesClean : w'.filesClean = w.filesClean

/-- What a component has in hand, as a predicate on states. -/
abbrev Holding :=
  Component → List RouteOp → List RouteOp → List String → List String → Machine → Prop

/-- What has to be known about the steps of an executor. -/
structure Bookkeeping (idle cut : Machine → Prop) (hand : Holding) : Prop where
  idle_same : Respects BooksSame idle
  hand_same : ∀ {who own cover domains filed}, Respects BooksSame (hand who own cover domains filed)
  idle_cut : ∀ {w}, idle w → cut w
  hand_cut : ∀ {who own cover domains filed w}, hand who own cover domains filed w → cut w
  hand_idle : ∀ {who own cover domains filed w}, hand who own cover domains filed w →
    w.sessionRecord who = none
  adjust : ∀ {who own own' cover cover' domains domains' filed filed' w}, own' ⊆ own →
    cover ⊆ cover' → domains ⊆ domains' → filed' ⊆ filed → hand who own cover domains filed w →
    hand who own' cover' domains' filed' w
  /-- A session or a leftover journal is taken in hand. -/
  take : ∀ {kind w w'} {record : Record}, idle w → w.sessionRecord (.tunnel kind) = some record →
    Handed (.tunnel kind) w w' → w'.sessionRecord (.tunnel kind) = none →
    hand (.tunnel kind) record.routes record.routes record.resolverDomains [] w'
  load : ∀ {kind w} {record : Record}, idle w → w.sessionRecord (.tunnel kind) = none →
    w.journal (.tunnel kind) = some record →
    hand (.tunnel kind) record.routes record.routes record.resolverDomains [] w
  fresh : ∀ {kind w}, idle w → w.sessionRecord (.tunnel kind) = none →
    w.journal (.tunnel kind) = none → hand (.tunnel kind) [] [] [] [] w
  /-- A session starts, or nothing is left in hand. -/
  start : ∀ {kind own cover domains filed w w'} {record : Record},
    hand (.tunnel kind) own cover domains filed w → record.routes ⊆ own →
    cover ⊆ record.routes → domains ⊆ record.resolverDomains → Handed (.tunnel kind) w w' →
    w'.sessionRecord (.tunnel kind) = some record → idle w'
  done : ∀ {kind own filed w}, hand (.tunnel kind) own [] [] filed w → idle w
  unsupervised : ∀ {kind own cover filed w},
    hand (.tunnel kind) own cover [] filed w → w.supervised = false → idle w
  plan : ∀ {who own cover domains filed w} (ops : List RouteOp),
    hand who own cover domains filed w →
    hand who (own ++ requiredOps ops) cover domains filed (w.planned who ops)
  add : ∀ {who own cover domains filed w} {op : RouteOp}, hand who own cover domains filed w →
    w.table.has op.net = false →
    hand who (own ++ [op]) (cover ++ [op]) domains filed (w.routeAdded who op)
  delete : ∀ {who own cover cover' domains filed w} {op : RouteOp},
    hand who own cover domains filed w → op ∈ own →
    (∀ c ∈ cover, c.net = op.net ∨ c ∈ cover') →
    hand who own cover' domains filed (w.routeDeleted who op)
  deleteFailed : ∀ {who own cover cover' domains filed w} {op : RouteOp},
    hand who own cover domains filed w → (∀ c ∈ cover, c.net = op.net ∨ c ∈ cover') →
    hand who own cover' domains filed { w with undone := w.undone && !w.table.has op.net }
  save : ∀ {who own cover domains filed w} {record : Record},
    hand who own cover domains filed w → record.routes ⊆ own → cover ⊆ record.routes →
    domains ⊆ record.resolverDomains →
    hand who own cover domains record.resolverDomains (w.saved who record)
  /-- A journal that is behind is not asked for anything. -/
  saveFailed : ∀ {who own cover domains filed filed' w}, hand who own cover domains filed w →
    hand who own cover domains filed' { w with behind := Function.update w.behind who true }
  clear : ∀ {who own filed w}, hand who own [] [] filed w →
    hand who own [] [] [] (w.cleared who)
  /-- An Xray has no resolver files. -/
  noFiles : ∀ {own cover domains filed w}, hand xrayTunnel own cover domains filed w →
    hand xrayTunnel own cover [] filed w
  write : ∀ {who own cover domains filed domain servers w}, hand who own cover domains filed w →
    who ≠ xrayTunnel → validDnsSuffix domain = true → domain ∈ domains → domain ∈ filed →
    hand who own cover domains filed (w.resolverWritten who domain servers)
  remove : ∀ {who own cover domains domains' filed domain w},
    hand who own cover domains filed w → (∀ d ∈ domains, d = domain ∨ d ∈ domains') →
    hand who own cover domains' filed { w with resolvers := w.resolvers.erase domain }
  removeFailed : ∀ {who own cover domains domains' filed w}, hand who own cover domains filed w →
    hand who own cover domains' filed { w with undone := false, filesClean := false }
  /-- A file that is not the helper's is not in hand. -/
  skip : ∀ {who own cover domains domains' filed domain w}, hand who own cover domains filed w →
    (validDnsSuffix domain && (w.resolvers.get domain).any ResolverFile.marked) = false →
    (∀ d ∈ domains, d = domain ∨ d ∈ domains') → hand who own cover domains' filed w

/-! ### Steps that leave the books alone -/

instance : Coarser Aside BooksSame :=
  ⟨fun {w _} h => ⟨⟨fun _ => false, h.table.trans w.table.drop_none.symm⟩, h.resolvers, h.journal,
    h.record, h.guarded, h.deleted, h.behind, h.undone, h.supervised, h.routesClean, h.filesClean⟩⟩

instance : Coarser Trimmed BooksSame :=
  ⟨fun h => ⟨h.table, h.resolvers, h.journal, h.record, h.guarded, h.deleted, h.behind,
    fun hu => h.undone.symm.trans hu, fun hs => h.supervised.symm.trans hs, h.routesClean,
    h.filesClean⟩⟩

instance : Coarser DnsMoved BooksSame :=
  ⟨fun {w _} h => ⟨⟨fun _ => false, h.table.trans w.table.drop_none.symm⟩, h.resolvers, h.journal,
    h.record, h.guarded, h.deleted, h.behind, h.undone, fun hs => h.supervised.symm.trans hs,
    h.routesClean, h.filesClean⟩⟩

/-! ### The suffixes of split DNS are in lower case -/

theorem toLower_char (c : Char) : c.toLower.toLower = c.toLower :=
  toLower_of_not_isUpper (not_isUpper_toLower c)

theorem toLower_toLower (s : String) : s.toLower.toLower = s.toLower := by
  show String.map Char.toLower (String.map Char.toLower s) = String.map Char.toLower s
  rw [String.map_map]
  congr 1
  funext c
  exact toLower_char c

theorem toLower_mem_splitDomains (domains : List String) :
    ∀ name ∈ splitDomains domains, name.toLower ∈ splitDomains domains := by
  intro name hname
  obtain ⟨hmem, hvalid⟩ := mem_filter.mp hname
  obtain ⟨domain, hdomain, rfl⟩ := mem_map.mp hmem
  rw [toLower_toLower]
  exact hname

theorem toLower_mem_wgDomains (request : WgRequest) (config : WgConfig) :
    ∀ name ∈ wgDomains request config, name.toLower ∈ wgDomains request config := by
  unfold wgDomains
  split
  · exact toLower_mem_splitDomains request.dnsDomains
  · intro name hname
    cases hname

namespace Bookkeeping
variable {idle cut : Machine → Prop} {hand : Holding}
variable {ops : List RouteOp} {record : Record} {names : List String}
  (b : Bookkeeping idle cut hand) {who : Component} {own cover : List RouteOp}
  {domains filed : List String} {w : Machine} {α : Type}

include b

/-- Whoever writes no file need not know what the journal has. -/
theorem unfile (h : hand who own cover domains filed w) : hand who own cover domains [] w :=
  b.adjust (List.Subset.refl _) (List.Subset.refl _) (List.Subset.refl _) (nil_subset _) h

variable {m : HelperProg α}

theorem free (hm : Preserves BooksSame m) :
    KeepsUntil Any (hand who own cover domains filed) cut m := by
  intro w h
  exact hm.wp b.hand_same h (fun _ _ hh => hh) (fun _ _ hh => hh) (fun _ hh => b.hand_cut hh)

theorem quiet (hm : Quietly BooksSame m) (h : hand who own cover domains filed w) :
    wp Any m (fun _ => hand who own cover domains filed) (fun _ _ => False) cut w :=
  wp_mono (hm _ b.hand_same w h) (fun _ _ hh => hh) (fun _ _ hf => hf) (fun _ hh => b.hand_cut hh)

/-! ### Routes -/

section
variable (h : hand who own cover domains filed w) {left : List RouteOp}
include h

theorem wp_deleteRoute {op : RouteOp} (hop : op ∈ own)
    (hleft : ∀ c ∈ cover, c.net = op.net ∨ c ∈ left) :
    wp Any (deleteRoute who op) (fun _ => hand who own left domains filed)
      (fun _ _ => False) cut w := by
  apply wp_tried
  apply wp_command (b.hand_cut h)
  · exact fun _ => wp_modify (b.deleteFailed h hleft)
  · exact wp_pure (b.delete h hop hleft)

theorem wp_deleteEach (hops : ops ⊆ own)
    (hleft : ∀ c ∈ cover, (∃ op ∈ ops, c.net = op.net) ∨ c ∈ left) :
    wp Any (forEach (deleteRoute who) ops) (fun _ => hand who own left domains filed)
      (fun _ _ => False) cut w := by
  induction ops generalizing cover w with
  | nil =>
    apply wp_pure
    refine b.adjust (List.Subset.refl own) ?_ (List.Subset.refl domains) (List.Subset.refl filed) h
    intro c hc
    simpa using hleft c hc
  | cons op rest ih =>
    apply wp_bind
    -- What is still in hand is the part of `cover` with another destination.
    have hrest : ∀ c ∈ cover, c.net = op.net ∨ c ∈ cover.filter fun c => c.net ≠ op.net := by
      intro c hc
      by_cases hnet : c.net = op.net
      · exact .inl hnet
      · exact .inr (mem_filter.mpr ⟨hc, by simpa using hnet⟩)
    refine wp_post (b.wp_deleteRoute h (hops mem_cons_self) hrest) ?_
    intro _ v hv
    apply ih hv (fun op hop => hops (mem_cons_of_mem _ hop))
    intro c hc
    obtain ⟨hmem, hne⟩ := mem_filter.mp hc
    rcases hleft c hmem with ⟨op', hop', hnet⟩ | hkept
    · rcases mem_cons.mp hop' with rfl | hin
      · exact absurd hnet (by simpa using hne)
      · exact .inl ⟨op', hin, hnet⟩
    · exact .inr hkept

/-- All that `ops` name is gone. -/
theorem wp_removeRoutes (hops : ops ⊆ own)
    (hleft : ∀ c ∈ cover, (∃ op ∈ ops, c.net = op.net) ∨ c ∈ left) :
    wp Any (removeRoutes who ops) (fun _ => hand who own left domains filed)
      (fun _ _ => False) cut w := by
  refine b.wp_deleteEach h (fun op hop => hops (mem_reverse.mp hop)) ?_
  intro c hc
  rcases hleft c hc with ⟨op, hop, hnet⟩ | hkept
  · exact .inl ⟨op, mem_reverse.mpr hop, hnet⟩
  · exact .inr hkept

/-- The routes in hand are removed. -/
theorem wp_removeOwn (hops : ops ⊆ own) (hcover : cover ⊆ ops) :
    wp Any (removeRoutes who ops) (fun _ => hand who own [] domains filed)
      (fun _ _ => False) cut w :=
  b.wp_removeRoutes h hops fun c hc => .inl ⟨c, hcover hc, rfl⟩

theorem wp_addRoute {op : RouteOp} :
    wp Any (addRoute who op) (fun _ => hand who (own ++ [op]) (cover ++ [op]) domains filed)
      (fun _ => hand who own cover domains filed) cut w := by
  apply wp_step
  · exact fun _ => b.hand_cut h
  · exact fun _ _ => h
  · intro _ w' hrun
    split at hrun
    · cases hrun
    · rename_i hfree
      cases hrun
      exact b.add h (by simpa using hfree)
  · intro e w' hrun
    split at hrun
    · cases hrun
      exact h
    · cases hrun

end

theorem wp_applyLoop {base installed : List RouteOp}
    (h : hand who (own ++ installed) (base ++ installed) domains filed w) :
    wp Any (applyLoop who installed ops)
      (fun got => hand who (own ++ got) (base ++ got) domains filed)
      (fun _ => hand who own base domains filed) cut w := by
  induction ops generalizing installed w with
  | nil => exact wp_pure h
  | cons op rest ih =>
    refine wp_either (b.wp_addRoute h) ?_ ?_
    · intro _ v hv
      rw [append_assoc, append_assoc] at hv
      exact ih hv
    · intro _ v hv
      show wp Any (if _ then _ else _) _ _ _ v
      split
      · exact ih hv
      · -- A required route could not be added: what was added is removed.
        have hleft : ∀ c ∈ base ++ installed, (∃ op ∈ installed, c.net = op.net) ∨ c ∈ base := by
          intro c hc
          rcases mem_append.mp hc with hbase | hinst
          · exact .inr hbase
          · exact .inl ⟨c, hinst, rfl⟩
        apply wp_after (b.wp_removeRoutes hv (subset_append_right _ _) hleft)
        intro _ u hu
        exact wp_throw (b.adjust (subset_append_left _ _) (List.Subset.refl _)
          (List.Subset.refl _) (List.Subset.refl _) hu)

theorem wp_applyRoutes {base : List RouteOp} (h : hand who own base domains filed w) :
    wp Any (applyRoutes who ops) (fun got => hand who (own ++ got) (base ++ got) domains filed)
      (fun _ => hand who own base domains filed) cut w := by
  apply b.wp_applyLoop
  simpa using h

/-! ### Journals -/

section
variable (h : hand who own cover domains filed w) (hroutes : record.routes ⊆ own)
  (hcover : cover ⊆ record.routes) (hdomains : domains ⊆ record.resolverDomains)
include h hroutes hcover hdomains

/-- Whether the save goes through or not, the domains of the record may now have files. -/
theorem wp_saveJournal : wp Any (saveJournal who record)
      (fun _ => hand who own cover domains record.resolverDomains)
      (fun _ => hand who own cover domains record.resolverDomains) cut w := by
  apply wp_tried
  apply wp_command (b.hand_cut h)
  · exact fun _ => wp_write (wp_throw (b.saveFailed h))
  · exact wp_pure (b.save h hroutes hcover hdomains)

theorem wp_trySave : wp Any (trySave who record)
      (fun _ => hand who own cover domains record.resolverDomains) (fun _ _ => False) cut w := by
  apply wp_discard
  exact wp_attempt (b.wp_saveJournal h hroutes hcover hdomains)

end

theorem wp_clearJournal (h : hand who own [] [] filed w) :
    wp Any (clearJournal who) (fun _ => hand who own [] [] [])
      (fun _ => hand who own [] [] []) cut w := by
  apply wp_tried
  apply wp_command (b.hand_cut h)
  · intro _
    exact wp_write (wp_throw (b.hand_same w _ (Coarser.le (dnsMoved w _ false _ Bool.noConfusion))
      (b.unfile h)))
  · exact wp_pure (b.clear h)

theorem wp_tryClear (h : hand who own [] [] filed w) :
    wp Any (tryClear who) (fun _ => hand who own [] [] []) (fun _ _ => False) cut w :=
  wp_discard (wp_attempt (b.wp_clearJournal h))

/-! ### Resolver files -/

section
variable {servers : List IpAddr} (hwho : who ≠ xrayTunnel)
  (hnames : ∀ name ∈ names, name.toLower ∈ filed) (hdomains : filed ⊆ domains)
include hwho hnames hdomains

theorem keeps_applyResolvers {written : List String} :
    KeepsUntil Any (hand who own cover domains filed) cut
      (applyResolvers who servers written names) := by
  induction names generalizing written with
  | nil => exact .pure written
  | cons name rest ih =>
    intro w h
    apply wp_read
    show wp Any (if _ then _ else _) _ _ _ w
    split
    · rename_i hvalid
      apply wp_bind
      apply wp_command (b.hand_cut h) (fun _ => h)
      exact ih (fun name hname => hnames name (mem_cons_of_mem _ hname)) _
        (b.write h hwho (and_eq_true_iff.mp hvalid).1
          (hdomains (hnames name mem_cons_self)) (hnames name mem_cons_self))
    · exact ih (fun name hname => hnames name (mem_cons_of_mem _ hname)) w h

theorem keeps_resolverApply : KeepsUntil Any (hand who own cover domains filed) cut
      (resolverApply who names servers) := by
  apply KeepsUntil.ite (.pure [])
  apply KeepsUntil.bind (b.free (aside_reading _))
  exact fun _ => b.keeps_applyResolvers hwho hnames hdomains

end

theorem wp_removeResolver {domain : String} {left : List String}
    (h : hand who own cover domains filed w) (hleft : ∀ d ∈ domains, d = domain ∨ d ∈ left) :
    wp Any (removeResolver domain) (fun _ => hand who own cover left filed)
      (fun _ _ => False) cut w := by
  apply wp_read
  show wp Any (if _ then _ else _) _ _ _ w
  split
  · apply wp_tried
    apply wp_command (b.hand_cut h)
    · exact fun _ => wp_modify (b.removeFailed h)
    · exact wp_pure (b.remove h hleft)
  · rename_i hskip
    exact wp_pure (b.skip h (by simpa using hskip) hleft)

/-- All files of `names` are gone. -/
theorem wp_resolverRemove (left : List String)
    (h : hand who own cover domains filed w) (hleft : ∀ d ∈ domains, d ∈ names ∨ d ∈ left) :
    wp Any (resolverRemove names) (fun _ => hand who own cover left filed)
      (fun _ _ => False) cut w := by
  show wp Any (forEach removeResolver names) _ _ _ w
  induction names generalizing domains w with
  | nil =>
    apply wp_pure
    refine b.adjust (List.Subset.refl own) (List.Subset.refl cover) ?_ (List.Subset.refl filed) h
    intro d hd
    simpa using hleft d hd
  | cons name rest ih =>
    apply wp_bind
    have hrest : ∀ d ∈ domains, d = name ∨ d ∈ domains.filter fun d => d ≠ name := by
      intro d hd
      by_cases hname : d = name
      · exact .inl hname
      · exact .inr (mem_filter.mpr ⟨hd, by simpa using hname⟩)
    refine wp_post (b.wp_removeResolver h hrest) ?_
    intro _ v hv
    apply ih hv
    intro d hd
    obtain ⟨hmem, hne⟩ := mem_filter.mp hd
    rcases hleft d hmem with hin | hkept
    · rcases mem_cons.mp hin with hname | hin
      · exact absurd hname (by simpa using hne)
      · exact .inl hin
    · exact .inr hkept

/-! ### Undoing a record -/

/-- The end of every teardown: nothing is left in hand, whether the journal is gone or not. -/
theorem wp_undoRecord {rest : HelperProg Unit}
    (hrest : ∀ v, hand who record.routes [] domains filed v →
      wp Any rest (fun _ => hand who record.routes [] [] filed) (fun _ _ => False) cut v)
    (h : hand who record.routes record.routes domains filed w) :
    wp Any (undoRecord who record rest) (fun _ => hand who record.routes [] [] [])
      (fun _ => hand who record.routes [] [] []) cut w := by
  apply wp_after (b.quiet (moved_restoreDns record.dns) h)
  intro dnsOk v hv
  apply wp_after (b.wp_removeOwn hv (List.Subset.refl _) (List.Subset.refl _))
  intro _ u hu
  apply wp_after (hrest u hu)
  intro _ x hx
  cases dnsOk with
  | true => exact b.wp_clearJournal hx
  | false => exact wp_throw (b.unfile hx)

/-- A recovery leaves nothing in hand. -/
theorem wp_recoverLocked {kind : Kind} {kill : Nat → HelperProg Unit}
    {rest : Record → HelperProg Unit} (hkill : ∀ pid, Quietly BooksSame (kill pid))
    (hrest : ∀ record v, hand (.tunnel kind) record.routes [] record.resolverDomains [] v →
      wp Any (rest record) (fun _ => hand (.tunnel kind) record.routes [] [] [])
        (fun _ _ => False) cut v) (h : idle w) (hidle : w.sessionRecord (.tunnel kind) = none) :
    wp Any (recoverLocked (.tunnel kind) kill rest)
      (fun _ => hand (.tunnel kind) [] [] [] []) (fun _ => idle) cut w := by
  apply wp_bind
  apply wp_reading (b.idle_cut h) (fun _ => h)
  · intro found hfound
    cases hfound
    cases hjournal : w.journal (.tunnel kind) with
    | none => exact wp_pure (b.fresh h hidle hjournal)
    | some record =>
      apply wp_after (b.quiet (hkill record.pid) (b.load h hidle hjournal))
      intro _ v hv
      refine wp_ends (b.wp_undoRecord (hrest record) hv) ?_ (fun _ _ hh => b.done hh)
      exact fun _ _ hh => b.adjust (nil_subset _) (List.Subset.refl _)
        (List.Subset.refl _) (List.Subset.refl _) hh
  · intro e he
    cases he

end Bookkeeping

end NetOrchestrator.Macos
