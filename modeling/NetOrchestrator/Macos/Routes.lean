import NetOrchestrator.Core.RouteIntents

/-!
# `Macos.Routes`: the route table and route commands

The macOS route table has at most one route to a destination. `route add` is refused when the
destination is taken, and `route delete` names nothing but the destination. A `RouteOp` is a
route as the helper asks for it. A row of the table also says, as a ghost, on whose behalf the
helper added it; a row that somebody else added has no owner.
-/

namespace NetOrchestrator.Macos

open Net Lib
open NetOrchestrator.Core (RouteTarget RouteEntry WantedRoute judge)

/-- One route of the helper. Network and prefix length are one value. -/
structure RouteOp where
  destination : IpNet
  target : RouteTarget
  optional : Bool
  deriving DecidableEq

/-- The destination as the table knows it. -/
def RouteOp.net (op : RouteOp) : IpNet := op.destination.trunc

/-- The row that `route add` makes. The kernel finds the device of a gateway by itself. -/
def RouteOp.entry (deviceOf : IpAddr → String) (op : RouteOp) : RouteEntry :=
  match op.target with
  | .gateway address => ⟨op.net, some address, deviceOf address⟩
  | .interface name => ⟨op.net, none, name⟩

structure RouteRow (ω : Type) where
  entry : RouteEntry
  owner : Option ω
  deriving DecidableEq

def RouteRow.net {ω : Type} (row : RouteRow ω) : IpNet := row.entry.destination.trunc

abbrev RouteTable (ω : Type) := Table (@RouteRow.net ω)

/-- The table as the helper reads it. -/
def routeEntries {ω : Type} (table : RouteTable ω) : List RouteEntry :=
  table.rows.map RouteRow.entry

section
variable {ω : Type} {table : RouteTable ω} {wanted : WantedRoute}
variable (op : RouteOp) (deviceOf : IpAddr → String)

@[simp]
theorem net_entry : (op.entry deviceOf).destination.trunc = op.net := by
  unfold RouteOp.entry
  split <;> exact IpNet.trunc_trunc op.destination

/-- The row of an op is what the op asks for. -/
@[simp]
theorem matches_entry : op.target.matches (op.entry deviceOf) = true := by
  unfold RouteOp.entry
  split <;> rename_i h <;> simp [RouteTarget.matches, h]

theorem filter_entries (table : RouteTable ω) (net : IpNet) :
    ((routeEntries table).filter fun entry => entry.destination.trunc == net) =
      (table.get net).toList.map RouteRow.entry := by
  rw [← Table.filter_key]
  unfold routeEntries
  rw [List.filter_map]
  rfl

/-- `judge` against the present table looks at the one row of the destination. -/
theorem judge_entries (ours : Bool) : judge wanted ours (routeEntries table) =
      match table.get wanted.destination with
      | none => .missing
      | some row =>
        if wanted.target.matches row.entry then
          if ours then .present else .conflicted .identical
        else .conflicted (.another wanted.destination row.entry.interfaceName) := by
  unfold judge
  rw [filter_entries]
  cases table.get wanted.destination with
  | none => rfl
  | some row => simp

end

end NetOrchestrator.Macos
