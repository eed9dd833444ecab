import Zebra.Bgpd.RibSelection

/-! The paths that the nodes of a RIB hold, and where each of them comes from. -/
namespace Zebra.Bgpd
open Node List Function

/-- The attributes of the paths on a node. -/
def Node.holdings (node : Node) : List (PathId × Attr) :=
  node.info.map fun ri => (ri.id, ri.attr)

section Holdings
variable {bgp : Bgp} {cfg : DampConfig} {aggregates : List Bool} {node after : Node} {id : PathId}

theorem Node.holdings_congr (info : after.info = node.info) : after.holdings = node.holdings := by
  rw [holdings, info, holdings]

theorem Node.Reselects.holdings (reselects : Reselects node after) :
    after.holdings = node.holdings :=
  holdings_congr reselects.quiet.info

theorem Node.Confined.holdings (confined : Confined id node after) :
    after.holdings = node.holdings :=
  holdings_congr confined.info

/-- The holdings without those of one path. -/
def without (id : PathId) (holdings : List (PathId × Attr)) : List (PathId × Attr) :=
  holdings.filter fun holding => holding.1 ≠ id

/-- The holdings with other attributes for one path. -/
def exchanged (id : PathId) (attr : Attr) (holdings : List (PathId × Attr)) :
    List (PathId × Attr) :=
  holdings.map fun holding => if holding.1 = id then (id, attr) else holding

theorem Node.delete_holdings (node : Node) (id : PathId) :
    (node.delete id).holdings = without id node.holdings := by
  simp only [holdings, delete, setDamp, without, filter_map]
  rfl

theorem Node.replace_holdings (node : Node) (ri : BgpInfo) :
    (node.replace ri).holdings = exchanged ri.id ri.attr node.holdings := by
  simp only [holdings, replace, exchanged, map_map]
  apply map_congr_left
  intro other _
  simp only [comp]
  split <;> rfl

theorem exchanged_twice (id : PathId) (attr : Attr) (holdings : List (PathId × Attr)) :
    exchanged id attr (exchanged id attr holdings) = exchanged id attr holdings := by
  simp only [exchanged, map_map]
  apply map_congr_left
  intro holding _
  simp only [comp]
  split
  · exact if_pos rfl
  · rfl

theorem bgpRibRemove_holdings (account : Account) :
    (bgpRibRemove bgp aggregates id (node, account)).1.holdings = without id node.holdings := by
  unfold bgpRibRemove
  dsimp only
  split
  · exact delete_holdings node id
  · rw [delete_holdings, holdings_congr (process_info ..), setValid,
      holdings_congr (setFlags_info ..), (Reselects.aggregateDecrement ..).holdings]

theorem ribWithdrawTail_holdings (status : DampStatus) :
    (ribWithdrawTail bgp id status node).holdings =
      if status = .used then node.holdings else without id node.holdings := by
  have processed : ((node.setValid id false).process bgp).holdings = node.holdings :=
    holdings_congr (process_info ..)
  have restored : ∀ valid :
      Bool, (if valid then ((node.setValid id false).process bgp).setValid id true
      else (node.setValid id false).process bgp).holdings = node.holdings := by
    intro valid
    cases valid
    · exact processed
    · exact (holdings_congr rfl).trans processed
  unfold ribWithdrawTail
  split
  · exact restored _
  · exact (delete_holdings ..).trans (congrArg (without id) (restored _))

theorem ribWithdrawDamped_holdings (now : Int) :
    (ribWithdrawDamped bgp cfg now id node).holdings = node.holdings := by
  have marked := (dampWithdraw_confined cfg now id node false).holdings
  have used := dampWithdraw_status cfg now id node false
  unfold ribWithdrawDamped
  split
  · rename_i suppressed
    rw [suppressed] at marked
    exact marked
  · rename_i status other damped
    rw [damped] at marked used
    rw [ribWithdrawTail_holdings]
    split
    · exact marked
    · rename_i unused
      split at used
      · exact absurd used other
      · exact absurd used unused

theorem bgpRibWithdraw_holdings (now : Int) (force : Bool) (account : Account) :
    (bgpRibWithdraw bgp cfg aggregates now force id (node, account)).1.holdings =
      if !force && dampConfigured bgp id then node.holdings else without id node.holdings := by
  have counted : ∀ counts :
      Bool, (if counts then node.aggregateDecrement bgp aggregates id else node).holdings =
      node.holdings := by
    intro counts
    cases counts
    · rfl
    · exact (Reselects.aggregateDecrement ..).holdings
  unfold bgpRibWithdraw
  dsimp only
  split
  · rw [ribWithdrawDamped_holdings, counted]
  · rw [ribWithdrawTail_holdings, if_neg (by decide), counted]

variable (env : Environment)

theorem updateReturned_holdings :
    (updateReturned bgp cfg aggregates env id node).holdings = node.holdings := by
  have updated := (dampUpdate_confined cfg env.updateTime id node).holdings
  unfold updateReturned
  split
  · rename_i suppressed
    rw [suppressed] at updated
    exact updated
  · rename_i reused
    rw [reused] at updated
    rw [holdings_congr (process_info ..), (Reselects.aggregateIncrement ..).holdings, updated]

theorem updateSame_holdings (account : Account) :
    (updateSame bgp cfg aggregates env id (node, account)).1.holdings = node.holdings := by
  unfold updateSame
  dsimp only
  split
  · exact updateReturned_holdings env
  · split <;> rfl

theorem nexthopCheck_attr (bgp : Bgp) (peer : Peer) (env : Environment) (ri : BgpInfo) :
    (nexthopCheck bgp peer env ri).2.attr = ri.attr := by
  unfold nexthopCheck
  split <;> rfl

theorem updateFinish_holdings (ri : BgpInfo) :
    (updateFinish bgp aggregates env ri node).holdings = exchanged ri.id ri.attr node.holdings := by
  unfold updateFinish
  rw [holdings_congr (process_info ..), (Reselects.aggregateIncrement ..).holdings,
    setValid, holdings_congr (setFlags_info ..), replace_holdings, nexthopCheck_id,
    nexthopCheck_attr]

theorem updateDamped_holdings (ri : BgpInfo)
    (stored : exchanged ri.id ri.attr node.holdings = node.holdings) :
    (updateDamped bgp cfg aggregates env ri node).holdings = node.holdings := by
  have updated := (dampUpdate_confined cfg env.updateTime ri.id node).holdings
  unfold updateDamped
  split
  · rename_i suppressed
    rw [suppressed] at updated
    exact updated
  · rename_i reused
    rw [reused] at updated
    rw [updateFinish_holdings, updated, stored]

theorem updateChanged_holdings (ri : BgpInfo) (attrNew : Attr) (account : Account) :
    (updateChanged bgp cfg aggregates env ri attrNew (node, account)).1.holdings =
      exchanged ri.id attrNew node.holdings := by
  have changed :
      (((changeMark bgp cfg env ri.id node).aggregateDecrement bgp aggregates ri.id).replace
      { ri with attr := attrNew }).holdings = exchanged ri.id attrNew node.holdings := by
    rw [replace_holdings, (Reselects.aggregateDecrement ..).holdings,
      (changeMark_confined bgp cfg env ri.id node).holdings]
  unfold updateChanged
  dsimp only
  split
  · rw [updateDamped_holdings, changed]
    rw [changed, exchanged_twice]
  · rw [updateFinish_holdings, changed, exchanged_twice]

theorem updateNew_holdings (attrNew : Attr) (account : Account) :
    (updateNew bgp aggregates env id attrNew (node, account)).1.holdings =
      (id, attrNew) :: node.holdings := by
  have named := nexthopCheck_id bgp (bgp.peer id.peer) env { id := id, attr := attrNew }
  have equipped := nexthopCheck_attr bgp (bgp.peer id.peer) env { id := id, attr := attrNew }
  simp only [updateNew]
  generalize nexthopCheck bgp (bgp.peer id.peer) env { id := id, attr := attrNew } =
    checked at named equipped ⊢
  obtain ⟨valid, ri⟩ := checked
  obtain rfl : ri.id = id := named
  obtain rfl : ri.attr = attrNew := equipped
  have added :
      (((node.fresh ri.id { valid := valid }).aggregateIncrement bgp aggregates ri.id).add
      ri).holdings =
      (ri.id, ri.attr) :: node.holdings :=
    congrArg _ (Reselects.aggregateIncrement ..).holdings
  split
  · exact added
  · rw [holdings_congr (process_info ..), added]

end Holdings

/-- What a call may add to the paths of a node; `brings` says what is new. -/
def Draws (brings : PathId × Attr → Prop) (before after : List (PathId × Attr)) : Prop :=
  ∀ holding ∈ after, holding ∈ before ∨ brings holding

section Draws
variable {brings : PathId × Attr → Prop} {holdings : List (PathId × Attr)} {id : PathId}
  {attr : Attr}

theorem Draws.refl (holdings : List (PathId × Attr)) : Draws brings holdings holdings :=
  fun _ => .inl

theorem Draws.trans {before middle after} (first : Draws brings before middle)
    (second : Draws brings middle after) : Draws brings before after :=
  fun holding member => (second holding member).elim (first holding) .inr

theorem draws_enter (brought : brings (id, attr)) :
    Draws brings holdings ((id, attr) :: holdings) := by
  intro holding member
  rcases mem_cons.mp member with rfl | there
  · exact .inr brought
  · exact .inl there

theorem draws_leave : Draws brings holdings (without id holdings) :=
  fun _ member => .inl (mem_filter.mp member).1

theorem draws_exchange (brought : brings (id, attr)) :
    Draws brings holdings (exchanged id attr holdings) := by
  intro holding member
  obtain ⟨before, there, rfl⟩ := mem_map.mp member
  split
  · exact .inr brought
  · exact .inl there

end Draws

section Calls
variable {bgp : Bgp} {cfg : DampConfig} {aggregates : List Bool} {node : Node} {id : PathId}
  {account : Account}

theorem bgpUpdate_draws (env : Environment) (attr : Attr) :
    Draws (fun holding => holding.1 = id ∧
      acceptUpdate bgp (bgp.peer id.peer) env attr = some holding.2)
      node.holdings (bgpUpdate bgp cfg aggregates env id attr (node, account)).1.holdings := by
  unfold bgpUpdate
  cases found : node.find? id with
  | none =>
    cases accepted : acceptUpdate bgp (bgp.peer id.peer) env attr with
    | none => exact Draws.refl _
    | some attrNew =>
      rw [updateNew_holdings]
      exact draws_enter ⟨rfl, rfl⟩
  | some ri =>
    obtain rfl : ri.id = id := by simpa using find?_some found
    cases accepted : acceptUpdate bgp (bgp.peer ri.id.peer) env attr with
    | none =>
      rw [bgpRibWithdraw_holdings]
      exact draws_leave
    | some attrNew =>
      dsimp only
      split
      · rw [updateSame_holdings]
        exact Draws.refl _
      · rw [updateChanged_holdings]
        exact draws_exchange ⟨rfl, rfl⟩

section
variable (brings : PathId × Attr → Prop)

theorem bgpWithdraw_draws (now : Int) :
    Draws brings node.holdings
      (bgpWithdraw bgp cfg aggregates now id (node, account)).1.holdings := by
  unfold bgpWithdraw
  cases found : node.find? id with
  | none => exact Draws.refl _
  | some ri =>
    dsimp only
    split
    · exact Draws.refl _
    · rw [bgpRibWithdraw_holdings]
      split
      · exact Draws.refl _
      · exact draws_leave

theorem clearRouteNode_draws (nsf : Bool) (peer : PeerId) :
    Draws brings node.holdings
      (clearRouteNode bgp aggregates nsf peer (node, account)).1.holdings := by
  unfold clearRouteNode
  cases found : node.info.find? fun ri => ri.id.peer = peer with
  | none => exact Draws.refl _
  | some ri =>
    dsimp only
    split
    · exact Draws.refl _
    · rw [bgpRibRemove_holdings]
      exact draws_leave

theorem clearStaleNode_draws (peer : PeerId) :
    Draws brings node.holdings (clearStaleNode bgp aggregates peer (node, account)).1.holdings := by
  unfold clearStaleNode
  cases found : node.info.find? fun ri => ri.id.peer = peer with
  | none => exact Draws.refl _
  | some ri =>
    dsimp only
    split
    · rw [bgpRibRemove_holdings]
      exact draws_leave
    · exact Draws.refl _

theorem aggregateRemove_draws : Draws brings node.holdings (aggregateRemove bgp node).holdings := by
  unfold aggregateRemove
  cases found : node.find? (aggregateId bgp) with
  | none => exact Draws.refl _
  | some ri =>
    rw [delete_holdings, Node.holdings_congr (process_info ..), setValid,
      holdings_congr (setFlags_info ..)]
    exact draws_leave

end

theorem aggregateReplace_draws (attr : Option Attr) :
    Draws (fun holding => holding.1 = aggregateId bgp ∧ attr = some holding.2) node.holdings
      (aggregateReplace bgp attr node).holdings := by
  cases attr with
  | none => exact aggregateRemove_draws _
  | some attr =>
    have entered : (aggregateReplace bgp (some attr) node).holdings =
        (aggregateId bgp, attr) :: (aggregateRemove bgp node).holdings :=
      holdings_congr (process_info ..)
    rw [entered]
    exact (aggregateRemove_draws _).trans (draws_enter ⟨rfl, rfl⟩)

end Calls

namespace Rib
variable {Key : Type} [DecidableEq Key]

/-- What a call may add to the paths of a RIB. -/
def Draws (brings : Key → PathId × Attr → Prop) (rib after : Rib Key) : Prop :=
  ∀ key, Bgpd.Draws (brings key) (rib.node key).holdings (after.node key).holdings

theorem node_storeNode (key other : Key) (node : Node) (nodes : List (Key × Node))
    (accounts : PeerId → Account) :
    ({ nodes := storeNode key node nodes, accounts := accounts } : Rib Key).node other =
      if other = key then node
      else ({ nodes := nodes, accounts := accounts } : Rib Key).node other := by
  induction nodes with
  | nil =>
    by_cases same : other = key
    · simp [storeNode, Rib.node, same]
    · simp [storeNode, Rib.node, same, Ne.symm same]
  | cons first rest ih =>
    simp only [Rib.node] at ih ⊢
    by_cases here : first.1 = key
    · by_cases same : other = key
      · simp [storeNode, here, same]
      · simp [storeNode, same, here, Ne.symm same]
    · by_cases found : first.1 = other
      · have apart : other ≠ key := found ▸ here
        simp [storeNode, found, apart]
      · simp [storeNode, here, found, ih]

theorem draws_onNode {brings : PathId × Attr → Prop} (rib : Rib Key) (key : Key) (peer : PeerId)
    (call : Local → Local)
    (settles : Bgpd.Draws brings (rib.node key).holdings
      (call (rib.node key, rib.accounts peer)).1.holdings) :
    Draws (fun other holding => other = key ∧ brings holding) rib (rib.onNode key peer call) := by
  intro other holding member
  rw [onNode, store, node_storeNode] at member
  split at member
  · rename_i same
    exact (settles holding member).imp (fun there => same ▸ there) fun brought => ⟨same, brought⟩
  · exact .inl member

variable {peer : PeerId} {call : Key → Local → Local}

theorem node_walkNodes {Kept : Node → Node → Prop} (refl : ∀ node, Kept node node)
    (each : ∀ key node account, Kept node (call key (node, account)).1) (nodes : List (Key × Node))
    (account : Account) (accounts accountsAfter : PeerId → Account) (key : Key) :
    Kept (({ nodes := nodes, accounts := accounts } : Rib Key).node key)
      (({ nodes := (walkNodes peer call nodes account).1,
          accounts := accountsAfter } : Rib Key).node key) := by
  induction nodes generalizing account with
  | nil => exact refl _
  | cons first rest ih =>
    obtain ⟨other, node⟩ := first
    simp only [Rib.node, walkNodes, find?_cons] at ih ⊢
    by_cases here : other = key
    · simpa only [here, decide_true, Option.map_some, Option.getD_some] using
        here ▸ each other node account
    · simpa only [here, decide_false] using ih _

theorem draws_walk {rib : Rib Key}
    (each : ∀ key node account,
      Bgpd.Draws (fun _ => False) node.holdings (call key (node, account)).1.holdings) :
    Draws (fun _ _ => False) rib (rib.walk peer call) := by
  let Kept (node after : Node) := Bgpd.Draws (fun _ => False) node.holdings after.holdings
  have kept : ∀ key node account, Kept node (call key (node, account)).1 := each
  exact fun key => node_walkNodes (fun node => Draws.refl node.holdings) kept rib.nodes _ _ _ key

/-- What a call can bring into a RIB: the path of an update that is let in, or an aggregate. -/
def Brings (bgp : Bgp) : Op Key → Key → PathId × Attr → Prop
  | .update key id attr env, other, holding =>
    other = key ∧ holding.1 = id ∧ acceptUpdate bgp (bgp.peer id.peer) env attr = some holding.2
  | .aggregateReplace key attr, other, holding =>
    other = key ∧ holding.1 = aggregateId bgp ∧ attr = some holding.2
  | _, _, _ => False

theorem step_draws (bgp : Bgp) (cfg : DampConfig) (aggregates : Key → List Bool) (rib : Rib Key)
    (op : Op Key) :
    Draws (Brings bgp op) rib (rib.step bgp cfg aggregates op) := by
  have nothing : ∀ {key peer call}, Bgpd.Draws (fun _ => False) (rib.node key).holdings
        (call (rib.node key, rib.accounts peer)).1.holdings →
      Draws (fun _ _ => False) rib (rib.onNode key peer call) := by
    intro key peer call settles other holding member
    exact (draws_onNode rib key peer call settles other holding member).imp_right And.right
  cases op with
  | update key id attr env => exact draws_onNode rib key id.peer _ (bgpUpdate_draws env attr)
  | withdraw key id now => exact nothing (bgpWithdraw_draws _ now)
  | clearRoute peer nsf => exact draws_walk fun _ _ _ => clearRouteNode_draws _ nsf peer
  | clearStale peer => exact draws_walk fun _ _ _ => clearStaleNode_draws _ peer
  | aggregateChanged key summaryOnly =>
    have same := ((Reselects.aggregateDelete bgp summaryOnly (rib.node key)).trans
      (Reselects.aggregateRoute bgp none none summaryOnly _)).holdings
    exact nothing (same ▸ Bgpd.Draws.refl _)
  | aggregateReplace key attr =>
    exact draws_onNode rib key bgp.peerSelf
      (fun state => (Bgpd.aggregateReplace bgp attr state.1, state.2))
      (aggregateReplace_draws attr)

end Rib
end Zebra.Bgpd
