import Zebra.Ospfd.IntraArea
import Zebra.Ospfd.SpfShortest

namespace Zebra.Ospfd
open Base List SpfArea Option Spf AList Vertex

theorem mem_addUnique_foldl {nexthop new : List VertexNexthop} {x}
    (member : x ∈ new.foldl ospfNexthopAddUnique nexthop) : x ∈ nexthop ∨ x ∈ new := by
  induction new generalizing nexthop with
  | nil => exact .inl member
  | cons first rest ih =>
    rcases ih member with old | later
    · rw [ospfNexthopAddUnique] at old
      split at old
      · exact .inl old
      · rcases mem_append.mp old with old | single
        · exact .inl old
        · exact .inr (mem_singleton.mp single ▸ mem_cons_self)
    · exact .inr (.tail _ later)

/-- The next hops that are calculated have V as their parent, and there are none where V itself has
none. -/
theorem mem_ospfNexthopCalculation {area : SpfArea} {root v w x}
    (member : x ∈ area.ospfNexthopCalculation root v w) :
    x.parent = v.key ∧ (v.key = root ∨ v.nexthop ≠ []) := by
  rw [ospfNexthopCalculation] at member
  split at member
  · rename_i isRoot
    refine ⟨?_, .inl isRoot⟩
    rw [nexthopRoot] at member
    split at member
    · obtain ⟨l, -, found⟩ := mem_filterMap.mp member
      obtain ⟨way, -, rfl⟩ := map_eq_some_iff.mp found
      rfl
    · obtain ⟨l, -, found⟩ := mem_filterMap.mp member
      obtain ⟨oi, -, rfl⟩ := map_eq_some_iff.mp found
      rfl
  · dsimp only at member
    split at member
    · rename_i first attached
      obtain ⟨l, -, rfl⟩ := mem_map.mp member
      refine ⟨rfl, .inr fun none_ => ?_⟩
      rw [none_, find?_nil, ite_self] at attached
      cases attached
    · have copies : v.nexthop.foldl
          (fun nexthop x => ospfNexthopAddUnique nexthop { x with parent := v.key }) [] =
          (v.nexthop.map fun x => { x with parent := v.key }).foldl ospfNexthopAddUnique [] :=
            foldl_map.symm
      rw [copies] at member
      rcases mem_addUnique_foldl member with absent | copied
      · cases absent
      · obtain ⟨old, here, rfl⟩ := mem_map.mp copied
        exact ⟨rfl, .inr (ne_nil_of_mem here)⟩

theorem mem_mergeCandidate {w c : Vertex} {candidate} (member : c ∈ mergeCandidate w candidate) :
    ∃ old ∈ candidate, old.key = c.key ∧ ∀ x ∈ c.nexthop, x ∈ old.nexthop ∨ x ∈ w.nexthop := by
  induction candidate with
  | nil => cases member
  | cons cw rest ih =>
    rw [mergeCandidate] at member
    split at member
    · rcases mem_cons.mp member with rfl | member
      · exact ⟨cw, mem_cons_self, rfl, fun x inside => mem_addUnique_foldl inside⟩
      · exact ⟨c, .tail _ member, rfl, fun x inside => .inl inside⟩
    · rcases mem_cons.mp member with rfl | member
      · exact ⟨c, mem_cons_self, rfl, fun x inside => .inl inside⟩
      · obtain ⟨old, inside, same, hops⟩ := ih member
        exact ⟨old, .tail _ inside, same, hops⟩

namespace Spf
variable {spf : Spf}

theorem hasVertex_register_self (v : Vertex) :
    (spf.ospfSpfRegister v).ospfSpfHasVertex v.key = true := by
  rw [ospfSpfHasVertex, table, ospfSpfRegister]
  by_cases router : v.key.type = .router
  · rw [if_pos router, if_pos router]
    rw [lookup_insert]
    rfl
  · rw [if_neg router, if_neg router]
    rw [lookup_insert]
    rfl

theorem isSome_insert {nodes : Assoc InAddr Vertex} {id} (there : (nodes.lookup id).isSome)
    (at_ : InAddr) (v : Vertex) :
    ((nodes.insert at_ v).lookup id).isSome := by
  by_cases same : id = at_
  · rw [same, lookup_insert]
    rfl
  · rwa [lookup_insert_ne same]

theorem hasVertex_register {key : VertexKey} (has : spf.ospfSpfHasVertex key = true) (v : Vertex) :
    (spf.ospfSpfRegister v).ospfSpfHasVertex key = true := by
  rw [ospfSpfHasVertex, table] at has ⊢
  rw [ospfSpfRegister]
  by_cases router : v.key.type = .router
  · split
    · rename_i isRouter
      rw [if_pos isRouter] at has
      exact isSome_insert has v.key.id v
    · rename_i other
      rwa [if_neg other] at has
  · split
    · rename_i isRouter
      rwa [if_pos isRouter] at has
    · rename_i other
      rw [if_neg other] at has
      exact isSome_insert has v.key.id v

end Spf

namespace SpfArea

/-- The vertices that the database of an area has. -/
def storedKeys (area : SpfArea) : List VertexKey :=
  (area.ospf.lsdb (.area area.area)).nodes.entries.filterMap fun entry => entry.2.info.map fun id =>
    (area.ospf.lsa id).vertexKey

theorem mem_storedKeys {area : SpfArea} {key id} (found : area.ospfLsaLookupById key = some id) :
    (area.ospf.lsa id).vertexKey ∈ area.storedKeys := by
  have stored : ∃ lsaKey, (area.ospf.lsdb (.area area.area)).lookup lsaKey = some id := by
    rw [ospfLsaLookupById] at found
    split at found
    · exact ⟨_, found⟩
    · obtain ⟨lsaKey, -, there⟩ := bind_eq_some_iff.mp found
      exact ⟨lsaKey, there⟩
    · cases found
  obtain ⟨lsaKey, there⟩ := stored
  obtain ⟨node, here, info⟩ := bind_eq_some_iff.mp there
  refine mem_filterMap.mpr ⟨⟨lsaKey, node⟩, mem_lookup_iff.mp here, ?_⟩
  rw [info]
  rfl

end SpfArea

/-- The parent of a next hop is the root, or is in the tree and has next hops. -/
def Hangs (root : Vertex) (tree : List Vertex) (x : VertexNexthop) : Prop :=
  ∃ u ∈ root :: tree, u.key = x.parent ∧ (u = root ∨ u.nexthop ≠ [])

theorem Hangs.append {root tree x} (hangs : Hangs root tree x) (more : List Vertex) :
    Hangs root (tree ++ more) x := by
  obtain ⟨u, member, named, carries⟩ := hangs
  exact ⟨u, mem_append_left more member, named, carries⟩

/-- A tree of different vertices, each hanging on those before it. -/
structure Grown (root : Vertex) (tree : List Vertex) : Prop where
  keys : ((root :: tree).map Vertex.key).Nodup
  hung : ∀ before v after, tree = before ++ v :: after → ∀ x ∈ v.nexthop, Hangs root before x

/-- The tree and the candidates on the way. -/
structure Growing (area : SpfArea) (root : Vertex) (tree : List Vertex) (spf : Spf) : Prop where
  grown : Grown root tree
  distinct : (spf.candidate.map Vertex.key).Nodup
  registered : ∀ u ∈ root :: tree, spf.ospfSpfHasVertex u.key = true
  new : ∀ c ∈ spf.candidate, ∀ u ∈ root :: tree, c.key ≠ u.key
  stored : ∀ c ∈ tree ++ spf.candidate, c.key ∈ area.storedKeys
  hung : ∀ c ∈ spf.candidate, ∀ x ∈ c.nexthop, Hangs root tree x

theorem Grown.injective {root tree} (grown : Grown root tree) {u v} (first : u ∈ root :: tree)
    (second : v ∈ root :: tree) (same : u.key = v.key) : u = v :=
  inj_on_of_nodup_map grown.keys first second same

namespace Growing
variable {area : SpfArea} {root : Vertex} {tree : List Vertex} {spf : Spf}

section
variable (growing : Growing area root tree spf)
include growing

theorem replace {candidate} (distinct : (candidate.map key).Nodup)
    (fits : ∀ c ∈ candidate, (∀ u ∈ root :: tree, c.key ≠ u.key) ∧ c.key ∈ area.storedKeys ∧
      ∀ x ∈ c.nexthop, Hangs root tree x) :
    Growing area root tree { spf with candidate := candidate } := by
  refine ⟨growing.grown, distinct, growing.registered, fun c member => (fits c member).1,
    fun c member => ?_,
    fun c member => (fits c member).2.2⟩
  rcases mem_append.mp member with old | here
  · exact growing.stored c (mem_append_left _ old)
  · exact (fits c here).2.1

theorem candidate {c} (member : c ∈ spf.candidate) :
    (∀ u ∈ root :: tree, c.key ≠ u.key) ∧ c.key ∈ area.storedKeys ∧
    ∀ x ∈ c.nexthop, Hangs root tree x :=
  ⟨growing.new c member, growing.stored c (mem_append_right _ member), growing.hung c member⟩

theorem weigh {v w : Vertex} (inTree : v ∈ root :: tree)
    (fresh : spf.ospfSpfHasVertex w.key = false) (stored : w.key ∈ area.storedKeys) :
    Growing area root tree (spf.weigh area root.key v w) := by
  have hangs : ∀ x ∈ area.ospfNexthopCalculation root.key v w, Hangs root tree x := by
    intro x member
    obtain ⟨parent, carries⟩ := mem_ospfNexthopCalculation member
    refine ⟨v, inTree, parent.symm, carries.imp_left fun same => ?_⟩
    exact growing.grown.injective inTree mem_cons_self same
  have apart : ∀ u ∈ root :: tree, w.key ≠ u.key := by
    intro u member same
    have has := growing.registered u member
    rw [← same, fresh] at has
    cases has
  obtain ⟨calculated, isCalculated⟩ :=
    @exists_eq _ { w with nexthop := area.ospfNexthopCalculation root.key v w }
  have key : calculated.key = w.key := by
    rw [isCalculated]
    rfl
  have nexthop : calculated.nexthop = area.ospfNexthopCalculation root.key v w := by
    rw [isCalculated]
  have fits : (∀ u ∈ root :: tree, calculated.key ≠ u.key) ∧ calculated.key ∈ area.storedKeys ∧
      ∀ x ∈ calculated.nexthop, Hangs root tree x := by
    rw [key, nexthop]
    exact ⟨apart, stored, hangs⟩
  rw [Spf.weigh, ← isCalculated]
  split
  · rename_i missing
    refine growing.replace (nodup_install growing.distinct ?_) fun c member => ?_
    · intro c member same
      exact nearOf_eq_none.mp (congrArg (Option.map _) missing) c member (same.trans key)
    · rcases mem_ospfInstallCandidate.mp member with rfl | old
      · exact fits
      · exact growing.candidate old
  · split
    · exact growing
    · split
      · refine growing.replace ?_ fun c member => ?_
        · rw [keys_congr (spot_mergeCandidate calculated spf.candidate)]
          exact growing.distinct
        · obtain ⟨old, inside, same, hops⟩ := mem_mergeCandidate member
          obtain ⟨apart, stored, hung⟩ := growing.candidate inside
          refine ⟨same ▸ apart, same ▸ stored, fun x here => ?_⟩
          rcases hops x here with before | added
          · exact hung x before
          · exact fits.2.2 x added
      · have others := fun c => @mem_eraseP_key spf.candidate growing.distinct w.key c
        refine growing.replace (nodup_install (growing.distinct.sublist (eraseP_sublist.map _)) ?_)
          fun c member => ?_
        · intro c member
          rw [key]
          exact ((others c).mp member).2
        · rcases mem_ospfInstallCandidate.mp member with rfl | old
          · exact fits
          · exact growing.candidate ((others c).mp old).1

theorem examine {v : Vertex} (inTree : v ∈ root :: tree) (link : VertexKey × BitVec 16) :
    Growing area root tree (examine area root.key v spf link) := by
  rw [Spf.examine]
  split
  · exact growing
  · rename_i id found
    dsimp only
    split
    · exact growing
    · split
      · exact growing
      · split
        · exact growing
        · rename_i unregistered
          exact growing.weigh inTree (Bool.eq_false_iff.mpr unregistered) (mem_storedKeys found)

theorem next {v} (inTree : v ∈ root :: tree) :
    Growing area root tree (spf.ospfSpfNext area root.key v) := by
  have scan (targets : List (VertexKey × BitVec 16)) (start : Spf)
      (growing : Growing area root tree start) :
      Growing area root tree (targets.foldl (Spf.examine area root.key v) start) := by
    induction targets generalizing start with
    | nil => exact growing
    | cons link rest ih => exact ih _ (growing.examine inTree link)
  refine scan v.lsa.targets _ ?_
  split
  · exact ⟨growing.grown, growing.distinct, growing.registered, growing.new, growing.stored,
      growing.hung⟩
  · exact growing

theorem join {next rest} (head : spf.candidate = next :: rest) :
    Growing area root (tree ++ [next]) ({ spf with candidate := rest }.ospfSpfRegister next) := by
  have first : next ∈ spf.candidate := head ▸ mem_cons_self
  have later : ∀ c ∈ rest, c ∈ spf.candidate := fun c member => head ▸ .tail _ member
  have distinct := growing.distinct
  rw [head] at distinct
  obtain ⟨apart, unique⟩ := nodup_cons.mp distinct
  have candidates : ({ spf with candidate := rest }.ospfSpfRegister next).candidate = rest :=
    candidate_register _ next
  refine ⟨⟨?_, ?_⟩, ?_, ?_, ?_, ?_, ?_⟩
  · rw [← cons_append, map_append]
    refine nodup_append.mpr
      ⟨growing.grown.keys, nodup_singleton _, fun key member other single => ?_⟩
    obtain ⟨u, inside, rfl⟩ := mem_map.mp member
    rw [mem_singleton.mp single]
    exact (growing.new next first u inside).symm
  · intro before v after split x member
    obtain rfl | ⟨start, last, rfl⟩ := after.eq_nil_or_concat'
    · obtain ⟨rfl, same⟩ := append_inj' split rfl
      obtain rfl := head_eq_of_cons_eq same
      exact growing.hung next first x member
    · have shorter : tree ++ [next] = (before ++ v :: start) ++ [last] := by
        rw [split, append_assoc]
        rfl
      exact growing.grown.hung before v start (append_inj_left' shorter rfl) x member
  · rw [candidates]
    exact unique
  · intro u member
    rw [← cons_append] at member
    rcases mem_append.mp member with old | single
    · exact @hasVertex_register { spf with candidate := rest } u.key (growing.registered u old) next
    · rw [mem_singleton.mp single]
      exact hasVertex_register_self next
  · intro c member u inside
    rw [candidates] at member
    rw [← cons_append] at inside
    rcases mem_append.mp inside with old | single
    · exact growing.new c (later c member) u old
    · rw [mem_singleton.mp single]
      exact fun same => apart (mem_map.mpr ⟨c, member, same⟩)
  · intro c member
    rw [candidates, append_assoc] at member
    refine growing.stored c ?_
    rw [head]
    exact member
  · intro c member x here
    rw [candidates] at member
    exact (growing.hung c (later c member) x here).append [next]

end

theorem start (area : SpfArea) (root : Vertex) :
    Growing area root [] (({} : Spf).ospfSpfRegister root) := by
  have candidates : (({} : Spf).ospfSpfRegister root).candidate = [] := candidate_register _ root
  refine ⟨⟨nodup_singleton _, fun before v after split => ?_⟩, ?_, fun u member => ?_,
    fun c member => ?_, fun c member => ?_,
    fun c member => ?_⟩
  · exact absurd split (append_ne_nil_of_right_ne_nil before (cons_ne_nil v after)).symm
  · rw [candidates]
    exact nodup_nil
  · rw [mem_singleton.mp member]
    exact hasVertex_register_self root
  · rw [candidates] at member
    cases member
  · rw [candidates] at member
    cases member
  · rw [candidates] at member
    cases member

theorem length_le (growing : Growing area root tree spf) :
    tree.length ≤ area.storedKeys.length := by
  have keys : (tree.map Vertex.key).Nodup := (nodup_cons.mp growing.grown.keys).2
  rw [← length_map (f := Vertex.key)]
  refine (subperm_of_subset keys fun key member => ?_).length_le
  obtain ⟨u, inside, rfl⟩ := mem_map.mp member
  exact growing.stored u (mem_append_left _ inside)

end Growing

namespace SpfArea
variable {area : SpfArea} {root : Vertex}

/-- The vertices that join the tree after V. -/
def treeFrom (area : SpfArea) (root : VertexKey) : Nat → Vertex → Spf → Option (List Vertex)
  | 0, _, _ => none
  | fuel + 1, v, spf =>
    match (spf.ospfSpfNext area root v).candidate with
    | [] => some []
    | next :: rest =>
      (area.treeFrom root fuel next ({ spf.ospfSpfNext area root v with
        candidate := rest }.ospfSpfRegister next)).map (next :: ·)

/-- What a vertex that joins the tree means for the table of networks. -/
def joinTable (area : SpfArea) (rt : IntraTable) (v : Vertex) : IntraTable :=
  if v.key.type = .router then rt else area.ospfIntraAddTransit rt v

theorem calculateLoop_eq (root : VertexKey) (fuel : Nat) (v : Vertex) (stage : Stage) :
    (area.calculateLoop root fuel v stage).map (fun done => (done.tree, done.newTable)) =
      (area.treeFrom root fuel v stage.spf).map fun tree =>
        (stage.tree ++ tree, tree.foldl area.joinTable stage.newTable) := by
  induction fuel generalizing v stage with
  | zero => rfl
  | succ fuel ih =>
    rw [calculateLoop, treeFrom]
    cases head : (stage.spf.ospfSpfNext area root v).candidate with
    | nil =>
      exact congrArg (fun tree => some (tree, stage.newTable)) (append_nil stage.tree).symm
    | cons next rest =>
      dsimp only
      rw [ih]
      cases area.treeFrom root fuel next
        ({ stage.spf.ospfSpfNext area root v with candidate := rest }.ospfSpfRegister next) with
      | none => rfl
      | some tree =>
        exact congrArg (fun joined => some (joined, _)) (append_assoc stage.tree [next] tree)

theorem treeFrom_mono (root : VertexKey) {fuel more} (bound : fuel ≤ more) {v spf tree}
    (done : area.treeFrom root fuel v spf = some tree) :
    area.treeFrom root more v spf = some tree := by
  induction fuel generalizing more v spf tree with
  | zero => cases done
  | succ fuel ih =>
    obtain ⟨less, rfl⟩ := Nat.exists_eq_add_of_le' bound
    rw [treeFrom] at done
    rw [← add_assoc, treeFrom]
    cases head : (spf.ospfSpfNext area root v).candidate with
    | nil =>
      rw [head] at done
      exact done
    | cons next rest =>
      rw [head] at done
      obtain ⟨later, found, same⟩ := map_eq_some_iff.mp done
      dsimp only
      rw [ih (Nat.le_add_left fuel less) found]
      exact congrArg some same

/-- Each turn joins a vertex of the database, so the loop ends. -/
theorem treeFrom_ends {before spf} (growing : Growing area root before spf) {v}
    (inTree : v ∈ root :: before) {fuel} (enough : area.storedKeys.length < before.length + fuel) :
    ∃ tree result, area.treeFrom root.key fuel v spf = some tree ∧
      Growing area root (before ++ tree) result := by
  induction fuel generalizing before spf v with
  | zero =>
    have few := growing.length_le
    omega
  | succ fuel ih =>
    have next := growing.next inTree
    rw [treeFrom]
    cases head : (spf.ospfSpfNext area root.key v).candidate with
    | nil => exact ⟨[], _, rfl, (append_nil before).symm ▸ next⟩
    | cons joined rest =>
      have inside : joined ∈ root :: (before ++ [joined]) :=
        .tail _ (mem_append_right before (mem_singleton_self joined))
      obtain ⟨tree, result, later, grown⟩ := ih (next.join head) inside (by
        rw [length_append, length_singleton]
        omega)
      refine ⟨joined :: tree, result, congrArg (Option.map _) later, ?_⟩
      rw [append_assoc] at grown
      exact grown

/-- The root of an area's tree. -/
def rootVertex (area : SpfArea) (mine : LsaId) : Vertex := { lsa := area.ospf.lsa mine }

/-- Fuel that is always enough. -/
def spfFuel (area : SpfArea) : Nat := area.storedKeys.length + 1

/-- The tree of an area without its root, in the order in which the vertices join it. -/
def tree (area : SpfArea) (mine : LsaId) : List Vertex :=
  (area.treeFrom (area.rootVertex mine).key area.spfFuel
    (area.rootVertex mine) (({} : Spf).ospfSpfRegister (area.rootVertex mine))).getD []

variable (area) (mine : LsaId)

theorem tree_ends : ∃ tree result,
    area.treeFrom (area.rootVertex mine).key area.spfFuel (area.rootVertex mine)
    (({} : Spf).ospfSpfRegister (area.rootVertex mine)) =
      some tree ∧ Growing area (area.rootVertex mine) tree result := by
  refine treeFrom_ends (Growing.start area (area.rootVertex mine)) mem_cons_self ?_
  rw [spfFuel]
  omega

theorem treeFrom_tree {fuel} (enough : area.spfFuel ≤ fuel) :
    area.treeFrom (area.rootVertex mine).key fuel (area.rootVertex mine)
    (({} : Spf).ospfSpfRegister (area.rootVertex mine)) =
      some (area.tree mine) := by
  obtain ⟨tree, -, done, -⟩ := area.tree_ends mine
  rw [SpfArea.tree, treeFrom_mono _ enough done, done]
  rfl

theorem tree_growing : ∃ result, Growing area (area.rootVertex mine) (area.tree mine) result := by
  obtain ⟨tree, result, done, grown⟩ := area.tree_ends mine
  rw [SpfArea.tree, done]
  exact ⟨result, grown⟩

end SpfArea

namespace Grown
variable {root : Vertex} {tree : List Vertex}

theorem vertices (grown : Grown root tree) : (root :: tree).Nodup :=
  List.Nodup.of_map _ grown.keys

theorem lowers (grown : Grown root tree) :
    Lowers (childrenOf tree) (· ∈ root :: tree) fun v => tree.length - (root :: tree).idxOf v := by
  intro u inTree child isChild
  obtain ⟨member, parent⟩ := mem_filter.mp isChild
  obtain ⟨x, inside, named⟩ := any_eq_true.mp parent
  obtain ⟨before, after, rfl⟩ := append_of_mem member
  obtain ⟨other, earlier, same, -⟩ := grown.hung before child after rfl x inside
  have inFront : other ∈ root :: (before ++ child :: after) := mem_append_left _ earlier
  obtain rfl := grown.injective inFront inTree (same.trans (of_decide_eq_true named))
  refine ⟨.tail _ member, ?_⟩
  have nodup := grown.vertices
  have absent : child ∉ root :: before := fun here =>
    (nodup_append.mp nodup).2.2 child here child mem_cons_self rfl
  have first : (root :: (before ++ child :: after)).idxOf other < (root :: before).length := by
    rw [← cons_append, idxOf_append_of_mem earlier]
    exact idxOf_lt_length_of_mem earlier
  have second : (root :: (before ++ child :: after)).idxOf child = (root :: before).length := by
    rw [← cons_append, idxOf_append_of_notMem absent, idxOf_cons_self, add_zero]
  have long : (before ++ child :: after).length = before.length + (after.length + 1) := by
    rw [length_append, length_cons]
  dsimp only
  rw [second]
  rw [length_cons] at first ⊢
  omega

theorem reach_iff (grown : Grown root tree) (v : Vertex) :
    Reach (childrenOf tree) root v ↔ v = root ∨ v ∈ tree ∧ v.nexthop ≠ [] := by
  constructor
  · intro way
    rcases Relation.ReflTransGen.cases_tail way with same | ⟨u, -, isChild⟩
    · exact .inl same
    · obtain ⟨member, parent⟩ := mem_filter.mp isChild
      obtain ⟨x, inside, -⟩ := any_eq_true.mp parent
      exact .inr ⟨member, ne_nil_of_mem inside⟩
  · have comes (count : Nat) (before : List Vertex) (v : Vertex) (after : List Vertex)
        (few : before.length < count)
        (split : tree = before ++ v :: after) (hops : v.nexthop ≠ []) :
          Reach (childrenOf tree) root v := by
      induction count generalizing before v after with
      | zero => cases few
      | succ count ih =>
        obtain ⟨x, inside⟩ := exists_mem_of_ne_nil v.nexthop hops
        obtain ⟨u, earlier, named, carries⟩ := grown.hung before v after split x inside
        have child : v ∈ childrenOf tree u := by
          refine mem_filter.mpr ⟨?_, any_eq_true.mpr ⟨x, inside, decide_eq_true named.symm⟩⟩
          rw [split]
          exact mem_append_right before mem_cons_self
        refine Relation.ReflTransGen.tail ?_ child
        rcases mem_cons.mp earlier with rfl | member
        · exact .refl
        · rcases carries with rfl | own
          · exact .refl
          · obtain ⟨start, back, rfl⟩ := append_of_mem member
            refine ih start u (back ++ v :: after) ?_ ?_ own
            · rw [length_append, length_cons] at few
              omega
            · rw [split, append_assoc]
              rfl
    rintro (rfl | ⟨member, hops⟩)
    · exact .refl
    · obtain ⟨before, after, split⟩ := append_of_mem member
      exact comes (before.length + 1) before v after (Nat.lt_succ_self _) split hops

end Grown

namespace SpfArea
variable (area : SpfArea) (mine : LsaId)

/-- The vertices whose stub links are processed, in order. -/
def stubOrder (area : SpfArea) (mine : LsaId) : List Vertex :=
  ((visitOrder (childrenOf (area.tree mine)) area.spfFuel (area.rootVertex mine) []).map
    Prod.snd).getD []

theorem visitOrder_stubOrder : ∃ after,
    visitOrder (childrenOf (area.tree mine)) area.spfFuel (area.rootVertex mine)
    [] = some (after, area.stubOrder mine) := by
  obtain ⟨result, growing⟩ := area.tree_growing mine
  have deep : (area.tree mine).length - (area.rootVertex mine :: area.tree mine).idxOf
      (area.rootVertex mine) < area.spfFuel := by
    have few := growing.length_le
    rw [spfFuel]
    omega
  have ends :
      (visitOrder (childrenOf (area.tree mine)) area.spfFuel (area.rootVertex mine) []).isSome :=
    visit_ends growing.grown.lowers area.spfFuel (area.rootVertex mine) mem_cons_self deep ([], [])
  obtain ⟨⟨after, order⟩, walked⟩ := isSome_iff_exists.mp ends
  refine ⟨after, ?_⟩
  rw [stubOrder, walked]
  rfl

theorem mem_stubOrder (v : Vertex) :
    v ∈ area.stubOrder mine ↔ v = area.rootVertex mine ∨ v ∈ area.tree mine ∧ v.nexthop ≠ [] := by
  obtain ⟨after, walked⟩ := area.visitOrder_stubOrder mine
  obtain ⟨result, growing⟩ := area.tree_growing mine
  exact (mem_visitOrder walked v).trans (growing.grown.reach_iff v)

theorem ospfSpfProcessStubs_eq {fuel} (enough : area.spfFuel ≤ fuel) (rt : IntraTable) :
    (area.ospfSpfProcessStubs (area.rootVertex mine).key (area.tree mine) fuel
      (area.rootVertex mine) ([], rt)).map Prod.snd =
      some ((area.stubOrder mine).foldl (area.processStubs (area.rootVertex mine).key) rt) := by
  obtain ⟨after, walked⟩ := area.visitOrder_stubOrder mine
  have longer : visitOrder (childrenOf (area.tree mine)) fuel (area.rootVertex mine)
      [] = some (after, area.stubOrder mine) :=
    visit_mono enough walked
  rw [ospfSpfProcessStubs, visit_order, longer]
  rfl

theorem ospfSpfCalculateInto_own (own : area.routerLsaSelf = some mine) {fuel}
    (enough : area.spfFuel ≤ fuel) (newTable : IntraTable) :
    area.ospfSpfCalculateInto fuel newTable =
      some ((area.stubOrder mine).foldl (area.processStubs (area.rootVertex mine).key)
        ((area.tree mine).foldl area.joinTable newTable)) := by
  have loop := @calculateLoop_eq area (area.rootVertex mine).key fuel (area.rootVertex mine)
    { spf := ({} : Spf).ospfSpfRegister (area.rootVertex mine), newTable }
  rw [treeFrom_tree area mine enough, map_some, nil_append] at loop
  obtain ⟨stage, done, same⟩ := map_eq_some_iff.mp loop
  obtain ⟨isTree, isTable⟩ := Prod.mk.inj same
  have second := area.ospfSpfProcessStubs_eq mine enough stage.newTable
  rw [← isTree] at second
  rw [ospfSpfCalculateInto, own]
  refine (congrArg (bind · _) done).trans ?_
  rw [← isTable]
  exact second

end SpfArea
end Zebra.Ospfd
