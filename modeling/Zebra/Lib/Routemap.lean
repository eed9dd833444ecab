import Zebra.Lib.Prefix
import Mathlib.Tactic.Common

/-! Route maps of lib/routemap.c. The commands of a daemon and the objects they look at are
parameters. Hooks and the display are left out. -/
namespace Zebra
variable {Object : Type}

inductive RouteMapType where
  | permit
  | deny
deriving DecidableEq

/-- `route_map_result_t`. -/
inductive RouteMapResult where
  | rmapMatch
  | rmapDenymatch
  | rmapNomatch
  | rmapError
  | rmapOkay
deriving DecidableEq

/-- `route_map_end_t`. -/
inductive RouteMapEnd where
  | rmapExit
  | rmapGoto
  | rmapNext
deriving DecidableEq

/-- `struct route_map_rule_cmd`. What `func_compile` makes of an argument is the function that then
serves as `func_apply`; it makes nothing of an argument that is wrong. -/
structure RouteMapRuleCmd (Apply : Type) where
  str : String
  funcCompile : Option String → Option Apply

/-- `struct route_map_rule`. Its command is the first one installed under the name. -/
structure RouteMapRule (Apply : Type) where
  cmd : String
  ruleStr : Option String
  apply : Apply

/-- A match command answers `RMAP_MATCH` or `RMAP_NOMATCH`. -/
abbrev MatchRule (Object : Type) := RouteMapRule (Prefix → Object → Bool)

/-- A set command changes the object; its answer is not looked at. -/
abbrev SetRule (Object : Type) := RouteMapRule (Prefix → Object → Object)

/-- `struct route_map_index`. -/
structure RouteMapIndex (Object : Type) where
  pref : Nat
  type : RouteMapType
  exitpolicy : RouteMapEnd := .rmapExit
  nextpref : Nat := 0
  matchList : List (MatchRule Object) := []
  setList : List (SetRule Object) := []

/-- `struct route_map`, as the list its indexes form. -/
abbrev RouteMap (Object : Type) := List (RouteMapIndex Object)

namespace RouteMapIndex

/-- The loop over the match rules. -/
def tryMatch (p : Prefix) (object : Object) : List (MatchRule Object) → RouteMapResult
  | [] => .rmapNomatch
  | rule :: rest => if rule.apply p object then .rmapMatch else tryMatch p object rest

variable (index : RouteMapIndex Object) (p : Prefix) (object : Object)

def matchResult : RouteMapResult :=
  if index.matchList.isEmpty then .rmapMatch else tryMatch p object index.matchList

/-- The loop over the set rules. -/
def applySets : Object :=
  index.setList.foldl (fun object rule => rule.apply p object) object

def routeMapApplyIndex : RouteMapResult × Object :=
  if index.matchResult p object ≠ .rmapMatch then (index.matchResult p object, object)
  else match index.type with
    | .permit => (.rmapMatch, index.applySets p object)
    | .deny => (.rmapDenymatch, object)

end RouteMapIndex

/-- The loop that looks for the clause to jump to. A clause that is passed over becomes `index`, so
the next one is compared with its `nextpref`. -/
def skipBelow (nextpref : Nat) : RouteMap Object → RouteMap Object
  | [] => []
  | next :: rest => if next.pref < nextpref then skipBelow next.nextpref rest else next :: rest

theorem length_skipBelow_le (nextpref : Nat) (map : RouteMap Object) :
    (skipBelow nextpref map).length ≤ map.length := by
  induction map generalizing nextpref with
  | nil => exact Nat.le_refl 0
  | cons next rest ih =>
    rw [skipBelow]
    split
    · exact Nat.le_succ_of_le (ih next.nextpref)
    · exact le_rfl

/-- The loop of `route_map_apply`, from an index on. -/
def applyFrom (p : Prefix) (map : RouteMap Object) (object : Object) : RouteMapResult × Object :=
  match map with
  | [] => (.rmapDenymatch, object)
  | index :: rest =>
    let (ret, object) := index.routeMapApplyIndex p object
    match ret with
    | .rmapDenymatch => (ret, object)
    | .rmapMatch =>
      match index.exitpolicy with
      | .rmapExit => (ret, object)
      | .rmapGoto =>
        if (skipBelow index.nextpref rest).isEmpty then (ret, object)
        else applyFrom p (skipBelow index.nextpref rest) object
      | .rmapNext => applyFrom p rest object
    | _ => applyFrom p rest object
termination_by map.length
decreasing_by
  · exact Nat.lt_succ_of_le (length_skipBelow_le index.nextpref rest)
  all_goals exact Nat.lt_succ_self _

def routeMapApply (map : Option (RouteMap Object)) (p : Prefix) (object : Object) :
    RouteMapResult × Object :=
  match map with
  | none => (.rmapDenymatch, object)
  | some map => applyFrom p map object

def routeMapIndexLookup (map : RouteMap Object) (type : Option RouteMapType) (pref : Nat) :
    Option (RouteMapIndex Object) :=
  map.find? fun index => (type = some index.type || type = none) && index.pref = pref

/-- `route_map_index_delete`, of the index with the preference. -/
def routeMapIndexDelete (map : RouteMap Object) (pref : Nat) : RouteMap Object :=
  map.eraseP fun index => index.pref = pref

/-- `route_map_index_add`: before the first index whose preference is not lower. -/
def routeMapIndexAdd (index : RouteMapIndex Object) : RouteMap Object → RouteMap Object
  | [] => [index]
  | point :: rest => if index.pref ≤ point.pref then index :: point :: rest
    else point :: routeMapIndexAdd index rest

def routeMapIndexGet (map : RouteMap Object) (type : RouteMapType) (pref : Nat) : RouteMap Object :=
  match routeMapIndexLookup map none pref with
  | some index =>
    if index.type = type then map
    else routeMapIndexAdd { pref := pref, type := type } (routeMapIndexDelete map pref)
  | none => routeMapIndexAdd { pref := pref, type := type } map

section
variable {Apply : Type} (cmds : List (RouteMapRuleCmd Apply)) (name : String) (arg : Option String)
  (rules : List (RouteMapRule Apply))

/-- `route_map_add_match` and `route_map_add_set`: the rule takes the place of any other of its
command. -/
def routeMapAddRule : List (RouteMapRule Apply) :=
  match cmds.find? fun cmd => cmd.str = name with
  | none => rules
  | some cmd =>
    match cmd.funcCompile arg with
    | none => rules
    | some apply => (rules.filter fun rule => rule.cmd ≠ name) ++ [⟨name, arg, apply⟩]

/-- `route_map_delete_match` and `route_map_delete_set`. -/
def routeMapDeleteRule : List (RouteMapRule Apply) :=
  match cmds.find? fun cmd => cmd.str = name with
  | none => rules
  | some _ => rules.eraseP fun rule => rule.cmd = name && (rule.ruleStr = arg || arg = none)

end

/-- The match and set commands that a daemon installs. -/
structure RouteMapCmds (Object : Type) where
  routeMatchVec : List (RouteMapRuleCmd (Prefix → Object → Bool))
  routeSetVec : List (RouteMapRuleCmd (Prefix → Object → Object))

/-- What is said under one index of a map. -/
inductive IndexCommand where
  | rmapContinue
  | noRmapContinue
  | rmapContinueSeq (d : Nat)
  | addMatch (name : String) (arg : Option String)
  | deleteMatch (name : String) (arg : Option String)
  | addSet (name : String) (arg : Option String)
  | deleteSet (name : String) (arg : Option String)

def RouteMapIndex.command (cmds : RouteMapCmds Object) (index : RouteMapIndex Object) :
    IndexCommand → RouteMapIndex Object
  | .rmapContinue => { index with exitpolicy := .rmapNext }
  | .noRmapContinue => { index with exitpolicy := .rmapExit }
  | .rmapContinueSeq d =>
    if d ≤ index.pref then index else { index with exitpolicy := .rmapGoto, nextpref := d }
  | .addMatch name arg =>
    { index with matchList := routeMapAddRule cmds.routeMatchVec name arg index.matchList }
  | .deleteMatch name arg =>
    { index with matchList := routeMapDeleteRule cmds.routeMatchVec name arg index.matchList }
  | .addSet name arg =>
    { index with setList := routeMapAddRule cmds.routeSetVec name arg index.setList }
  | .deleteSet name arg =>
    { index with setList := routeMapDeleteRule cmds.routeSetVec name arg index.setList }

/-- The commands that change one map; a command under an index reaches it by its preference. -/
inductive MapCommand where
  | routeMap (type : RouteMapType) (pref : Nat)
  | noRouteMap (type : RouteMapType) (pref : Nat)
  | noRouteMapAll
  | under (pref : Nat) (command : IndexCommand)

def prefInvalid (pref : Nat) : Bool := pref = 0 || 65535 < pref

def RouteMap.command (cmds : RouteMapCmds Object) (map : RouteMap Object) :
    MapCommand → RouteMap Object
  | .routeMap type pref => if prefInvalid pref then map else routeMapIndexGet map type pref
  | .noRouteMap type pref =>
    if prefInvalid pref then map
    else match routeMapIndexLookup map (some type) pref with
      | none => map
      | some index => routeMapIndexDelete map index.pref
  | .noRouteMapAll => []
  | .under pref command =>
    List.map (fun index => if index.pref = pref then index.command cmds command else index) map

/-- The maps that configuration commands build, whatever the daemon. -/
inductive RouteMap.Built (cmds : RouteMapCmds Object) : RouteMap Object → Prop where
  | empty : Built cmds []
  | command {map : RouteMap Object} (command : MapCommand) :
    Built cmds map → Built cmds (map.command cmds command)

end Zebra
