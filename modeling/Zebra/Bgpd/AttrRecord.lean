import Zebra.Bgpd.AttrBlock

/-! What an accepted attribute block leaves, by the headers in it. -/
namespace Zebra.Bgpd
open Base Reader Attr AttrType List

/-- What an attribute set can have from an attribute of the message. -/
inductive Trait where
  | origin
  | asPath
  | aspath
  | localPref
deriving DecidableEq

def Attr.bears (attr : Attr) : Trait → Bool
  | .origin => attr.has .origin
  | .asPath => attr.has .asPath
  | .aspath => attr.aspath.isSome
  | .localPref => attr.has .localPref

/-- What an accepted attribute leaves; LOCAL_PREF is for peers that are `inside`. -/
def AttrHeader.brings (inside : Bool) (header : AttrHeader) : Trait → Bool
  | .origin => header.type = 1
  | .asPath | .aspath => header.type = 2
  | .localPref => inside && header.type = 5

/-- A peer whose LOCAL_PREF is listened to. -/
def listens (bgp : Bgp) (peer : Peer) : Bool :=
  peerSort bgp peer ≠ .ebgp

/-- What is recorded when an attribute is accepted. -/
def Records (inside : Bool) (header : AttrHeader) (attr after : Attr) : Prop :=
  ∀ trait, after.bears trait = (attr.bears trait || header.brings inside trait)

section Values
variable {bgp : Bgp} {peer : Peer} {inside : Bool} {header : AttrHeader} {attr : Attr}

section
variable {type : AttrType} (code : header.type = BitVec.ofNat 8 type.code)
include code

theorem records_mark {changed : Attr} (known : type = .localPref → inside = true)
    (flag : changed.flag = attr.flag)
    (path : changed.aspath.isSome = (attr.aspath.isSome || decide (type = .asPath))) :
    Records inside header attr (changed.mark type) := by
  have marks : ∀ other, changed.has other = attr.has other := fun other => by rw [has, flag, has]
  intro trait
  cases trait with
  | origin | asPath =>
    simp only [bears, has_mark, AttrHeader.brings, code, marks]
    cases type <;> rfl
  | aspath =>
    simp only [bears, mark, AttrHeader.brings, code, path]
    cases type <;> rfl
  | localPref =>
    simp only [bears, has_mark, AttrHeader.brings, code, marks]
    cases type
    case localPref => simp [known rfl, AttrType.code]
    all_goals simp [AttrType.code]

/-- Nothing is recorded for an attribute that is passed over. -/
theorem records_skip {after : Attr} (flag : after.flag = attr.flag)
    (path : after.aspath.isSome = attr.aspath.isSome)
    (silent : type = .localPref ∧ inside = false ∨ type = .mpReachNlri ∨ type = .mpUnreachNlri) :
    Records inside header attr after := by
  have marks : ∀ other, after.has other = attr.has other := fun other => by rw [has, flag, has]
  have idle : ∀ trait, header.brings inside trait = false := by
    intro trait
    rcases silent with ⟨rfl, rfl⟩ | rfl | rfl <;> cases trait <;>
      simp [AttrHeader.brings, code, AttrType.code]
  intro trait
  rw [idle, Bool.or_false]
  cases trait with
  | origin | asPath | localPref => exact marks _
  | aspath => exact path

end

theorem yields_notify {Value : Type} {subcode : UpdateError} {Good : Value → Prop} :
    (notify subcode : AttrReader Value).Yields Good :=
  yields_fail

theorem yields_notifyWithData {Value : Type} {subcode : UpdateError} {Good : Value → Prop} :
    (notifyWithData subcode header : AttrReader Value).Yields Good :=
  .bind fun _ => yields_fail

theorem origin_records (code : header.type = 1) :
    (bgpAttrOrigin header attr).Yields (Records inside header attr) := by
  refine .ite (fun _ => yields_notifyWithData) fun _ =>
    .ite (fun _ => yields_notifyWithData) fun _ => ?_
  refine .bind fun origin => .ite (fun _ => yields_notifyWithData) fun _ => yields_pure ?_
  exact records_mark code nofun rfl (Bool.or_false _).symm

theorem aspath_records (code : header.type = 2) :
    (bgpAttrAspath bgp peer header attr).Yields (Records inside header attr) := by
  refine .ite (fun _ => yields_notifyWithData) fun _ => .bind fun start => .bind fun octets =>
    .bind fun refs => ?_
  split
  · exact yields_notify
  · refine .bind fun _ => .bind fun first => .ite (fun _ => yields_notify) fun _ =>
      .bind fun aspath => ?_
    refine .bind fun _ => yields_pure ?_
    exact records_mark code nofun rfl (Bool.or_true _).symm

theorem nexthop_records (code : header.type = 3) :
    (bgpAttrNexthop header attr).Yields (Records inside header attr) := by
  refine .ite (fun _ => yields_notifyWithData) fun _ =>
    .ite (fun _ => yields_notifyWithData) fun _ => ?_
  exact .bind fun nexthop => yields_pure (records_mark code nofun rfl (Bool.or_false _).symm)

theorem med_records (code : header.type = 4) :
    (bgpAttrMed header attr).Yields (Records inside header attr) :=
  .ite (fun _ => yields_notifyWithData) fun _ => .bind fun _ =>
    yields_pure (records_mark code nofun rfl (Bool.or_false _).symm)

theorem localPref_records (code : header.type = 5) :
    (bgpAttrLocalPref bgp peer header attr).Yields (Records (listens bgp peer) header attr) := by
  refine .ite (fun external => .bind fun _ => yields_pure ?_) fun internal =>
    .ite (fun _ => .bind fun localPref => yields_pure ?_) fun _ => yields_pure ?_
  · exact records_skip code rfl rfl (.inl ⟨rfl, decide_eq_false (not_not_intro external)⟩)
  · exact records_mark code (fun _ => decide_eq_true internal) rfl (Bool.or_false _).symm
  · exact records_mark code (fun _ => decide_eq_true internal) rfl (Bool.or_false _).symm

theorem atomic_records (code : header.type = 6) :
    (bgpAttrAtomic header attr).Yields (Records inside header attr) :=
  .ite (fun _ => yields_notify) fun _ =>
    yields_pure (records_mark code nofun rfl (Bool.or_false _).symm)

theorem aggregator_records (code : header.type = 7) :
    (bgpAttrAggregator header attr).Yields (Records inside header attr) :=
  .ite (fun _ => yields_notify) fun _ => .bind fun _ => .bind fun _ =>
    yields_pure (records_mark code nofun rfl (Bool.or_false _).symm)

theorem originatorId_records (code : header.type = 9) :
    (bgpAttrOriginatorId header attr).Yields (Records inside header attr) :=
  .ite (fun _ => yields_notify) fun _ => .bind fun _ =>
    yields_pure (records_mark code nofun rfl (Bool.or_false _).symm)

theorem clusterList_records (code : header.type = 10) :
    (bgpAttrClusterList header attr).Yields (Records inside header attr) :=
  .ite (fun _ => yields_notify) fun _ => .bind fun _ => .bind fun _ =>
    yields_pure (records_mark code nofun rfl (Bool.or_false _).symm)

theorem objectAttr_records {Object : Type} {width : Nat} {parse : List Octet → Option Object}
    {ref : Object → Ref}
    {store : Option Object → Attr} (stores : ∀ object, Records inside header attr (store object)) :
    (objectAttr header width parse ref store).Yields (Records inside header attr) := by
  refine .ite (fun _ => yields_pure (stores _)) fun _ =>
    .ite (fun _ => .bind fun _ => yields_pure (stores _)) fun _ => ?_
  refine .bind fun octets => ?_
  split
  · exact yields_pure (stores _)
  · exact .bind fun _ => yields_pure (stores _)

theorem unknown_records (unknown : ofCode header.type = none) :
    (bgpAttrUnknown header attr).Yields (Records inside header attr) := by
  have apart : ∀ known : AttrType, header.type ≠ BitVec.ofNat 8 known.code := by
    intro known same
    have found : ofCode (BitVec.ofNat 8 known.code) = some known := by cases known <;> rfl
    rw [same, found] at unknown
    cases unknown
  have idle : ∀ trait, header.brings inside trait = false := by
    have origin : header.type ≠ 1 := apart .origin
    have asPath : header.type ≠ 2 := apart .asPath
    have localPref : header.type ≠ 5 := apart .localPref
    intro trait
    cases trait <;>
      simp only [AttrHeader.brings, origin, asPath, localPref, decide_false, Bool.and_false]
  refine .bind fun _ => .ite (fun _ => yields_notifyWithData) fun _ =>
      .ite (fun _ => yields_pure ?_) fun _ =>
    .bind fun octets => yields_pure ?_
  · exact fun trait => (congrArg (attr.bears trait || ·) (idle trait)).trans
      (Bool.or_false _) |>.symm
  · intro trait
    rw [idle, Bool.or_false]
    cases trait <;> rfl

theorem readNexthop_keeps (nexthopLen : Octet) : (readNexthop attr nexthopLen).Yields fun after =>
    after.flag = attr.flag ∧ after.aspath.isSome = attr.aspath.isSome := by
  refine .ite (fun _ => .bind fun _ => yields_pure ⟨rfl, rfl⟩) fun _ =>
    .ite (fun _ => .bind fun _ => .bind fun _ => .bind fun _ => yields_pure ⟨rfl, rfl⟩) fun _ =>
      .ite (fun _ => .bind fun _ => yields_pure ⟨rfl, rfl⟩) fun _ =>
        .ite (fun _ => .bind fun _ => .bind fun _ => yields_pure ⟨rfl, rfl⟩) fun _ => yields_fail

theorem mpReach_records (code : header.type = 14) :
    (bgpMpReachParse header attr).Yields fun result => Records inside header attr result.1 := by
  refine .bind fun _ => .bind fun _ => .bind fun _ => .bind fun nexthopLen => ?_
  refine (readNexthop_keeps nexthopLen).andThen fun after kept => ?_
  refine .bind fun _ => .bind fun _ => .bind fun _ => yields_pure ?_
  exact records_skip code kept.1 kept.2 (.inr (.inl rfl))

end Values

section Block
variable {bgp : Bgp} {peer : Peer} {data : List Octet} {start endp size : Nat}
  {cursor after : Cursor Refs}
  {header : AttrHeader} {headers : List AttrHeader} {parsed result : Parsed}

theorem yields_keep {Good : Attr → Prop} {reader : AttrReader Attr} (yields : reader.Yields Good) :
    (reader >>= fun attr => pure { parsed with attr := attr }).Yields fun result =>
      Good result.attr :=
  yields.andThen fun _ good => yields_pure good

theorem parseValue_records : (parseValue bgp peer header parsed).Yields fun result =>
    Records (listens bgp peer) header parsed.attr result.attr := by
  unfold parseValue
  cases found : ofCode header.type with
  | none => exact yields_keep (unknown_records found)
  | some type =>
    have code := code_of_ofCode found
    cases type with
    | origin => exact yields_keep (origin_records code)
    | asPath => exact yields_keep (aspath_records code)
    | nextHop => exact yields_keep (nexthop_records code)
    | multiExitDisc => exact yields_keep (med_records code)
    | localPref => exact yields_keep (localPref_records code)
    | atomicAggregate => exact yields_keep (atomic_records code)
    | aggregator => exact yields_keep (aggregator_records code)
    | communities =>
      exact yields_keep
        (objectAttr_records fun _ => records_mark code nofun rfl (Bool.or_false _).symm)
    | originatorId => exact yields_keep (originatorId_records code)
    | clusterList => exact yields_keep (clusterList_records code)
    | mpReachNlri => exact (mpReach_records code).andThen fun _ good => yields_pure good
    | mpUnreachNlri =>
      exact .bind fun _ => yields_pure (records_skip code rfl rfl (.inr (.inr rfl)))
    | extCommunities =>
      exact yields_keep
        (objectAttr_records fun _ => records_mark code nofun rfl (Bool.or_false _).symm)

/-- What the loop has recorded of the headers so far. -/
def Recorded (inside : Bool) (headers : List AttrHeader) (parsed : Parsed) : Prop :=
  ∀ trait, parsed.attr.bears trait = headers.any fun header => header.brings inside trait

theorem recorded_nil {inside} : Recorded inside [] {} := by
  rintro ⟨⟩ <;> rfl

theorem parseAttr_recorded (recorded : Recorded (listens bgp peer) headers parsed)
    (ran : (parseAttr bgp peer start endp parsed).run data cursor = (.ok result, after)) :
    Recorded (listens bgp peer) (headers ++ [headerAt data cursor.getp]) result := by
  obtain ⟨before, middle, value, -⟩ := parseAttr_value ran
  intro trait
  rw [parseValue_records data before result middle value trait, any_append, any_cons, any_nil,
    Bool.or_false]
  exact congrArg (· || _) (recorded trait)

/-- An accepted block: the attribute set has what the headers bring. -/
theorem bgpAttrParse_recorded
    (ran : (bgpAttrParse bgp peer size).run data cursor = (.ok parsed, after)) :
    Recorded (listens bgp peer)
    (attrHeaders data (cursor.getp + size) size cursor.getp) parsed := by
  have split : (bgpAttrParse bgp peer size).run data cursor =
      (parseLoop bgp peer cursor.getp (cursor.getp + size) size {} >>=
        finishBlock (cursor.getp + size)).run data
        { cursor with lo := cursor.getp, hi := cursor.getp + size } := rfl
  rw [split] at ran
  obtain ⟨middle, afterLoop, looped, finished⟩ := run_bind_eq_ok ran
  rw [finishBlock_ok finished]
  have recorded :=
    parseLoop_keeps (fun headers parsed _ => Recorded (listens bgp peer) headers parsed)
    parseAttr_recorded size recorded_nil looped
  exact recorded

end Block
end Zebra.Bgpd
